import ViiCore.Overlay.PeerListSteps

/-!
The calls on the connections of a node.

Adding, accepting and receiving keep every connection that is not dropped in one list. A call
changes no other connection, but for one that is evicted for a preferred one.
-/

namespace ViiCore.Overlay

open FiniteMap (Map)

variable {Conn Secret Key Body : Type} [DecidableEq Conn]

/-- No signature passes under a key of zeros, which is of small order. -/
def Primitives.RejectsDefault (lib : Primitives Secret Key) : Prop :=
  ∀ sig hash, lib.verifySig NodeID.default sig hash = false

namespace OverlayManager

variable {app : Application Secret Key Body} {before after overlay : OverlayManager Conn Secret Key Body}
  {conn : Conn} {node : NodeState Body}

@[simp] theorem peer_setPeer (connection : Connection Key Body) (peer : Peer Key Body) :
    (connection.setPeer peer).peer = peer := rfl

/-! ### The other connections -/

variable (app before after) in
omit [DecidableEq Conn] in
/-- An authenticated connection gives way where there is no room. -/
structure Evicts (victim : Conn) : Prop where
  chosen : ∃ connection, before.connections victim = some connection ∧
    connection.peer.mState = .GOT_AUTH ∧ before.isPreferred app connection = false ∧
      before.hasRoom connection.peer.mRole = false
  dropped : ∃ connection, after.connections victim = some connection ∧
    connection.peer.mState = .CLOSING

variable (app before after) in
omit [DecidableEq Conn] in
/-- What a call does to the connections that it is not about: one may be evicted, the others stay
as they are. -/
def Spares (about : Option Conn) : Prop :=
  ∃ victim : Option Conn,
    (∀ other, about ≠ some other → victim ≠ some other →
      after.connections other = before.connections other) ∧
    ∀ other, victim = some other → about ≠ some other ∧ Evicts app before after other

omit [DecidableEq Conn] in
theorem spares_of_same (about : Option Conn)
    (same : ∀ other, about ≠ some other → after.connections other = before.connections other) :
    Spares app before after about :=
  ⟨none, fun other different _ => same other different, fun other isNone => by cases isNone⟩

theorem spares_store (connection changed : Connection Key Body)
    (same : overlay.connections = before.connections) :
    Spares app before (overlay.store conn connection changed) (some conn) := by
  apply spares_of_same
  intro other different
  rw [connections_store, ← same]
  exact connections_setConnection_ne (fun isConn => different (by rw [isConn])) changed

theorem Spares.around {mid last : OverlayManager Conn Secret Key Body}
    (first : Connection Key Body)
    (spares : Spares app (before.setConnection conn first) mid (some conn))
    (same : ∀ other, other ≠ conn → last.connections other = mid.connections other) :
    Spares app before last (some conn) := by
  obtain ⟨victim, kept, evicted⟩ := spares
  refine ⟨victim, ?_, ?_⟩
  · intro other notAbout notVictim
    have different : other ≠ conn := fun isConn => notAbout (by rw [isConn])
    rw [same other different, kept other notAbout notVictim]
    exact connections_setConnection_ne different first
  · intro other isVictim
    obtain ⟨notAbout, ⟨connection, found, state, unpreferred, full⟩, dropped⟩ := evicted other isVictim
    have different : other ≠ conn := fun isConn => notAbout (by rw [isConn])
    rw [connections_setConnection_ne different] at found
    refine ⟨notAbout, ⟨connection, found, state, unpreferred, ?_⟩, ?_⟩
    · unfold hasRoom at full ⊢
      rwa [getPeersList_setConnection] at full
    · rw [same other different]
      exact dropped

/-! ### Adding -/

omit [DecidableEq Conn] in
theorem Sound.not_lists (sound : overlay.Sound app) (unknown : overlay.connections conn = none)
    (role : PeerRole) : ¬ overlay.Lists role conn := by
  intro listed
  obtain ⟨connection, known, _⟩ := (sound.stands conn).member role listed
  rw [unknown] at known
  cases known

theorem Sound.refuse (sound : overlay.Sound app) (running : node.isShuttingDown = false)
    (unknown : overlay.connections conn = none) {connection : Connection Key Body}
    (opened : connection.peer.mState ≠ .CLOSING) (noKey : connection.peer.mPeerID = none) :
    (overlay.refuse node conn connection).Sound app := by
  have going : connection.peer.shouldAbort node = false := Peer.going_of_opened opened running
  have closing : (connection.peer.drop node).mState = .CLOSING := Peer.drop_state going
  have noKeyAfter : (connection.setPeer (connection.peer.drop node)).getPeerID = NodeID.default := by
    unfold Connection.getPeerID
    rw [peer_setPeer, Peer.drop_stays.id, noKey]
    rfl
  have notListed := sound.not_lists unknown
  unfold OverlayManager.refuse
  rw [store_of_dropped opened closing]
  apply (removePeer_removes sound closing _ _ _).sound sound
  · exact fun role listed => absurd listed (notListed role)
  · exact fun id found => absurd (.inr ⟨id, found⟩) (notListed _)
  · intro _ other found
    rw [noKeyAfter] at found
    obtain ⟨record, known, _, state, hasId⟩ := sound.authenticated found
    obtain ⟨id, isId, notDefault⟩ := ((sound.stands other).ownKey record known (.inr state)).1
    rw [hasId, Option.some.injEq] at isId
    exact absurd isId.symm notDefault

theorem Sound.addPending (sound : overlay.Sound app) (unknown : overlay.connections conn = none)
    {connection : Connection Key Body} (opened : connection.peer.mState ≠ .CLOSING)
    (early : ¬ connection.peer.PassedHello) {role : PeerRole}
    (isRole : connection.peer.mRole = role)
    (space : (overlay.getPeersList role).mPending.length < app.limits.maxPending role) :
    (overlay.addPending conn connection).Sound app := by
  have notListed := sound.not_lists unknown
  generalize isAfter : overlay.addPending conn connection = after
  have getPeersList_after (other : PeerRole) : after.getPeersList other =
      if other = role then
        { overlay.getPeersList role with
          mPending := (overlay.getPeersList role).mPending ++ [conn] }
      else overlay.getPeersList other := by
    rw [← isAfter]
    unfold OverlayManager.addPending
    simp only [getPeersList_setPeersList, getPeersList_setConnection, isRole]
  have connections_after : after.connections = (overlay.setConnection conn connection).connections := by
    rw [← isAfter]
    unfold OverlayManager.addPending
    rw [connections_setPeersList]
  have isAdded {record : Connection Key Body} (known : after.connections conn = some record) :
      connection = record := by
    rw [connections_after, connections_setConnection, Option.some.injEq] at known
    exact known
  have pending_after (other : PeerRole) (peer : Conn) :
      peer ∈ (after.getPeersList other).mPending ↔
        peer ∈ (overlay.getPeersList other).mPending ∨ other = role ∧ peer = conn := by
    rw [getPeersList_after]
    split
    · rename_i same
      simp [same]
    · rename_i different
      simp [different]
  have map_after (other : PeerRole) :
      (after.getPeersList other).mAuthenticated = (overlay.getPeersList other).mAuthenticated := by
    rw [getPeersList_after]
    split
    · rename_i same
      rw [same]
    · rfl
  have unkeyed (other : PeerRole) (id : NodeID) :
      (after.getPeersList other).mAuthenticated.lookup id ≠ some conn := by
    rw [map_after]
    exact fun found => notListed other (.inr ⟨id, found⟩)
  have changes : Changes overlay after conn := by
    refine ⟨?_, ?_, ?_⟩
    · intro other different
      rw [connections_after]
      exact connections_setConnection_ne different connection
    · intro other peer different
      rw [pending_after]
      exact or_iff_left fun same => different same.2
    · intro other id peer _
      rw [map_after]
  apply sound.change changes
  · intro other
    rw [getPeersList_after]
    split
    · rename_i same
      rw [same]
      exact (sound.within role).add (fun pending => notListed role (.inl pending)) space
    · exact sound.within other
  constructor
  case apart => exact fun other _ id => unkeyed other id
  case member =>
    rintro other (pending | ⟨id, found⟩)
    · rcases (pending_after other conn).mp pending with wasPending | ⟨sameRole, _⟩
      · exact absurd (.inl wasPending) (notListed other)
      · refine ⟨connection, ?_, isRole.trans sameRole.symm, opened⟩
        rw [connections_after, connections_setConnection]
    · exact absurd found (unkeyed other id)
  case listed =>
    intro record known _
    rw [← isAdded known]
    exact .inl ((pending_after _ conn).mpr (.inr ⟨isRole, rfl⟩))
  case keyed => exact fun other id _ found => absurd found (unkeyed other id)
  case ownKey =>
    intro record known passed
    rw [← isAdded known] at passed
    exact absurd passed early

/-! ### Accepting -/

@[simp] theorem connections_moveToAuthenticated (connection : Connection Key Body) :
    (overlay.moveToAuthenticated conn connection).1.connections = overlay.connections :=
  connections_setPeersList _

theorem Sound.evict (sound : overlay.Sound app) (running : node.isShuttingDown = false)
    {role : PeerRole} {id : NodeID} {victim : Conn}
    (keyed : (overlay.getPeersList role).mAuthenticated.lookup id = some victim) :
    Removes overlay (overlay.evict app node victim) victim := by
  obtain ⟨record, known, _, opened⟩ := (sound.stands victim).member role (.inr ⟨id, keyed⟩)
  have going : record.peer.shouldAbort node = false := Peer.going_of_opened opened running
  unfold OverlayManager.evict call
  rw [known]
  simp only
  rw [store_of_dropped opened (Peer.sendErrorAndDrop_state going _ _)]
  exact sound.removes known opened (proceeds_of_stays (Peer.sendErrorAndDrop_stays _ _))
    (Peer.sendErrorAndDrop_state going _ _)

structure Accepts (app : Application Secret Key Body)
    (before after : OverlayManager Conn Secret Key Body) (conn : Conn) : Prop where
  sound : after.Sound app
  same : after.connections conn = before.connections conn
  spares : Spares app before after (some conn)

theorem Sound.accepts_of_room (sound : overlay.Sound app) {connection : Connection Key Body}
    (found : overlay.connections conn = some connection)
    (state : connection.peer.mState = .GOT_AUTH)
    (room : overlay.hasRoom connection.peer.mRole) :
    Accepts app overlay (overlay.moveToAuthenticated conn connection).1 conn where
  sound := by
    apply sound.moveToAuthenticated found state
    rw [← (sound.within _).maximum]
    exact of_decide_eq_true room
  same := by rw [connections_moveToAuthenticated]
  spares := spares_of_same _ fun other _ => by rw [connections_moveToAuthenticated]

theorem Sound.acceptIfRoom (sound : overlay.Sound app) {connection : Connection Key Body}
    (found : overlay.connections conn = some connection)
    (state : connection.peer.mState = .GOT_AUTH) :
    Accepts app overlay (overlay.acceptIfRoom app conn connection).1 conn := by
  unfold OverlayManager.acceptIfRoom
  split
  · rename_i allowed
    exact sound.accepts_of_room found state allowed.2
  · exact ⟨sound, rfl, spares_of_same _ fun _ _ => rfl⟩

theorem Sound.acceptAuthenticatedPeer (sound : overlay.Sound app)
    (running : node.isShuttingDown = false) {connection : Connection Key Body}
    (found : overlay.connections conn = some connection)
    (state : connection.peer.mState = .GOT_AUTH)
    (pending : conn ∈ (overlay.getPeersList connection.peer.mRole).mPending) :
    Accepts app overlay (overlay.acceptAuthenticatedPeer app node conn connection).1 conn := by
  unfold OverlayManager.acceptAuthenticatedPeer
  split
  · split
    · rename_i room
      exact sound.accepts_of_room found state room
    rename_i full
    simp only
    split
    · rename_i victim isFound
      have isVictim := List.find?_some isFound
      have keyed := PeersList.mem_inOrder _ (List.mem_of_find?_eq_some isFound)
      obtain ⟨record, known, direction, authenticated, _⟩ := sound.authenticated keyed
      have removes := sound.evict running keyed
      have different : conn ≠ victim.2 := by
        intro same
        exact (sound.stands conn).apart _ pending victim.1 (by rw [same]; exact keyed)
      have stillFound : (overlay.evict app node victim.2).connections conn = some connection := by
        rw [removes.connections conn different, found]
      refine ⟨?_, ?_, some victim.2, ?_, ?_⟩
      · apply (removes.sound sound).moveToAuthenticated stillFound state
        exact Nat.lt_of_lt_of_le ((removes.lists _).freed victim.1 keyed)
          (sound.within _).authenticatedBound
      · rw [connections_moveToAuthenticated, stillFound, found]
      · intro other _ notVictim
        rw [connections_moveToAuthenticated]
        exact removes.connections other fun same => notVictim (by rw [same])
      · intro other isOther
        rw [Option.some.injEq] at isOther
        subst isOther
        refine ⟨fun same => different (Option.some.inj same), ⟨record, known, ?_, ?_, ?_⟩, ?_⟩
        · exact authenticated
        · simpa [OverlayManager.isVictim, known] using isVictim
        · rw [direction]
          simpa using full
        · rw [connections_moveToAuthenticated]
          exact removes.closing
    · exact sound.acceptIfRoom found state
  · exact sound.acceptIfRoom found state

/-! ### Receiving -/

theorem Sound.ownKey_of_unknown (sound : overlay.Sound app) {connection : Connection Key Body}
    (found : overlay.connections conn = some connection)
    (early : connection.peer.mState ≠ .GOT_AUTH) {id : NodeID}
    (unknown : overlay.alreadyConnected conn id = false) {other : Conn}
    {another : Connection Key Body} (different : other ≠ conn)
    (known : overlay.connections other = some another) (passed : another.peer.PassedHello) :
    another.peer.mPeerID ≠ some id := by
  intro hasId
  unfold alreadyConnected at unknown
  rw [Bool.or_eq_false_iff] at unknown
  obtain ⟨notAuthenticated, notPending⟩ := unknown
  have isId : another.getPeerID = id := Connection.getPeerID_of_some hasId
  -- Whoever is found under the key is another connection, since this one is not authenticated.
  have someoneElse (role : PeerRole) {peer : Conn}
      (keyed : (overlay.getPeersList role).mAuthenticated.lookup id = some peer) : peer ≠ conn := by
    intro same
    exact early ((sound.stands conn).keyed role id connection (same ▸ keyed) found).1
  have absent (role : PeerRole) : (overlay.getPeersList role).mAuthenticated.lookup id = none := by
    have nobody (peer : Conn) : overlay.findAuthenticated id = some peer → peer = conn := by
      intro isPeer
      simpa [isPeer] using notAuthenticated
    cases outbound : overlay.mOutboundPeers.mAuthenticated.lookup id with
    | some peer =>
        have isConn := nobody peer (by simp [findAuthenticated, outbound])
        exact absurd isConn (someoneElse .WE_CALLED_REMOTE outbound)
    | none =>
        cases inbound : overlay.mInboundPeers.mAuthenticated.lookup id with
        | some peer =>
            have isConn := nobody peer (by simp [findAuthenticated, outbound, inbound])
            exact absurd isConn (someoneElse .REMOTE_CALLED_US inbound)
        | none =>
            cases role with
            | REMOTE_CALLED_US => exact inbound
            | WE_CALLED_REMOTE => exact outbound
  rcases (sound.stands other).listed another known passed.opened with pending | ⟨key, keyed⟩
  · have isPending : other ∈ overlay.getPendingPeers := by
      unfold getPendingPeers
      rw [List.mem_append]
      generalize another.peer.mRole = role at pending
      cases role with
      | REMOTE_CALLED_US => exact .inr pending
      | WE_CALLED_REMOTE => exact .inl pending
    have notSame := List.any_eq_false.mp notPending other isPending
    simp [different, known, isId] at notSame
  · have sameKey := ((sound.stands other).keyed _ key another keyed known).2
    rw [hasId, Option.some.injEq] at sameKey
    rw [← sameKey, absent] at keyed
    cases keyed

omit [DecidableEq Conn] in
theorem ne_default_of_certified (rejects : app.lib.RejectsDefault) {networkID remoteNode : Uint256}
    {timeNow : UInt64} {cert : AuthCert}
    (certified : PeerAuth.verifyRemoteAuthCert app.lib networkID timeNow remoteNode cert) :
    remoteNode ≠ NodeID.default := by
  intro isDefault
  unfold PeerAuth.verifyRemoteAuthCert at certified
  rw [isDefault, rejects] at certified
  simp at certified

structure Handles (app : Application Secret Key Body)
    (before after : OverlayManager Conn Secret Key Body) (conn : Conn) : Prop where
  sound : after.Sound app
  spares : Spares app before after (some conn)

theorem Sound.handles_of_stays (sound : overlay.Sound app) {connection changed : Connection Key Body}
    (found : overlay.connections conn = some connection)
    (stays : Peer.Stays connection.peer changed.peer) :
    Handles app overlay (overlay.store conn connection changed) conn :=
  ⟨sound.storeStays found stays, spares_store connection changed rfl⟩

theorem Sound.recvHello (sound : overlay.Sound app) (rejects : app.lib.RejectsDefault)
    (running : node.isShuttingDown = false) {connection : Connection Key Body}
    (found : overlay.connections conn = some connection) {peer : Peer Key Body}
    (stays : Peer.Stays connection.peer peer) (same : peer.mState = connection.peer.mState)
    (opened : peer.mState ≠ .CLOSING) {ip : String} {elo : Hello}
    (did : overlay.recvHello app node ip conn connection peer elo = some after) :
    Handles app overlay after conn := by
  unfold OverlayManager.recvHello at did
  simp only at did
  split at did
  · cases did
  rename_i mAuth changed received
  cases did
  refine ⟨?_, spares_store connection _ rfl⟩
  have withAuth := sound.withAuth mAuth
  have outcome := Peer.recvHello_takes (by exact running) opened received
  rcases outcome with ⟨rest, _⟩ | takes
  · exact withAuth.storeStays found (stays.trans rest)
  have early : connection.peer.mState ≠ .GOT_AUTH ∧ connection.peer.mState ≠ .CLOSING := by
    rw [← same]
    rcases takes.early with state | state
    · rw [state]
      decide
    · rw [state]
      decide
  apply withAuth.store found
  · exact ⟨takes.role.trans stays.role, fun state => absurd state early.1,
      fun closed => absurd closed early.2⟩
  · intro passed
    have state : changed.mState = .GOT_HELLO ∧ overlay.alreadyConnected conn elo.peerID = false := by
      rcases takes.state with kept | closing
      · exact kept
      · exact absurd closing passed.opened
    rw [takes.id]
    refine ⟨⟨elo.peerID, rfl, ne_default_of_certified rejects takes.certified⟩, ?_⟩
    intro other another different known passedOther
    exact (sound.ownKey_of_unknown found early.1 state.2 different known passedOther).symm

theorem Sound.recvAuth (sound : overlay.Sound app) (running : node.isShuttingDown = false)
    {connection : Connection Key Body} (found : overlay.connections conn = some connection)
    {peer : Peer Key Body} (stays : Peer.Stays connection.peer peer)
    (same : peer.mState = connection.peer.mState) (unused : Int) :
    Handles app overlay (overlay.recvAuth app node conn connection peer unused) conn := by
  unfold OverlayManager.recvAuth
  split
  · rename_i state
    exact sound.handles_of_stays found
      ((stays.trans (Peer.recvAuth_early state)).trans (Peer.note_stays _))
  rename_i notOther
  have state : peer.mState = .GOT_HELLO := by simpa using notOther
  have was : connection.peer.mState = .GOT_HELLO := same.symm.trans state
  simp only
  generalize isAuthenticated : connection.setPeer
    { peer with mState := .GOT_AUTH, reachedAuth := true } = authenticated
  have gotAuth : authenticated.peer.mState = .GOT_AUTH := by rw [← isAuthenticated]; rfl
  have pending : conn ∈ (overlay.getPeersList connection.peer.mRole).mPending := by
    have opened : connection.peer.mState ≠ .CLOSING := by rw [was]; decide
    rcases (sound.stands conn).listed connection found opened with pending | ⟨id, keyed⟩
    · exact pending
    · have state := ((sound.stands conn).keyed _ id connection keyed found).1
      exact absurd (state.symm.trans was) (by decide)
  have setSound : (overlay.setConnection conn authenticated).Sound app := by
    apply sound.setConnection found
    · rw [← isAuthenticated]
      exact ⟨stays.role, fun authenticated => absurd (was.symm.trans authenticated) (by decide),
        fun closed => absurd (was.symm.trans closed) (by decide)⟩
    · apply sound.hasOwnKey found
      · rw [← isAuthenticated]
        exact stays.id
      · exact fun _ => .inl was
    · exact fun closing => absurd (gotAuth.symm.trans closing) (by decide)
  have sameRole : authenticated.peer.mRole = connection.peer.mRole := by
    rw [← isAuthenticated]
    exact stays.role
  have accepts := setSound.acceptAuthenticatedPeer running
    (connections_setConnection authenticated) gotAuth
    (by rw [getPeersList_setConnection, sameRole]; exact pending)
  generalize (overlay.setConnection conn authenticated).acceptAuthenticatedPeer app node conn
    authenticated = accepted at accepts ⊢
  constructor
  · apply accepts.sound.storeStays
    · rw [accepts.same, connections_setConnection]
    · rw [← isAuthenticated]
      exact (Peer.recvAuth_stays state).trans (Peer.note_stays _)
  · apply accepts.spares.around
    intro other different
    rw [connections_store, connections_setConnection_ne different]

theorem dispatch_other {connection : Connection Key Body} {peer : Peer Key Body} {ip : String}
    {message : VIIMessage Body}
    (other : (∀ elo, message ≠ .HELLO elo) ∧ ∀ unused, message ≠ .AUTH unused) :
    overlay.dispatch app node ip conn connection peer message =
      (peer.dispatch app.lib app.encode app.config node overlay.mAuth message).map fun step =>
        ({ overlay with mAuth := step.1 } : OverlayManager Conn Secret Key Body).store conn
          connection (connection.setPeer (step.2.note message)) := by
  unfold OverlayManager.dispatch
  cases message with
  | HELLO elo => exact absurd rfl (other.1 elo)
  | AUTH unused => exact absurd rfl (other.2 unused)
  | ERROR_MSG code text | GET_SCP_STATE seq | content type body =>
      cases peer.dispatch app.lib app.encode app.config node overlay.mAuth _ <;> rfl

theorem Sound.dispatch (sound : overlay.Sound app) (rejects : app.lib.RejectsDefault)
    (running : node.isShuttingDown = false) {connection : Connection Key Body}
    (found : overlay.connections conn = some connection) {peer : Peer Key Body}
    (stays : Peer.Stays connection.peer peer) (same : peer.mState = connection.peer.mState)
    (opened : peer.mState ≠ .CLOSING) {ip : String} {message : VIIMessage Body}
    (did : overlay.dispatch app node ip conn connection peer message = some after) :
    Handles app overlay after conn := by
  have others {message : VIIMessage Body}
      (other : (∀ elo, message ≠ .HELLO elo) ∧ ∀ unused, message ≠ .AUTH unused)
      (did : overlay.dispatch app node ip conn connection peer message = some after) :
      Handles app overlay after conn := by
    rw [dispatch_other other] at did
    obtain ⟨⟨mAuth, changed⟩, dispatched, rfl⟩ := Option.map_eq_some_iff.mp did
    have rest := (Peer.dispatch_stays other dispatched).trans (Peer.note_stays message)
    exact ⟨(sound.withAuth mAuth).storeStays found (stays.trans rest), spares_store connection _ rfl⟩
  cases message with
  | HELLO elo => exact sound.recvHello rejects running found stays same opened did
  | AUTH unused =>
      cases did
      exact sound.recvAuth running found stays same unused
  | ERROR_MSG code text => exact others ⟨by simp, by simp⟩ did
  | GET_SCP_STATE seq => exact others ⟨by simp, by simp⟩ did
  | content type body => exact others ⟨by simp, by simp⟩ did

theorem Sound.recvBytes [DecidableEq Key] (sound : overlay.Sound app)
    (rejects : app.lib.RejectsDefault) (running : node.isShuttingDown = false) {ip : String}
    {decoded : Option (AuthenticatedMessage Key Body)}
    (did : overlay.recvBytes app node ip conn decoded = some after) :
    Handles app overlay after conn := by
  unfold OverlayManager.recvBytes at did
  split at did
  · cases did
  rename_i connection found
  split at did
  · cases did
    exact sound.handles_of_stays found (Peer.sendErrorAndDrop_stays _ _)
  rename_i msg
  split at did
  · cases did
    exact ⟨sound, spares_of_same _ fun _ _ => rfl⟩
  rename_i going
  have verified := Peer.verify_stays app.lib app.encode node connection.peer msg
  split at did
  · rename_i changed isChanged
    cases did
    rw [isChanged] at verified
    exact sound.handles_of_stays found verified.1
  · rename_i message peer isPeer
    rw [isPeer] at verified
    have same : peer.mState = connection.peer.mState := verified.2 message rfl
    have opened : peer.mState ≠ .CLOSING := by
      rw [same]
      intro closing
      exact going (by simp [Peer.shouldAbort, closing])
    exact sound.dispatch rejects running found verified.1 same opened did

end OverlayManager

end ViiCore.Overlay
