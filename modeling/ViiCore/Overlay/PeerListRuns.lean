import ViiCore.Overlay.PeerListCalls
import ViiCore.Overlay.PeerStream

/-!
Runs of a node that takes and makes connections.

Any connection may be added, any bytes may come in and any connection may be dropped at any time.
The lists stay in order as long as no connection that was dropped while it was being made is
reported as made: `connectHandler` sets its state without looking whether it is closing.
-/

namespace ViiCore.Overlay

variable {Conn Secret Key Body : Type} [DecidableEq Conn]

namespace OverlayManager

variable {app : Application Secret Key Body} {overlay after : OverlayManager Conn Secret Key Body}
  {conn : Conn} {node : NodeState Body}

/-! ### Runs -/

inductive OverlayEvent (Conn Key Body : Type) where
  | addInboundConnection (conn : Conn) (mSendNonce : Uint256) (ip : String)
  | addOutboundConnection (conn : Conn) (mSendNonce : Uint256) (mAddress : PeerBareAddress)
  | connectHandler (conn : Conn) (error : Bool)
  | recvBytes (conn : Conn) (ip : String) (decoded : Option (AuthenticatedMessage Key Body))
  | sendMessage (conn : Conn) (msg : VIIMessage Body)
  | drop (conn : Conn)
  | storePeerList (addresses : List PeerBareAddress)

def OverlayEvent.about : OverlayEvent Conn Key Body → Option Conn
  | .addInboundConnection conn _ _ => some conn
  | .addOutboundConnection conn _ _ => some conn
  | .connectHandler conn _ => some conn
  | .recvBytes conn _ _ => some conn
  | .sendMessage conn _ => some conn
  | .drop conn => some conn
  | .storePeerList _ => none

variable (app overlay node) in
/-- Nothing follows where the code throws. -/
def perform [DecidableEq Key] :
    OverlayEvent Conn Key Body → Option (OverlayManager Conn Secret Key Body)
  | .addInboundConnection conn mSendNonce ip =>
      some (overlay.addInboundConnection app node conn mSendNonce ip)
  | .addOutboundConnection conn mSendNonce mAddress =>
      some (overlay.addOutboundConnection app node conn mSendNonce mAddress)
  | .connectHandler conn error => some (overlay.connectHandler app node conn error)
  | .recvBytes conn ip decoded => overlay.recvBytes app node ip conn decoded
  | .sendMessage conn msg => some (overlay.sendMessage app conn msg)
  | .drop conn => some (overlay.drop node conn)
  | .storePeerList addresses => some { overlay with mConfigurationPreferredPeers := addresses }

variable (overlay) in
omit [DecidableEq Conn] in
/-- A connection is added once, made once and read from then on. -/
def Allowed : OverlayEvent Conn Key Body → Prop
  | .addInboundConnection conn _ _ => overlay.connections conn = none
  | .addOutboundConnection conn _ _ => overlay.connections conn = none
  | .connectHandler conn _ => ∃ connection, overlay.connections conn = some connection ∧
      connection.peer.mRole = .WE_CALLED_REMOTE ∧ connection.peer.reading = false ∧
        (connection.peer.mState = .CONNECTING ∨ connection.peer.mState = .CLOSING)
  | .recvBytes conn _ _ => ∃ connection, overlay.connections conn = some connection ∧
      connection.peer.reading
  | .sendMessage _ _ => True
  | .drop _ => True
  | .storePeerList _ => True

variable (overlay) in
omit [DecidableEq Conn] in
/-- No connection that was dropped is reported as made. -/
def Timely (event : OverlayEvent Conn Key Body) : Prop :=
  ∀ conn connection, event = .connectHandler conn false →
    overlay.connections conn = some connection → connection.peer.mState ≠ .CLOSING

variable (app) in
/-- A run of a node that does not end, of steps that meet a condition. -/
inductive Reached [DecidableEq Key] (mAuth : PeerAuth Secret Key)
    (meets : OverlayManager Conn Secret Key Body → OverlayEvent Conn Key Body → Prop) :
    OverlayManager Conn Secret Key Body → Prop
  | create : Reached mAuth meets (OverlayManager.create app mAuth)
  | step {before after : OverlayManager Conn Secret Key Body} (node : NodeState Body)
      (event : OverlayEvent Conn Key Body) (reached : Reached mAuth meets before)
      (running : node.isShuttingDown = false) (allowed : before.Allowed event)
      (met : meets before event) (performed : before.perform app node event = some after) :
      Reached mAuth meets after

omit [DecidableEq Conn] in
theorem create_sound (mAuth : PeerAuth Secret Key) :
    (OverlayManager.create app mAuth : OverlayManager Conn Secret Key Body).Sound app := by
  have empty (role : PeerRole) :
      (OverlayManager.create app mAuth : OverlayManager Conn Secret Key Body).getPeersList role =
        { mMaxAuthenticatedCount := app.limits.maxAuthenticated role
          mPending := [], mAuthenticated := ∅ } := by
    cases role <;> rfl
  have notListed (role : PeerRole) (conn : Conn) :
      ¬ (OverlayManager.create app mAuth : OverlayManager Conn Secret Key Body).Lists role conn := by
    unfold Lists
    rw [empty]
    simp
  constructor
  case within =>
    intro role
    rw [empty]
    exact ⟨List.nodup_nil, rfl, Nat.zero_le _, Nat.zero_le _⟩
  case stands =>
    intro conn
    constructor
    case apart => exact fun role pending => absurd (.inl pending) (notListed role conn)
    case member => exact fun role listed => absurd listed (notListed role conn)
    case listed => exact fun connection known => by cases known
    case keyed => exact fun role id _ found => absurd (.inr ⟨id, found⟩) (notListed role conn)
    case ownKey => exact fun connection known => by cases known

omit [DecidableEq Conn] in
theorem Sound.storePeerList (sound : overlay.Sound app) (addresses : List PeerBareAddress) :
    Sound app { overlay with mConfigurationPreferredPeers := addresses } :=
  sound.congr (fun role => by cases role <;> rfl) rfl

theorem Sound.call (sound : overlay.Sound app) {act : Peer Key Body → Peer Key Body}
    (stays : ∀ peer, Peer.Stays peer (act peer)) : Handles app overlay (overlay.call conn act) conn := by
  unfold OverlayManager.call
  split
  · exact ⟨sound, spares_of_same _ fun _ _ => rfl⟩
  · rename_i connection found
    exact sound.handles_of_stays found (stays connection.peer)

theorem Sound.connectHandler [DecidableEq Key] (sound : overlay.Sound app) {error : Bool}
    (allowed : overlay.Allowed (.connectHandler conn error : OverlayEvent Conn Key Body))
    (timely : overlay.Timely (.connectHandler conn error : OverlayEvent Conn Key Body)) :
    Handles app overlay (overlay.connectHandler app node conn error) conn := by
  obtain ⟨connection, found, _, _, state⟩ := allowed
  unfold OverlayManager.connectHandler
  rw [found]
  simp only
  refine ⟨?_, spares_store connection _ rfl⟩
  cases error with
  | true => exact (sound.withAuth _).storeStays found Peer.drop_stays
  | false =>
      have connecting : connection.peer.mState = .CONNECTING :=
        state.resolve_right (timely conn connection rfl found)
      have fields := Peer.connectHandler_fields app.lib app.encode app.config node connection.peer
        overlay.mAuth
      generalize connection.peer.connectHandler app.lib app.encode app.config node overlay.mAuth false
        = result at fields ⊢
      obtain ⟨mAuth, peer⟩ := result
      obtain ⟨role, connected⟩ := fields
      have proceeds : Proceeds connection.peer peer :=
        ⟨role, fun authenticated => absurd (connecting.symm.trans authenticated) (by decide),
          fun closed => absurd (connecting.symm.trans closed) (by decide)⟩
      have early : overlay.HasOwnKey conn peer := by
        intro passed
        rcases passed with greeted | authenticated
        · exact absurd (connected.symm.trans greeted) (by decide)
        · exact absurd (connected.symm.trans authenticated) (by decide)
      exact (sound.withAuth mAuth).store found proceeds early

theorem create_early (Body : Type) (lib : Primitives Secret Key) (role : PeerRole) (nonce : Uint256) :
    (Peer.create lib role nonce : Peer Key Body).mState ≠ .CLOSING ∧
      ¬ (Peer.create lib role nonce : Peer Key Body).PassedHello := by
  unfold Peer.PassedHello
  cases role with
  | REMOTE_CALLED_US =>
      change PeerState.CONNECTED ≠ .CLOSING ∧
        ¬ (PeerState.CONNECTED = .GOT_HELLO ∨ PeerState.CONNECTED = .GOT_AUTH)
      decide
  | WE_CALLED_REMOTE =>
      change PeerState.CONNECTING ≠ .CLOSING ∧
        ¬ (PeerState.CONNECTING = .GOT_HELLO ∨ PeerState.CONNECTING = .GOT_AUTH)
      decide

theorem spares_refuse (connection : Connection Key Body) :
    Spares app overlay (overlay.refuse node conn connection) (some conn) :=
  spares_store connection _ rfl

theorem spares_addPending (connection : Connection Key Body) :
    Spares app overlay (overlay.addPending conn connection) (some conn) := by
  apply spares_of_same
  intro other different
  unfold OverlayManager.addPending
  rw [connections_setPeersList]
  exact connections_setConnection_ne (fun isConn => different (by rw [isConn])) connection

theorem Sound.addInboundConnection (sound : overlay.Sound app)
    (running : node.isShuttingDown = false) (unknown : overlay.connections conn = none)
    (mSendNonce : Uint256) (ip : String) :
    Handles app overlay (overlay.addInboundConnection app node conn mSendNonce ip) conn := by
  obtain ⟨opened, early⟩ := create_early Body app.lib .REMOTE_CALLED_US mSendNonce
  unfold OverlayManager.addInboundConnection
  simp only
  split
  · exact ⟨sound.refuse running unknown opened rfl, spares_refuse _⟩
  · rename_i space
    refine ⟨sound.addPending unknown opened early rfl ?_, spares_addPending _⟩
    rw [running] at space
    simp only [Bool.false_eq_true, false_or, Decidable.not_not] at space
    unfold getPeersList ConnectionLimits.maxPending
    simp only
    rcases space with inLimit | ⟨inAllowance, _⟩
    · exact Nat.lt_add_right _ inLimit
    · exact inAllowance

theorem Sound.addOutboundConnection (sound : overlay.Sound app)
    (running : node.isShuttingDown = false) (unknown : overlay.connections conn = none)
    (mSendNonce : Uint256) (mAddress : PeerBareAddress) :
    Handles app overlay (overlay.addOutboundConnection app node conn mSendNonce mAddress) conn := by
  obtain ⟨opened, early⟩ := create_early Body app.lib .WE_CALLED_REMOTE mSendNonce
  unfold OverlayManager.addOutboundConnection
  simp only
  split
  · exact ⟨sound.refuse running unknown opened rfl, spares_refuse _⟩
  · rename_i space
    refine ⟨sound.addPending unknown opened early rfl ?_, spares_addPending _⟩
    rw [running] at space
    simp only [Bool.false_eq_true, false_or, not_le] at space
    unfold getPeersList ConnectionLimits.maxPending
    exact space

variable [DecidableEq Key]

theorem Sound.perform (sound : overlay.Sound app) (rejects : app.lib.RejectsDefault)
    (running : node.isShuttingDown = false) {event : OverlayEvent Conn Key Body}
    (allowed : overlay.Allowed event) (timely : overlay.Timely event)
    (performed : overlay.perform app node event = some after) :
    after.Sound app ∧ Spares app overlay after event.about := by
  have both {result : OverlayManager Conn Secret Key Body} {conn : Conn}
      (handles : Handles app overlay result conn) (isAfter : some result = some after) :
      after.Sound app ∧ Spares app overlay after (some conn) := by
    cases isAfter
    exact ⟨handles.sound, handles.spares⟩
  cases event with
  | addInboundConnection conn mSendNonce ip =>
      exact both (sound.addInboundConnection running allowed mSendNonce ip) performed
  | addOutboundConnection conn mSendNonce mAddress =>
      exact both (sound.addOutboundConnection running allowed mSendNonce mAddress) performed
  | connectHandler conn error => exact both (sound.connectHandler allowed timely) performed
  | recvBytes conn ip decoded => exact both (sound.recvBytes rejects running performed) rfl
  | sendMessage conn msg => exact both (sound.call fun _ => Peer.sendMessage_stays msg) performed
  | drop conn => exact both (sound.call fun _ => Peer.drop_stays) performed
  | storePeerList addresses =>
      cases performed
      exact ⟨sound.storePeerList addresses, spares_of_same _ fun _ _ => rfl⟩

theorem Reached.sound {mAuth : PeerAuth Secret Key} (rejects : app.lib.RejectsDefault)
    (reached : Reached app mAuth Timely overlay) : overlay.Sound app := by
  induction reached with
  | create => exact create_sound mAuth
  | step node event _ running allowed timely performed ih =>
      exact (ih.perform rejects running allowed timely performed).1

/-! ### The lists -/

variable (app overlay) in
omit [DecidableEq Conn] [DecidableEq Key] in
structure WellListed : Prop where
  exactlyOne : ∀ conn connection, overlay.connections conn = some connection →
    connection.peer.mState ≠ .CLOSING →
      Xor (conn ∈ (overlay.getPeersList connection.peer.mRole).mPending)
        (∃ id, (overlay.getPeersList connection.peer.mRole).mAuthenticated.lookup id = some conn)
  noOther : ∀ role conn, overlay.Lists role conn → ∃ connection,
    overlay.connections conn = some connection ∧ connection.peer.mRole = role ∧
      connection.peer.mState ≠ .CLOSING
  once : ∀ role, (overlay.getPeersList role).mPending.Nodup
  distinct : ∀ conn other connection another, overlay.connections conn = some connection →
    overlay.connections other = some another → connection.peer.PassedHello →
      another.peer.PassedHello → connection.peer.mPeerID = another.peer.mPeerID → conn = other
  keyed : ∀ role id conn, (overlay.getPeersList role).mAuthenticated.lookup id = some conn →
    ∃ connection, overlay.connections conn = some connection ∧ connection.peer.mPeerID = some id
  authenticatedBound : ∀ role, (overlay.getPeersList role).authenticatedCount ≤
    app.limits.maxAuthenticated role
  pendingBound : ∀ role, (overlay.getPeersList role).mPending.length ≤ app.limits.maxPending role

omit [DecidableEq Conn] [DecidableEq Key] in
theorem Sound.wellListed (sound : overlay.Sound app) : overlay.WellListed app where
  exactlyOne := by
    intro conn connection known opened
    have stands := sound.stands conn
    rcases stands.listed connection known opened with pending | ⟨id, keyed⟩
    · exact .inl ⟨pending, fun ⟨id, keyed⟩ => stands.apart _ pending id keyed⟩
    · exact .inr ⟨⟨id, keyed⟩, fun pending => stands.apart _ pending id keyed⟩
  noOther role conn := (sound.stands conn).member role
  once role := (sound.within role).once
  distinct := by
    intro conn other connection another known knownOther passed passedOther same
    by_contra different
    have differs := ((sound.stands conn).ownKey connection known passed).2
    exact differs other another (fun isConn => different isConn.symm) knownOther passedOther same
  keyed := by
    intro role id conn keyed
    obtain ⟨connection, known, _, _, hasId⟩ := sound.authenticated keyed
    exact ⟨connection, known, hasId⟩
  authenticatedBound role := (sound.within role).authenticatedBound
  pendingBound role := (sound.within role).pendingBound

omit [DecidableEq Key] in
theorem Sound.drop (sound : overlay.Sound app) (running : node.isShuttingDown = false)
    {connection : Connection Key Body} (found : overlay.connections conn = some connection)
    (opened : connection.peer.mState ≠ .CLOSING) : Removes overlay (overlay.drop node conn) conn := by
  have going : connection.peer.shouldAbort node = false := Peer.going_of_opened opened running
  unfold OverlayManager.drop OverlayManager.call
  rw [found]
  simp only
  rw [store_of_dropped opened (Peer.drop_state going)]
  exact sound.removes found opened (proceeds_of_stays Peer.drop_stays) (Peer.drop_state going)

/-- In a run in which no connection that was dropped is reported as made, each connection that was
added and is not closing is in one list of its direction and nowhere else, no key is given by two
connections past their greetings, the lists stay within their limits, a connection that is dropped
is taken out alone, and a step changes no other connection but one that it evicts. -/
theorem reached_wellListed {mAuth : PeerAuth Secret Key} (rejects : app.lib.RejectsDefault)
    (reached : Reached app mAuth Timely overlay) :
    overlay.WellListed app ∧
      (∀ (node : NodeState Body) conn connection, node.isShuttingDown = false →
        overlay.connections conn = some connection → connection.peer.mState ≠ .CLOSING →
          Removes overlay (overlay.drop node conn) conn) ∧
      ∀ (node : NodeState Body) event after, node.isShuttingDown = false →
        overlay.Allowed event → overlay.Timely event →
          overlay.perform app node event = some after → Spares app overlay after event.about := by
  have sound := reached.sound rejects
  refine ⟨sound.wellListed, ?_, ?_⟩
  · intro node conn connection running found opened
    exact sound.drop running found opened
  · intro node event after running allowed timely performed
    exact (sound.perform rejects running allowed timely performed).2

/-! ### One connection each way -/

open Network (Code additive bigEndian quiet small twoNodes)

/-- Signatures that pass, but none under the default key. -/
def signing : Primitives UInt8 Code :=
  { additive with verifySig := fun id sig hash => id ≠ NodeID.default ∧ sig = hash.bytes }

theorem signing_rejectsDefault : signing.RejectsDefault := by
  intro sig hash
  simp [signing]

def oneEach : Application UInt8 Code Unit where
  lib := signing
  encode := bigEndian
  config := twoNodes.config false
  limits :=
    { TARGET_PEER_CONNECTIONS := 1, MAX_ADDITIONAL_PEER_CONNECTIONS := 1
      MAX_INBOUND_PENDING_CONNECTIONS := 1, MAX_OUTBOUND_PENDING_CONNECTIONS := 1
      PREFERRED_PEERS_ONLY := false, PREFERRED_PEER_KEYS := [] }

def ownAuth : PeerAuth UInt8 Code := (twoNodes.start fun _ => 0).auths false

abbrev TwoConnections := OverlayManager Bool UInt8 Code Unit

def follow (overlay : TwoConnections) (event : OverlayEvent Bool Code Unit) : TwoConnections :=
  (overlay.perform oneEach quiet event).getD overlay

theorem follow_reached {meets : TwoConnections → OverlayEvent Bool Code Unit → Prop}
    {overlay : TwoConnections} {event : OverlayEvent Bool Code Unit}
    (reached : Reached oneEach ownAuth meets overlay) (allowed : overlay.Allowed event)
    (met : meets overlay event) (performs : (overlay.perform oneEach quiet event).isSome) :
    Reached oneEach ownAuth meets (follow overlay event) := by
  obtain ⟨after, performed⟩ := Option.isSome_iff_exists.mp performs
  exact .step quiet event reached rfl allowed met (by simp [follow, performed])

def nobody : TwoConnections := OverlayManager.create oneEach ownAuth

def calling : TwoConnections :=
  follow nobody (.addOutboundConnection false (small 1) (.IPv4 "10.0.0.2" 11625))

def givenUp : TwoConnections := follow calling (.drop false)

def madeLate : TwoConnections := follow givenUp (.connectHandler false false)

/-- A connection is added and dropped, and then reported as made: it is connected and stands in no
list. -/
theorem connectHandler_after_drop :
    signing.RejectsDefault ∧ Reached oneEach ownAuth (fun _ _ => True) madeLate ∧
      (∃ connection, madeLate.connections false = some connection ∧
        connection.peer.mState = .CONNECTED) ∧
      (∀ role, ¬ madeLate.Lists role false) ∧ ¬ madeLate.WellListed oneEach := by
  have first : Reached oneEach ownAuth (fun _ _ => True) calling :=
    follow_reached .create rfl trivial rfl
  have second : Reached oneEach ownAuth (fun _ _ => True) givenUp :=
    follow_reached first trivial trivial rfl
  have third : Reached oneEach ownAuth (fun _ _ => True) madeLate :=
    follow_reached second ⟨_, rfl, rfl, rfl, .inr rfl⟩ trivial rfl
  have connected : ∃ connection, madeLate.connections false = some connection ∧
      connection.peer.mState = .CONNECTED := ⟨_, rfl, rfl⟩
  have empty (role : PeerRole) : (madeLate.getPeersList role).mPending = [] ∧
      (madeLate.getPeersList role).mAuthenticated = ∅ := by
    cases role with
    | REMOTE_CALLED_US => exact ⟨rfl, rfl⟩
    | WE_CALLED_REMOTE => exact ⟨rfl, rfl⟩
  have notListed (role : PeerRole) : ¬ madeLate.Lists role false := by
    unfold Lists
    rw [(empty role).1, (empty role).2]
    simp
  refine ⟨signing_rejectsDefault, third, connected, notListed, ?_⟩
  intro wellListed
  obtain ⟨connection, known, state⟩ := connected
  rcases wellListed.exactlyOne false connection known (by rw [state]; decide) with
    ⟨pending, _⟩ | ⟨keyed, _⟩
  · exact notListed _ (.inl pending)
  · exact notListed _ (.inr keyed)

def greeting : Hello where
  ledgerVersion := 11
  overlayVersion := 9
  overlayMinVersion := 7
  networkID := small 9
  versionStr := "v11"
  listeningPort := 11625
  peerID := small 3
  cert := { pubkey := small 4, expiration := 100, sig := (small 4).bytes }
  nonce := small 5

def visited : TwoConnections := follow nobody (.addInboundConnection true (small 2) "10.0.0.3")

def welcomed : TwoConnections :=
  follow visited (.recvBytes true "10.0.0.3"
    (some { sequence := 0, message := .HELLO greeting, mac := .zero }))

def confirmation : AuthenticatedMessage Code Unit where
  sequence := 0
  message := .AUTH 0
  mac := signing.hmacSha256
    (((welcomed.connections true).map fun connection => connection.peer.mRecvMacKey).getD .zero)
    (bigEndian 0 (.AUTH 0))

def joined : TwoConnections := follow welcomed (.recvBytes true "10.0.0.3" (some confirmation))

theorem reading_of_any {overlay : TwoConnections} {ip : String}
    {decoded : Option (AuthenticatedMessage Code Unit)}
    (reads : (overlay.connections true).any fun connection => connection.peer.reading) :
    overlay.Allowed (.recvBytes true ip decoded) := by
  cases found : overlay.connections true with
  | none => simp [found] at reads
  | some connection => exact ⟨connection, found, by simpa [found] using reads⟩

/-- The node calls another one itself, and the connection is made. -/
def called : TwoConnections :=
  follow joined (.addOutboundConnection false (small 1) (.IPv4 "10.0.0.2" 11625))

def bothWays : TwoConnections := follow called (.connectHandler false false)

theorem bothWays_reached : Reached oneEach ownAuth Timely bothWays := by
  have punctual {overlay : TwoConnections} {event : OverlayEvent Bool Code Unit}
      (other : ∀ conn, event ≠ .connectHandler conn false) : overlay.Timely event :=
    fun conn connection isMade _ => absurd isMade (other conn)
  have first : Reached oneEach ownAuth Timely visited :=
    follow_reached .create rfl (punctual (by simp)) rfl
  have second : Reached oneEach ownAuth Timely welcomed :=
    follow_reached first (reading_of_any (by decide +kernel)) (punctual (by simp))
      (by decide +kernel)
  have third : Reached oneEach ownAuth Timely joined :=
    follow_reached second (reading_of_any (by decide +kernel)) (punctual (by simp))
      (by decide +kernel)
  have fourth : Reached oneEach ownAuth Timely called :=
    follow_reached third (by change joined.connections false = none; decide +kernel)
      (punctual (by simp)) (by decide +kernel)
  have connecting : ∃ connection, called.connections false = some connection ∧
      connection.peer.mRole = .WE_CALLED_REMOTE ∧ connection.peer.reading = false ∧
      connection.peer.mState = .CONNECTING := by
    have begun : (called.connections false).any (fun connection => decide
        (connection.peer.mRole = .WE_CALLED_REMOTE ∧ connection.peer.reading = false ∧
          connection.peer.mState = .CONNECTING)) = true := by
      decide +kernel
    obtain ⟨connection, known, fresh⟩ := Option.any_eq_true _ _ |>.mp begun
    exact ⟨connection, known, of_decide_eq_true fresh⟩
  obtain ⟨connection, known, role, quietly, state⟩ := connecting
  refine follow_reached fourth ⟨connection, known, role, quietly, .inl state⟩ ?_ (by decide +kernel)
  rintro conn other isMade found
  cases isMade
  rw [known] at found
  cases found
  rw [state]
  decide

/-- One node called and gave the key of the greeting, the other one was called. -/
theorem reached_wellListed_bothWays :
    bothWays.mInboundPeers.mAuthenticated.lookup (small 3) = some true ∧
      bothWays.mOutboundPeers.mPending = [false] ∧
      bothWays.WellListed oneEach ∧
      ∀ conn, Removes bothWays (bothWays.drop quiet conn) conn := by
  obtain ⟨wellListed, drops, _⟩ := reached_wellListed signing_rejectsDefault bothWays_reached
  have listed : bothWays.mInboundPeers.mAuthenticated.lookup (small 3) = some true := by
    decide +kernel
  have pending : bothWays.mOutboundPeers.mPending = [false] := by
    decide +kernel
  refine ⟨listed, pending, wellListed, ?_⟩
  rintro (_ | _)
  · obtain ⟨connection, known, _, opened⟩ := wellListed.noOther .WE_CALLED_REMOTE false
      (.inl (by rw [getPeersList, pending]; exact List.mem_singleton_self false))
    exact drops quiet false connection rfl known opened
  · obtain ⟨connection, known, _, opened⟩ := wellListed.noOther .REMOTE_CALLED_US true
      (.inr ⟨small 3, listed⟩)
    exact drops quiet true connection rfl known opened

end OverlayManager

end ViiCore.Overlay
