import ViiCore.Overlay.PeerCalls
import ViiCore.Overlay.PeerLists

/-!
What one call does to the lists of connections.

A connection that is not dropped stands in one list of its direction: as pending under its address,
or as authenticated under the key it gave in its greeting. Greetings of two connections give
different keys, so a connection that is dropped is found where it stands and no other is removed.
-/

namespace ViiCore.Overlay

open FiniteMap (Map)

variable {Conn Secret Key Body : Type} [DecidableEq Conn]

/-! ### Removing -/

namespace PeersList

variable {before after list : PeersList Conn} {conn : Conn}

variable (before after conn) in
structure Removes : Prop where
  pending : after.mPending = before.mPending.erase conn
  authenticated : ∀ id other, after.mAuthenticated.lookup id = some other ↔
    before.mAuthenticated.lookup id = some other ∧ other ≠ conn
  maximum : after.mMaxAuthenticatedCount = before.mMaxAuthenticatedCount
  count : after.authenticatedCount ≤ before.authenticatedCount
  freed : ∀ id, before.mAuthenticated.lookup id = some conn →
    after.authenticatedCount < before.authenticatedCount

theorem Removes.of_absent {list : PeersList Conn} (unlisted : conn ∉ list.mPending)
    (unkeyed : ∀ id, list.mAuthenticated.lookup id ≠ some conn) : Removes list list conn where
  pending := (List.erase_of_not_mem unlisted).symm
  authenticated := by
    intro id other
    constructor
    · intro found
      exact ⟨found, fun same => unkeyed id (same ▸ found)⟩
    · exact And.left
  maximum := rfl
  count := Nat.le_refl _
  freed := fun id found => absurd found (unkeyed id)

/-- The key finds the connection, since it is in the list under no other key and no other one is
under its key. -/
theorem removePeer_removes {id : NodeID}
    (apart : conn ∈ list.mPending → ∀ other, list.mAuthenticated.lookup other ≠ some conn)
    (unique : ∀ other, list.mAuthenticated.lookup other = some conn → other = id)
    (own : conn ∉ list.mPending → ∀ other, list.mAuthenticated.lookup id = some other →
      other = conn) : Removes list (list.removePeer conn id) conn := by
  unfold removePeer
  split
  · rename_i listed
    have absent : Removes { list with mPending := [] } { list with mPending := [] } conn :=
      Removes.of_absent List.not_mem_nil (apart listed)
    exact ⟨rfl, absent.authenticated, rfl, Nat.le_refl _, absent.freed⟩
  rename_i unlisted
  split
  · rename_i keyed
    obtain ⟨found, isFound⟩ := Option.isSome_iff_exists.mp (AList.lookup_isSome.mpr keyed)
    have isConn : found = conn := own unlisted found isFound
    have keys : (list.mAuthenticated.erase id).keys.length + 1 =
        list.mAuthenticated.keys.length := by
      rw [AList.keys_erase]
      have member : id ∈ list.mAuthenticated.keys := AList.mem_keys.mp keyed
      have length := List.length_erase_of_mem member
      have positive := List.length_pos_of_mem member
      omega
    refine ⟨(List.erase_of_not_mem unlisted).symm, ?_, rfl, ?_, ?_⟩
    · intro key other
      by_cases same : key = id
      · subst same
        rw [AList.lookup_erase, isFound, isConn]
        simp [eq_comm]
      · rw [AList.lookup_erase_ne same]
        constructor
        · intro found
          exact ⟨found, fun isConn => same (unique key (isConn ▸ found))⟩
        · exact And.left
    · change (list.mAuthenticated.erase id).keys.length ≤ list.mAuthenticated.keys.length
      omega
    · intro key _
      change (list.mAuthenticated.erase id).keys.length < list.mAuthenticated.keys.length
      omega
  · rename_i unkeyed
    apply Removes.of_absent unlisted
    intro key found
    have same : key = id := unique key found
    exact unkeyed (AList.lookup_isSome.mp (by rw [← same, found]; rfl))

variable (list conn) in
theorem moveToAuthenticated_cases (id : NodeID) :
    list.moveToAuthenticated conn id = (list, false) ∨
      conn ∈ list.mPending ∧ list.mAuthenticated.lookup id = none ∧
        list.moveToAuthenticated conn id =
          ({ list with
              mPending := list.mPending.erase conn
              mAuthenticated := list.mAuthenticated.insert id conn }, true) := by
  unfold moveToAuthenticated
  split
  · exact .inl rfl
  rename_i listed
  split
  · exact .inl rfl
  rename_i absent
  exact .inr ⟨by simpa using listed, AList.lookup_eq_none.mpr absent, rfl⟩

variable (conn) in
omit [DecidableEq Conn] in
theorem count_insert {map : Map NodeID Conn} {id : NodeID} (absent : map.lookup id = none) :
    (map.insert id conn).keys.length = map.keys.length + 1 := by
  have missing : id ∉ map.keys := fun member =>
    AList.lookup_eq_none.mp absent (AList.mem_keys.mpr member)
  rw [AList.keys_insert, List.length_cons, List.erase_of_not_mem missing]

end PeersList

/-! ### Limits -/

def ConnectionLimits.maxAuthenticated (limits : ConnectionLimits) : PeerRole → Nat
  | .REMOTE_CALLED_US => limits.MAX_ADDITIONAL_PEER_CONNECTIONS.toNat
  | .WE_CALLED_REMOTE => limits.TARGET_PEER_CONNECTIONS.toNat

/-- With the allowance for those that may turn out to be preferred. -/
def ConnectionLimits.maxPending (limits : ConnectionLimits) : PeerRole → Nat
  | .REMOTE_CALLED_US => limits.MAX_INBOUND_PENDING_CONNECTIONS.toNat + POSSIBLY_PREFERRED_EXTRA
  | .WE_CALLED_REMOTE => limits.MAX_OUTBOUND_PENDING_CONNECTIONS.toNat

namespace PeersList

variable {before after list : PeersList Conn} {conn : Conn} {limits : ConnectionLimits}
  {role : PeerRole}

omit [DecidableEq Conn] in
/-- The list of a direction is within its limits, and nothing is pending twice. -/
structure Within (limits : ConnectionLimits) (role : PeerRole) (list : PeersList Conn) : Prop where
  once : list.mPending.Nodup
  maximum : list.mMaxAuthenticatedCount = limits.maxAuthenticated role
  pendingBound : list.mPending.length ≤ limits.maxPending role
  authenticatedBound : list.authenticatedCount ≤ limits.maxAuthenticated role

theorem Removes.within (removes : Removes before after conn) (within : Within limits role before) :
    Within limits role after where
  once := by
    rw [removes.pending]
    exact within.once.erase conn
  maximum := removes.maximum.trans within.maximum
  pendingBound := by
    rw [removes.pending]
    exact (List.length_erase_le ..).trans within.pendingBound
  authenticatedBound := removes.count.trans within.authenticatedBound

theorem Within.move (within : Within limits role list) {id : NodeID}
    (absent : list.mAuthenticated.lookup id = none)
    (room : list.authenticatedCount < limits.maxAuthenticated role) :
    Within limits role
      { list with
        mPending := list.mPending.erase conn
        mAuthenticated := list.mAuthenticated.insert id conn } where
  once := within.once.erase conn
  maximum := within.maximum
  pendingBound := (List.length_erase_le ..).trans within.pendingBound
  authenticatedBound := by
    have count := count_insert conn absent
    unfold authenticatedCount at room ⊢
    simp only
    omega

omit [DecidableEq Conn] in
theorem Within.add (within : Within limits role list) (absent : conn ∉ list.mPending)
    (space : list.mPending.length < limits.maxPending role) :
    Within limits role { list with mPending := list.mPending ++ [conn] } where
  once := by
    apply List.Nodup.append within.once (List.nodup_singleton conn)
    intro other pending isConn
    rw [List.mem_singleton.mp isConn] at pending
    exact absent pending
  maximum := within.maximum
  pendingBound := by
    rw [List.length_append, List.length_singleton]
    exact space
  authenticatedBound := within.authenticatedBound

end PeersList

/-! ### Where the connections stand -/

def Peer.PassedHello (peer : Peer Key Body) : Prop :=
  peer.mState = .GOT_HELLO ∨ peer.mState = .GOT_AUTH

theorem Peer.PassedHello.opened {peer : Peer Key Body} (passed : peer.PassedHello) :
    peer.mState ≠ .CLOSING := by
  intro closing
  rcases passed with greeted | authenticated
  · exact absurd (greeted.symm.trans closing) (by decide)
  · exact absurd (authenticated.symm.trans closing) (by decide)

theorem Connection.getPeerID_of_some {connection : Connection Key Body} {id : NodeID}
    (hasId : connection.peer.mPeerID = some id) : connection.getPeerID = id := by
  unfold Connection.getPeerID
  rw [hasId, Option.getD_some]

namespace OverlayManager

variable {app : Application Secret Key Body} {before after overlay : OverlayManager Conn Secret Key Body}
  {conn : Conn} {role : PeerRole}

variable (overlay) in
omit [DecidableEq Conn] in
def Lists (role : PeerRole) (conn : Conn) : Prop :=
  conn ∈ (overlay.getPeersList role).mPending ∨
    ∃ id, (overlay.getPeersList role).mAuthenticated.lookup id = some conn

variable (overlay conn) in
omit [DecidableEq Conn] in
def HasOwnKey (peer : Peer Key Body) : Prop :=
  peer.PassedHello → (∃ id, peer.mPeerID = some id ∧ id ≠ NodeID.default) ∧
    ∀ other another, other ≠ conn → overlay.connections other = some another →
      another.peer.PassedHello → peer.mPeerID ≠ another.peer.mPeerID

variable (overlay conn) in
omit [DecidableEq Conn] in
/-- A connection stands in one list of its direction unless it is dropped. -/
structure Stands : Prop where
  apart : ∀ role, conn ∈ (overlay.getPeersList role).mPending →
    ∀ id, (overlay.getPeersList role).mAuthenticated.lookup id ≠ some conn
  member : ∀ role, overlay.Lists role conn → ∃ connection,
    overlay.connections conn = some connection ∧ connection.peer.mRole = role ∧
      connection.peer.mState ≠ .CLOSING
  listed : ∀ connection, overlay.connections conn = some connection →
    connection.peer.mState ≠ .CLOSING → overlay.Lists connection.peer.mRole conn
  keyed : ∀ role id connection, (overlay.getPeersList role).mAuthenticated.lookup id = some conn →
    overlay.connections conn = some connection →
      connection.peer.mState = .GOT_AUTH ∧ connection.peer.mPeerID = some id
  ownKey : ∀ connection, overlay.connections conn = some connection →
    overlay.HasOwnKey conn connection.peer

variable (app overlay) in
omit [DecidableEq Conn] in
structure Sound : Prop where
  within : ∀ role, PeersList.Within app.limits role (overlay.getPeersList role)
  stands : ∀ conn, overlay.Stands conn

variable (before after conn) in
omit [DecidableEq Conn] in
/-- Nothing is changed but what is known of one connection and where it stands. -/
structure Changes : Prop where
  connections : ∀ other, other ≠ conn → after.connections other = before.connections other
  pending : ∀ role other, other ≠ conn →
    (other ∈ (after.getPeersList role).mPending ↔ other ∈ (before.getPeersList role).mPending)
  authenticated : ∀ role id other, other ≠ conn →
    ((after.getPeersList role).mAuthenticated.lookup id = some other ↔
      (before.getPeersList role).mAuthenticated.lookup id = some other)

variable (before after conn) in
structure Removes : Prop where
  lists : ∀ role, PeersList.Removes (before.getPeersList role) (after.getPeersList role) conn
  connections : ∀ other, other ≠ conn → after.connections other = before.connections other
  closing : ∃ connection, after.connections conn = some connection ∧
    connection.peer.mState = .CLOSING

omit [DecidableEq Conn] in
@[simp] theorem getPeersList_setPeersList (list : PeersList Conn) (other : PeerRole) :
    (overlay.setPeersList role list).getPeersList other =
      if other = role then list else overlay.getPeersList other := by
  cases role <;> cases other <;> rfl

omit [DecidableEq Conn] in
@[simp] theorem connections_setPeersList (list : PeersList Conn) :
    (overlay.setPeersList role list).connections = overlay.connections := by
  cases role <;> rfl

@[simp] theorem getPeersList_setConnection (connection : Connection Key Body) :
    (overlay.setConnection conn connection).getPeersList role = overlay.getPeersList role := by
  cases role <;> rfl

@[simp] theorem connections_setConnection (connection : Connection Key Body) :
    (overlay.setConnection conn connection).connections conn = some connection :=
  Function.update_self ..

theorem connections_setConnection_ne {other : Conn} (different : other ≠ conn)
    (connection : Connection Key Body) :
    (overlay.setConnection conn connection).connections other = overlay.connections other :=
  Function.update_of_ne different ..

@[simp] theorem connections_removePeer (connection : Connection Key Body) :
    (overlay.removePeer conn connection).connections = overlay.connections :=
  connections_setPeersList _

/-! ### One connection at a time -/

section

omit [DecidableEq Conn]

theorem Changes.lists_iff (changes : Changes before after conn) {other : Conn}
    (different : other ≠ conn) (role : PeerRole) :
    after.Lists role other ↔ before.Lists role other := by
  unfold Lists
  rw [changes.pending role other different]
  simp only [changes.authenticated role _ other different]

/-- The other connections stand where they stood, and their keys differ from that of the connection
that changed since its key differs from theirs. -/
theorem Changes.stands (changes : Changes before after conn) (stood : ∀ other, before.Stands other)
    (stands : after.Stands conn) (other : Conn) : after.Stands other := by
  by_cases isConn : other = conn
  · rw [isConn]
    exact stands
  have same := changes.connections other isConn
  constructor
  case apart =>
    intro role pending id found
    exact (stood other).apart role ((changes.pending role other isConn).mp pending) id
      ((changes.authenticated role id other isConn).mp found)
  case member =>
    intro role listed
    rw [same]
    exact (stood other).member role ((changes.lists_iff isConn role).mp listed)
  case listed =>
    intro connection known opened
    rw [same] at known
    exact (changes.lists_iff isConn _).mpr ((stood other).listed connection known opened)
  case keyed =>
    intro role id connection found known
    rw [same] at known
    exact (stood other).keyed role id connection
      ((changes.authenticated role id other isConn).mp found) known
  case ownKey =>
    intro connection known passed
    have wasKnown := known
    rw [same] at wasKnown
    obtain ⟨identified, differs⟩ := (stood other).ownKey connection wasKnown passed
    refine ⟨identified, ?_⟩
    intro third another different knownThird passedThird
    by_cases isThird : third = conn
    · subst isThird
      exact ((stands.ownKey another knownThird passedThird).2 other connection isConn known
        passed).symm
    · rw [changes.connections third isThird] at knownThird
      exact differs third another different knownThird passedThird

theorem Sound.change (sound : before.Sound app) (changes : Changes before after conn)
    (within : ∀ role, PeersList.Within app.limits role (after.getPeersList role))
    (stands : after.Stands conn) : after.Sound app :=
  ⟨within, changes.stands sound.stands stands⟩

theorem Sound.congr (sound : before.Sound app)
    (lists : ∀ role, after.getPeersList role = before.getPeersList role)
    (connections : after.connections = before.connections) : after.Sound app where
  within role := by
    rw [lists]
    exact sound.within role
  stands conn := by
    have stands := sound.stands conn
    constructor
    case apart => simpa only [lists] using stands.apart
    case member => simpa only [Lists, lists, connections] using stands.member
    case listed => simpa only [Lists, lists, connections] using stands.listed
    case keyed => simpa only [lists, connections] using stands.keyed
    case ownKey => simpa only [HasOwnKey, connections] using stands.ownKey

theorem Sound.withAuth (sound : overlay.Sound app) (mAuth : PeerAuth Secret Key) :
    Sound app { overlay with mAuth } :=
  sound.congr (fun role => by cases role <;> rfl) rfl

theorem Sound.authenticated (sound : overlay.Sound app) {id : NodeID}
    (found : (overlay.getPeersList role).mAuthenticated.lookup id = some conn) :
    ∃ connection, overlay.connections conn = some connection ∧ connection.peer.mRole = role ∧
      connection.peer.mState = .GOT_AUTH ∧ connection.peer.mPeerID = some id := by
  obtain ⟨connection, known, direction, _⟩ := (sound.stands conn).member role (.inr ⟨id, found⟩)
  exact ⟨connection, known, direction, (sound.stands conn).keyed role id connection found known⟩

end

/-! ### Dropping -/

theorem removePeer_removes (sound : overlay.Sound app) {dropped : Connection Key Body}
    (closing : dropped.peer.mState = .CLOSING)
    (direction : ∀ role, overlay.Lists role conn → role = dropped.peer.mRole)
    (unique : ∀ id, (overlay.getPeersList dropped.peer.mRole).mAuthenticated.lookup id = some conn →
      id = dropped.getPeerID)
    (own : conn ∉ (overlay.getPeersList dropped.peer.mRole).mPending →
      ∀ other, (overlay.getPeersList dropped.peer.mRole).mAuthenticated.lookup dropped.getPeerID =
        some other → other = conn) :
    Removes overlay ((overlay.setConnection conn dropped).removePeer conn dropped) conn where
  lists := by
    intro role
    unfold removePeer
    simp only [getPeersList_setPeersList, getPeersList_setConnection]
    by_cases same : role = dropped.peer.mRole
    · rw [if_pos same, same]
      exact PeersList.removePeer_removes ((sound.stands conn).apart _) unique own
    · rw [if_neg same]
      apply PeersList.Removes.of_absent
      · exact fun listed => same (direction role (.inl listed))
      · exact fun id found => same (direction role (.inr ⟨id, found⟩))
  connections := by
    intro other different
    rw [connections_removePeer]
    exact connections_setConnection_ne different dropped
  closing := ⟨dropped, by simp, closing⟩

namespace Removes

variable (removes : Removes before after conn)
include removes

theorem mem_pending (sound : before.Sound app) (role : PeerRole) (other : Conn) :
    other ∈ (after.getPeersList role).mPending ↔
      other ≠ conn ∧ other ∈ (before.getPeersList role).mPending := by
  rw [(removes.lists role).pending]
  exact (sound.within role).once.mem_erase_iff

theorem not_lists (sound : before.Sound app) (role : PeerRole) : ¬ after.Lists role conn := by
  rintro (pending | ⟨id, found⟩)
  · exact ((removes.mem_pending sound role conn).mp pending).1 rfl
  · exact (((removes.lists role).authenticated id conn).mp found).2 rfl

theorem changes (sound : before.Sound app) : Changes before after conn where
  connections := removes.connections
  pending := by
    intro role other different
    rw [removes.mem_pending sound]
    exact and_iff_right different
  authenticated := by
    intro role id other different
    rw [(removes.lists role).authenticated]
    exact and_iff_left different

theorem sound (sound : before.Sound app) : after.Sound app := by
  obtain ⟨dropped, isDropped, closing⟩ := removes.closing
  have isClosing {connection : Connection Key Body}
      (known : after.connections conn = some connection) : connection.peer.mState = .CLOSING := by
    rw [isDropped, Option.some.injEq] at known
    rw [← known]
    exact closing
  apply sound.change (removes.changes sound)
  · exact fun role => (removes.lists role).within (sound.within role)
  constructor
  case apart => exact fun role pending => absurd (.inl pending) (removes.not_lists sound role)
  case member => exact fun role listed => absurd listed (removes.not_lists sound role)
  case listed => exact fun connection known opened => absurd (isClosing known) opened
  case keyed =>
    exact fun role id _ found => absurd (.inr ⟨id, found⟩) (removes.not_lists sound role)
  case ownKey => exact fun connection known passed => absurd (isClosing known) passed.opened

end Removes

/-! ### A call on a connection -/

/-- What a call may do to the peer of a connection: a peer that was dropped stays so. -/
structure Proceeds (before after : Peer Key Body) : Prop where
  role : after.mRole = before.mRole
  authenticated : before.mState = .GOT_AUTH →
    after.mPeerID = before.mPeerID ∧ (after.mState = .GOT_AUTH ∨ after.mState = .CLOSING)
  closed : before.mState = .CLOSING → after.mState = .CLOSING

omit [DecidableEq Conn] in
theorem Sound.hasOwnKey (sound : overlay.Sound app) {connection : Connection Key Body}
    (found : overlay.connections conn = some connection) {peer : Peer Key Body}
    (id : peer.mPeerID = connection.peer.mPeerID)
    (passed : peer.PassedHello → connection.peer.PassedHello) : overlay.HasOwnKey conn peer := by
  intro passedHello
  rw [id]
  exact (sound.stands conn).ownKey connection found (passed passedHello)

theorem setConnection_changes (connection : Connection Key Body) :
    Changes overlay (overlay.setConnection conn connection) conn where
  connections other different := connections_setConnection_ne different connection
  pending role other _ := by rw [getPeersList_setConnection]
  authenticated role id other _ := by rw [getPeersList_setConnection]

omit [DecidableEq Conn] in
theorem HasOwnKey.of_changes {peer : Peer Key Body} (ownKey : before.HasOwnKey conn peer)
    (changes : Changes before after conn) : after.HasOwnKey conn peer := by
  intro passed
  obtain ⟨identified, differs⟩ := ownKey passed
  refine ⟨identified, ?_⟩
  intro other another different known
  rw [changes.connections other different] at known
  exact differs other another different known

theorem Sound.setConnection (sound : overlay.Sound app) {connection changed : Connection Key Body}
    (found : overlay.connections conn = some connection)
    (proceeds : Proceeds connection.peer changed.peer)
    (ownKey : overlay.HasOwnKey conn changed.peer)
    (opened : changed.peer.mState = .CLOSING → connection.peer.mState = .CLOSING) :
    (overlay.setConnection conn changed).Sound app := by
  have stood := sound.stands conn
  have changes : Changes overlay (overlay.setConnection conn changed) conn :=
    setConnection_changes changed
  have isChanged {record : Connection Key Body}
      (known : (overlay.setConnection conn changed).connections conn = some record) :
      changed = record := by
    rw [connections_setConnection, Option.some.injEq] at known
    exact known
  have lists (role : PeerRole) :
      (overlay.setConnection conn changed).Lists role conn ↔ overlay.Lists role conn := by
    unfold Lists
    rw [getPeersList_setConnection]
  apply sound.change changes
  · intro role
    rw [getPeersList_setConnection]
    exact sound.within role
  constructor
  case apart => simpa only [getPeersList_setConnection] using stood.apart
  case member =>
    intro role listed
    obtain ⟨record, known, direction, wasOpened⟩ := stood.member role ((lists role).mp listed)
    rw [found, Option.some.injEq] at known
    subst known
    exact ⟨changed, connections_setConnection changed, proceeds.role.trans direction,
      fun closing => wasOpened (opened closing)⟩
  case listed =>
    intro record known isOpened
    rw [lists, ← isChanged known, proceeds.role]
    rw [← isChanged known] at isOpened
    exact stood.listed connection found fun closing => isOpened (proceeds.closed closing)
  case keyed =>
    intro role id record keyed known
    rw [getPeersList_setConnection] at keyed
    rw [← isChanged known]
    obtain ⟨state, hasId⟩ := stood.keyed role id connection keyed found
    obtain ⟨sameId, stays | closing⟩ := proceeds.authenticated state
    · exact ⟨stays, sameId.trans hasId⟩
    · exact absurd (state.symm.trans (opened closing)) (by decide)
  case ownKey =>
    intro record known
    rw [← isChanged known]
    exact ownKey.of_changes changes

theorem Sound.removes (sound : overlay.Sound app) {connection dropped : Connection Key Body}
    (found : overlay.connections conn = some connection)
    (opened : connection.peer.mState ≠ .CLOSING)
    (proceeds : Proceeds connection.peer dropped.peer)
    (closing : dropped.peer.mState = .CLOSING) :
    Removes overlay ((overlay.setConnection conn dropped).removePeer conn dropped) conn := by
  have stood := sound.stands conn
  have keyed {id : NodeID}
      (keyed : (overlay.getPeersList dropped.peer.mRole).mAuthenticated.lookup id = some conn) :
      id = dropped.getPeerID := by
    obtain ⟨state, hasId⟩ := stood.keyed _ id connection keyed found
    have sameId := (proceeds.authenticated state).1
    exact (Connection.getPeerID_of_some (sameId.trans hasId)).symm
  apply removePeer_removes sound closing
  · intro role listed
    obtain ⟨record, known, direction, _⟩ := stood.member role listed
    rw [found, Option.some.injEq] at known
    rw [proceeds.role, known, direction]
  · exact fun id => keyed
  · intro notPending other isOther
    have listed := stood.listed connection found opened
    rw [← proceeds.role] at listed
    rcases listed with pending | ⟨id, isKeyed⟩
    · exact absurd pending notPending
    · rw [← keyed isKeyed, isKeyed, Option.some.injEq] at isOther
      exact isOther.symm

theorem store_of_dropped {connection dropped : Connection Key Body}
    (opened : connection.peer.mState ≠ .CLOSING) (closing : dropped.peer.mState = .CLOSING) :
    overlay.store conn connection dropped =
      (overlay.setConnection conn dropped).removePeer conn dropped := by
  unfold store
  exact if_pos ⟨opened, closing⟩

theorem store_of_kept {connection changed : Connection Key Body}
    (kept : changed.peer.mState = .CLOSING → connection.peer.mState = .CLOSING) :
    overlay.store conn connection changed = overlay.setConnection conn changed := by
  unfold store
  exact if_neg fun dropped => dropped.1 (kept dropped.2)

@[simp] theorem connections_store {connection changed : Connection Key Body} :
    (overlay.store conn connection changed).connections =
      (overlay.setConnection conn changed).connections := by
  unfold store
  simp only
  split
  · exact connections_removePeer changed
  · rfl

theorem Sound.store (sound : overlay.Sound app) {connection changed : Connection Key Body}
    (found : overlay.connections conn = some connection)
    (proceeds : Proceeds connection.peer changed.peer)
    (ownKey : overlay.HasOwnKey conn changed.peer) :
    (overlay.store conn connection changed).Sound app := by
  by_cases dropped : connection.peer.mState ≠ .CLOSING ∧ changed.peer.mState = .CLOSING
  · rw [store_of_dropped dropped.1 dropped.2]
    exact (sound.removes found dropped.1 proceeds dropped.2).sound sound
  · have kept : changed.peer.mState = .CLOSING → connection.peer.mState = .CLOSING := by
      intro closing
      by_contra opened
      exact dropped ⟨opened, closing⟩
    rw [store_of_kept kept]
    exact sound.setConnection found proceeds ownKey kept

theorem proceeds_of_stays {peer changed : Peer Key Body} (stays : Peer.Stays peer changed) :
    Proceeds peer changed where
  role := stays.role
  authenticated := by
    intro state
    rcases stays.state with same | closing
    · exact ⟨stays.id, .inl (same.trans state)⟩
    · exact ⟨stays.id, .inr closing⟩
  closed := by
    intro closed
    rcases stays.state with same | closing
    · exact same.trans closed
    · exact closing

theorem passedHello_of_stays {peer changed : Peer Key Body} (stays : Peer.Stays peer changed)
    (passed : changed.PassedHello) : peer.PassedHello := by
  rcases stays.state with same | closing
  · unfold Peer.PassedHello at passed
    rwa [same] at passed
  · exact absurd closing passed.opened

theorem Sound.storeStays (sound : overlay.Sound app) {connection changed : Connection Key Body}
    (found : overlay.connections conn = some connection)
    (stays : Peer.Stays connection.peer changed.peer) :
    (overlay.store conn connection changed).Sound app :=
  sound.store found (proceeds_of_stays stays)
    (sound.hasOwnKey found stays.id (passedHello_of_stays stays))

/-! ### Accepting -/

omit [DecidableEq Conn] in
theorem setPeersList_same : overlay.setPeersList role (overlay.getPeersList role) = overlay := by
  cases role <;> rfl

theorem Sound.moveToAuthenticated (sound : overlay.Sound app) {connection : Connection Key Body}
    (found : overlay.connections conn = some connection)
    (state : connection.peer.mState = .GOT_AUTH)
    (room : (overlay.getPeersList connection.peer.mRole).authenticatedCount <
      app.limits.maxAuthenticated connection.peer.mRole) :
    (overlay.moveToAuthenticated conn connection).1.Sound app := by
  have stood := sound.stands conn
  obtain ⟨id, hasId, _⟩ := (stood.ownKey connection found (.inr state)).1
  have isId : connection.getPeerID = id := Connection.getPeerID_of_some hasId
  unfold OverlayManager.moveToAuthenticated
  simp only
  generalize isRole : connection.peer.mRole = role at room ⊢
  rw [isId]
  rcases PeersList.moveToAuthenticated_cases (overlay.getPeersList role) conn id
    with refused | ⟨wasPending, absent, moved⟩
  · rw [refused, setPeersList_same]
    exact sound
  rw [moved]
  generalize isAfter : overlay.setPeersList role _ = after
  have getPeersList_after (other : PeerRole) : after.getPeersList other =
      if other = role then
        { overlay.getPeersList role with
          mPending := (overlay.getPeersList role).mPending.erase conn
          mAuthenticated := (overlay.getPeersList role).mAuthenticated.insert id conn }
      else overlay.getPeersList other := by
    rw [← isAfter, getPeersList_setPeersList]
  have connections_after : after.connections = overlay.connections := by
    rw [← isAfter, connections_setPeersList]
  have pending_after (other : PeerRole) (peer : Conn) :
      peer ∈ (after.getPeersList other).mPending ↔
        peer ∈ (overlay.getPeersList other).mPending ∧ ¬ (other = role ∧ peer = conn) := by
    rw [getPeersList_after]
    split
    · rename_i same
      subst same
      rw [(sound.within other).once.mem_erase_iff]
      simp [and_comm]
    · rename_i different
      simp [different]
  have lookup_after (other : PeerRole) (key : NodeID) (peer : Conn) :
      (after.getPeersList other).mAuthenticated.lookup key = some peer ↔
        other = role ∧ key = id ∧ peer = conn ∨
          (overlay.getPeersList other).mAuthenticated.lookup key = some peer := by
    rw [getPeersList_after]
    split
    · rename_i same
      subst same
      by_cases sameKey : key = id
      · subst sameKey
        rw [AList.lookup_insert, absent]
        simp [eq_comm]
      · rw [AList.lookup_insert_ne sameKey]
        simp [sameKey]
    · rename_i different
      simp [different]
  -- It was pending in the list of its direction and stands in the same list now.
  have lists_after (other : PeerRole) : after.Lists other conn ↔ overlay.Lists other conn := by
    unfold Lists
    simp only [pending_after, lookup_after]
    by_cases sameRole : other = role
    · subst sameRole
      simp [wasPending]
    · simp [sameRole]
  have changes : Changes overlay after conn := by
    refine ⟨fun other _ => by rw [connections_after], ?_, ?_⟩
    · intro other peer different
      rw [pending_after]
      exact and_iff_left fun same => different same.2
    · intro other key peer different
      rw [lookup_after]
      exact or_iff_right fun same => different same.2.2
  apply sound.change changes
  · intro other
    rw [getPeersList_after]
    split
    · rename_i same
      rw [same]
      exact (sound.within role).move absent room
    · exact sound.within other
  constructor
  case apart =>
    intro other pending key keyed
    obtain ⟨wasPending, notMoved⟩ := (pending_after other conn).mp pending
    rcases (lookup_after other key conn).mp keyed with ⟨sameRole, _, same⟩ | wasKeyed
    · exact notMoved ⟨sameRole, same⟩
    · exact stood.apart other wasPending key wasKeyed
  case member =>
    intro other listed
    rw [connections_after]
    exact stood.member other ((lists_after other).mp listed)
  case listed =>
    intro record known opened
    rw [connections_after] at known
    exact (lists_after _).mpr (stood.listed record known opened)
  case keyed =>
    intro other key record keyed known
    rw [connections_after] at known
    rcases (lookup_after other key conn).mp keyed with ⟨_, sameKey, _⟩ | wasKeyed
    · rw [found, Option.some.injEq] at known
      rw [← known, sameKey]
      exact ⟨state, hasId⟩
    · exact stood.keyed other key record wasKeyed known
  case ownKey =>
    intro record known
    rw [connections_after] at known
    exact (stood.ownKey record known).of_changes changes

end OverlayManager

end ViiCore.Overlay
