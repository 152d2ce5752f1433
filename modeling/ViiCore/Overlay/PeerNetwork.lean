import Mathlib.Logic.Function.Basic
import ViiCore.Overlay.PeerSession

/-!
Nodes, their connections and a network that delivers what it likes.

Any bytes may come in at any connection at any time. Of the messages with an authentication code
that passes under the key of a session between two nodes the network only has those that one of
them wrote. What one side handles is what the other side sent, in its order and from its beginning.
-/

namespace ViiCore.Overlay

variable {Conn Node Secret Key Body : Type}

/-- What is fixed: a connection is one end of it, at a node. -/
structure Network (Conn Node Secret Key Body : Type) where
  lib : Primitives Secret Key
  encode : Encoding Body
  nodeOf : Conn → Node
  role : Conn → PeerRole
  nonce : Conn → Uint256
  config : Node → Config
  secret : Node → Secret

structure NetworkState (Conn Node Secret Key Body : Type) where
  auths : Node → PeerAuth Secret Key
  peers : Conn → Peer Key Body

inductive Event (Conn Key Body : Type) where
  | connectHandler (conn : Conn) (node : NodeState Body) (error : Bool)
  | recvBytes (conn : Conn) (node : NodeState Body)
      (decoded : Option (AuthenticatedMessage Key Body))
  | sendMessage (conn : Conn) (msg : VIIMessage Body)
  | sendErrorAndDrop (conn : Conn) (node : NodeState Body) (error : ErrorCode) (message : String)
  | drop (conn : Conn) (node : NodeState Body)

namespace Network

variable [DecidableEq Conn] [DecidableEq Node] [DecidableEq Key]
  (net : Network Conn Node Secret Key Body) (state : NetworkState Conn Node Secret Key Body)

omit [DecidableEq Conn] [DecidableEq Node] [DecidableEq Key] in
/-- A node draws its key and makes its first certificate when it starts. -/
def start (timeNow : Node → UInt64) : NetworkState Conn Node Secret Key Body where
  auths node :=
    { mECDHSecretKey := net.secret node
      mCert := makeAuthCert net.lib (net.config node).sign (net.config node).networkID (timeNow node)
        (net.lib.EcdhDerivePublic (net.secret node))
      mSharedKeyCache := LruCache.empty 0xffff }
  peers conn := Peer.create net.lib (net.role conn) (net.nonce conn)

omit [DecidableEq Key] in
def set (conn : Conn) (result : PeerAuth Secret Key × Peer Key Body) :
    NetworkState Conn Node Secret Key Body where
  auths := Function.update state.auths (net.nodeOf conn) result.1
  peers := Function.update state.peers conn result.2

/-- Nothing follows where the code throws. -/
def perform : Event Conn Key Body → Option (NetworkState Conn Node Secret Key Body)
  | .connectHandler conn node error =>
      some (net.set state conn ((state.peers conn).connectHandler net.lib net.encode
        (net.config (net.nodeOf conn)) node (state.auths (net.nodeOf conn)) error))
  | .recvBytes conn node decoded =>
      ((state.peers conn).recvBytes net.lib net.encode (net.config (net.nodeOf conn)) node
        (state.auths (net.nodeOf conn)) decoded).map (net.set state conn)
  | .sendMessage conn msg =>
      some (net.set state conn
        (state.auths (net.nodeOf conn), (state.peers conn).sendMessage net.lib net.encode msg))
  | .sendErrorAndDrop conn node error message =>
      some (net.set state conn (state.auths (net.nodeOf conn),
        (state.peers conn).sendErrorAndDrop net.lib net.encode node error message))
  | .drop conn node =>
      some (net.set state conn (state.auths (net.nodeOf conn), (state.peers conn).drop node))

/-! ### What the network may do -/

def Honest (peer : Peer Key Body) : Prop :=
  ∃ node, peer.remotePublic = some (net.lib.EcdhDerivePublic (net.secret node))

/-- A code that passes under the key of a session between two nodes was written by one of them. -/
def Unforged (peer : Peer Key Body) (msg : AuthenticatedMessage Key Body) : Prop :=
  net.Honest peer →
    msg.mac = net.lib.hmacSha256 peer.mRecvMacKey (net.encode msg.sequence msg.message) →
      ∃ other, (peer.mRecvMacKey, msg.sequence, msg.message) ∈ (state.peers other).sealed

/-- A connection is made once and read from then on; the rest of a node sends only to peers that
are authenticated. -/
def Allowed : Event Conn Key Body → Prop
  | .connectHandler conn _ _ =>
      (state.peers conn).reading = false ∧
        ((state.peers conn).mState = .CONNECTING ∨ (state.peers conn).mState = .CLOSING)
  | .recvBytes conn _ decoded =>
      (state.peers conn).reading ∧
        ∀ msg, decoded = some msg → net.Unforged state (state.peers conn) msg
  | .sendMessage conn _ => (state.peers conn).isAuthenticated
  | .sendErrorAndDrop _ _ _ _ => True
  | .drop _ _ => True

inductive Reachable : NetworkState Conn Node Secret Key Body → Prop
  | start (timeNow : Node → UInt64) : Reachable (net.start timeNow)
  | step {state after : NetworkState Conn Node Secret Key Body} (event : Event Conn Key Body)
      (reached : Reachable state) (allowed : net.Allowed state event)
      (performed : net.perform state event = some after) : Reachable after

structure OtherSide (conn other : Conn) : Prop where
  role : net.role other = (net.role conn).other
  ours : (state.peers other).remotePublic =
    some (net.lib.EcdhDerivePublic (net.secret (net.nodeOf conn)))
  theirs : (state.peers conn).remotePublic =
    some (net.lib.EcdhDerivePublic (net.secret (net.nodeOf other)))
  ourNonce : (state.peers other).mRecvNonce = some (net.nonce conn)
  theirNonce : (state.peers conn).mRecvNonce = some (net.nonce other)

def inputs (conn : Conn) : List KeyInput :=
  match (state.peers conn).remotePublic, (state.peers conn).mRecvNonce with
  | some remote, some nonce =>
      let secret := net.secret (net.nodeOf conn)
      (sendingInput net.lib secret remote (net.nonce conn) nonce (net.role conn)).toList ++
        (receivingInput net.lib secret remote (net.nonce conn) nonce (net.role conn)).toList
  | _, _ => []

/-- Keys of sessions that are the same are keys of one session and direction. -/
def KeysDiffer : Prop :=
  ∀ conn other, ∀ x ∈ net.inputs state conn, ∀ y ∈ net.inputs state other,
    net.lib.sessionKey x = net.lib.sessionKey y → x = y

/-! ### Steps -/

variable {net state} {after : NetworkState Conn Node Secret Key Body}

variable (net state) in
structure Sound : Prop where
  peers : ∀ conn, (state.peers conn).Sound net.lib (net.secret (net.nodeOf conn))
  roles : ∀ conn, (state.peers conn).mRole = net.role conn
  nonces : ∀ conn, (state.peers conn).mSendNonce = net.nonce conn
  caches : ∀ node, (state.auths node).CacheSound net.lib
  secrets : ∀ node, (state.auths node).mECDHSecretKey = net.secret node

variable (net state after) in
structure Effect (conn : Conn) : Prop where
  others : ∀ other, other ≠ conn → after.peers other = state.peers other
  keeps : Peer.Keeps (state.peers conn) (after.peers conn)
  handled : (after.peers conn).handled = (state.peers conn).handled ∧
      (after.peers conn).reachedAuth = (state.peers conn).reachedAuth ∨
    ∃ msg : AuthenticatedMessage Key Body, net.Unforged state (state.peers conn) msg ∧
      (state.peers conn).remotePublic ≠ none ∧ (state.peers conn).mState ≠ .CLOSING ∧
      msg.sequence = (state.peers conn).mRecvMacSeq ∧
      msg.mac = net.lib.hmacSha256 (state.peers conn).mRecvMacKey
        (net.encode msg.sequence msg.message) ∧
      ((after.peers conn).handled = (state.peers conn).handled ∨
        (after.peers conn).handled = (state.peers conn).handled ++ [msg.message]) ∧
      ((after.peers conn).reachedAuth → (state.peers conn).reachedAuth ∨ msg.message.isAuth)

section

omit [DecidableEq Key]

theorem set_sound (sound : net.Sound state) {conn : Conn}
    {result : PeerAuth Secret Key × Peer Key Body}
    (peer : result.2.Sound net.lib (net.secret (net.nodeOf conn)))
    (keeps : Peer.Keeps (state.peers conn) result.2) (cache : result.1.CacheSound net.lib)
    (secret : result.1.mECDHSecretKey = net.secret (net.nodeOf conn)) :
    net.Sound (net.set state conn result) := by
  refine ⟨?_, ?_, ?_, ?_, ?_⟩
  · intro other
    by_cases same : other = conn
    · subst same
      simpa [set] using peer
    · simpa [set, same] using sound.peers other
  · intro other
    by_cases same : other = conn
    · subst same
      simpa [set] using keeps.role.trans (sound.roles other)
    · simpa [set, same] using sound.roles other
  · intro other
    by_cases same : other = conn
    · subst same
      simpa [set] using keeps.sendNonce.trans (sound.nonces other)
    · simpa [set, same] using sound.nonces other
  · intro node
    by_cases same : node = net.nodeOf conn
    · subst same
      simpa [set] using cache
    · simpa [set, same] using sound.caches node
  · intro node
    by_cases same : node = net.nodeOf conn
    · subst same
      simpa [set] using secret
    · simpa [set, same] using sound.secrets node

theorem set_effect {conn : Conn} {result : PeerAuth Secret Key × Peer Key Body}
    (keeps : Peer.Keeps (state.peers conn) result.2)
    (handled : result.2.handled = (state.peers conn).handled)
    (reached : result.2.reachedAuth = (state.peers conn).reachedAuth) :
    net.Effect state (net.set state conn result) conn := by
  refine ⟨?_, ?_, .inl ⟨?_, ?_⟩⟩
  · intro other different
    simp [set, different]
  · simpa [set] using keeps
  · simpa [set] using handled
  · simpa [set] using reached

theorem talks_step (sound : net.Sound state) {conn : Conn} {peer : Peer Key Body}
    (talks : Peer.Talks (state.peers conn) peer) :
    net.Sound (net.set state conn (state.auths (net.nodeOf conn), peer)) ∧
      net.Effect state (net.set state conn (state.auths (net.nodeOf conn), peer)) conn := by
  constructor
  · exact set_sound sound (talks.sound (sound.peers conn)) talks.keeps (sound.caches _)
      (sound.secrets _)
  · exact set_effect talks.keeps (talks.field Peer.handled fun _ _ _ _ _ => rfl)
      (talks.field Peer.reachedAuth fun _ _ _ _ _ => rfl)

end

theorem recvBytes_step (sound : net.Sound state) {conn : Conn} {node : NodeState Body}
    {decoded : Option (AuthenticatedMessage Key Body)}
    (allowed : net.Allowed state (.recvBytes conn node decoded))
    (performed : net.perform state (.recvBytes conn node decoded) = some after) :
    net.Sound after ∧ net.Effect state after conn := by
  obtain ⟨reading, unforged⟩ := allowed
  obtain ⟨⟨auth, peer⟩, did, rfl⟩ := Option.map_eq_some_iff.mp performed
  have peerSound := sound.peers conn
  rw [← sound.secrets] at peerSound
  obtain ⟨received, cache, secret⟩ := Peer.recvBytes_received (sound.caches _) peerSound did
  have keeps := received.keeps
  constructor
  · apply set_sound sound _ keeps cache (secret.trans (sound.secrets _))
    rw [← sound.secrets]
    exact received.sound peerSound reading
  · cases received with
    | talks talks =>
        exact set_effect keeps (talks.field Peer.handled fun _ _ _ _ _ => rfl)
          (talks.field Peer.reachedAuth fun _ _ _ _ _ => rfl)
    | greets greets talks =>
        exact set_effect keeps
          ((talks.field Peer.handled fun _ _ _ _ _ => rfl).trans greets.handled)
          ((talks.field Peer.reachedAuth fun _ _ _ _ _ => rfl).trans greets.reachedAuth)
    | handles msg given greeted opened number code sealing authenticated talks =>
        refine ⟨?_, ?_, .inr ⟨msg, unforged msg given, greeted, opened, number, code, ?_, ?_⟩⟩
        · intro other different
          simp [set, different]
        · simpa [set] using keeps
        · simpa [set] using Peer.handling_handled talks
        · simpa [set] using Peer.handling_reached talks

theorem perform_step (sound : net.Sound state) {event : Event Conn Key Body}
    (allowed : net.Allowed state event) (performed : net.perform state event = some after) :
    net.Sound after ∧ ∃ conn, net.Effect state after conn := by
  cases event with
  | connectHandler conn node error =>
      cases performed
      obtain ⟨peer, keeps, handled, reached⟩ :=
        Peer.connectHandler_spec (sound.peers conn) allowed.1 rfl
      obtain ⟨cache, secret⟩ := Peer.connectHandler_after (sound.caches (net.nodeOf conn)) error
      exact ⟨set_sound sound peer keeps cache (secret.trans (sound.secrets _)), conn,
        set_effect keeps handled reached⟩
  | recvBytes conn node decoded =>
      obtain ⟨afterSound, effect⟩ := recvBytes_step sound allowed performed
      exact ⟨afterSound, conn, effect⟩
  | sendMessage conn msg =>
      cases performed
      have shaken : (state.peers conn).mState = .GOT_AUTH := of_decide_eq_true allowed
      obtain ⟨afterSound, effect⟩ :=
        talks_step sound (Peer.sendMessage_talks ((sound.peers conn).shaken (.inr shaken)) msg)
      exact ⟨afterSound, conn, effect⟩
  | sendErrorAndDrop conn node error message =>
      cases performed
      obtain ⟨afterSound, effect⟩ := talks_step sound (Peer.sendErrorAndDrop_talks error message)
      exact ⟨afterSound, conn, effect⟩
  | drop conn node =>
      cases performed
      obtain ⟨afterSound, effect⟩ := talks_step sound (Peer.drop_talks node (state.peers conn))
      exact ⟨afterSound, conn, effect⟩

omit [DecidableEq Conn] [DecidableEq Node] [DecidableEq Key] in
theorem start_sound (timeNow : Node → UInt64) : net.Sound (net.start timeNow) where
  peers conn := Peer.create_sound (net.role conn) (net.nonce conn)
  roles _ := rfl
  nonces _ := rfl
  caches _ := LruCache.empty_holds _
  secrets _ := rfl

/-! ### Keys tell the other side -/

omit [DecidableEq Conn] [DecidableEq Node] [DecidableEq Key] in
theorem Sound.inputs (sound : net.Sound state) {conn : Conn}
    (greeted : (state.peers conn).remotePublic ≠ none) :
    ∃ remote nonce x y, (state.peers conn).remotePublic = some remote ∧
      (state.peers conn).mRecvNonce = some nonce ∧
      sendingInput net.lib (net.secret (net.nodeOf conn)) remote (net.nonce conn) nonce
        (net.role conn) = some x ∧
      receivingInput net.lib (net.secret (net.nodeOf conn)) remote (net.nonce conn) nonce
        (net.role conn) = some y ∧
      x ∈ net.inputs state conn ∧ y ∈ net.inputs state conn ∧
      net.lib.sessionKey x = (state.peers conn).mSendMacKey ∧
      net.lib.sessionKey y = (state.peers conn).mRecvMacKey := by
  obtain ⟨remote, is⟩ := Option.ne_none_iff_exists'.mp greeted
  obtain ⟨nonce, recvNonce, sends, receives⟩ := (sound.peers conn).keyed remote is
  rw [sound.roles, sound.nonces] at sends receives
  obtain ⟨x, sending, sendKey⟩ := Option.map_eq_some_iff.mp sends
  obtain ⟨y, receiving, recvKey⟩ := Option.map_eq_some_iff.mp receives
  refine ⟨remote, nonce, x, y, is, recvNonce, sending, receiving, ?_, ?_, sendKey, recvKey⟩
  · simp [Network.inputs, is, recvNonce, sending]
  · simp [Network.inputs, is, recvNonce, receiving]

variable (net state) in
structure Source (conn other : Conn) : Prop where
  greeted : (state.peers other).remotePublic ≠ none
  key : (state.peers other).mSendMacKey = (state.peers conn).mRecvMacKey

section

omit [DecidableEq Conn] [DecidableEq Node] [DecidableEq Key]

theorem Source.otherSide (sound : net.Sound state) (differ : net.KeysDiffer state)
    {conn other : Conn} (greeted : (state.peers conn).remotePublic ≠ none)
    (source : Source state conn other) : net.OtherSide state conn other := by
  obtain ⟨remote, nonce, _, y, isRemote, isNonce, _, receiving, _, yMember, _, recvKey⟩ :=
    sound.inputs greeted
  obtain ⟨remote', nonce', x, _, isRemote', isNonce', sending, _, xMember, _, sendKey, _⟩ :=
    sound.inputs source.greeted
  have same : y = x := by
    apply differ conn other y yMember x xMember
    rw [recvKey, sendKey]
    exact source.key.symm
  subst same
  obtain ⟨roles, theirNonce, ourNonce, theirs, ours⟩ := sides_of_input receiving sending
  subst theirNonce ourNonce theirs ours
  exact ⟨roles, isRemote', isRemote, isNonce', isNonce⟩

theorem Source.unique (sound : net.Sound state) (differ : net.KeysDiffer state)
    (fresh : Function.Injective net.nonce) {conn other other' : Conn}
    (source : Source state conn other) (source' : Source state conn other') : other = other' := by
  obtain ⟨_, _, x, _, _, _, sending, _, xMember, _, sendKey, _⟩ := sound.inputs source.greeted
  obtain ⟨_, _, x', _, _, _, sending', _, xMember', _, sendKey', _⟩ := sound.inputs source'.greeted
  have same : x = x' := by
    apply differ other other' x xMember x' xMember'
    rw [sendKey, sendKey']
    exact source.key.trans source'.key.symm
  subst same
  exact fresh (sendingInput_injective sending sending')

theorem OtherSide.source (sound : net.Sound state) (commutes : Commutes net.lib)
    {conn other : Conn} (sides : net.OtherSide state conn other) : Source state conn other := by
  have greeted : (state.peers conn).remotePublic ≠ none := by
    rw [sides.theirs]
    exact Option.some_ne_none _
  have greeted' : (state.peers other).remotePublic ≠ none := by
    rw [sides.ours]
    exact Option.some_ne_none _
  obtain ⟨remote, nonce, _, y, isRemote, isNonce, _, receiving, _, _, _, recvKey⟩ :=
    sound.inputs greeted
  obtain ⟨remote', nonce', x, _, isRemote', isNonce', sending, _, _, _, sendKey, _⟩ :=
    sound.inputs greeted'
  cases isRemote.symm.trans sides.theirs
  cases isRemote'.symm.trans sides.ours
  cases isNonce.symm.trans sides.theirNonce
  cases isNonce'.symm.trans sides.ourNonce
  refine ⟨greeted', ?_⟩
  rw [sendingInput_eq_receivingInput commutes, sides.role] at sending
  have roles : (net.role conn).other.other = net.role conn := by
    cases net.role conn <;> rfl
  rw [roles, receiving] at sending
  cases sending
  rw [← sendKey, ← recvKey]

end

end Network

end ViiCore.Overlay
