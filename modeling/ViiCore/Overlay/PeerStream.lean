import Mathlib.Algebra.Group.Nat.Defs
import ViiCore.Overlay.PeerNetwork

/-!
What a connection handles is a beginning of what the other side sent, in every run of a network
that forges no authentication codes, until the 64-bit numbers of the messages start again.
-/

namespace ViiCore.Overlay.Network

variable {Conn Node Secret Key Body : Type} {net : Network Conn Node Secret Key Body}
  {state after : NetworkState Conn Node Secret Key Body} {conn other : Conn}

variable (net state) in
structure Delivered : Prop where
  handled : ∀ conn, net.Honest (state.peers conn) → (state.peers conn).handled ≠ [] →
    ∃ other, Source state conn other ∧ (state.peers conn).handled <+: (state.peers other).sent
  reached : ∀ conn, net.Honest (state.peers conn) → (state.peers conn).reachedAuth →
    ∃ other, Source state conn other ∧ ∃ unused, .AUTH unused ∈ (state.peers other).sent

/-! ### Steps -/

theorem Honest.greeted {peer : Peer Key Body} (honest : net.Honest peer) :
    peer.remotePublic ≠ none := by
  obtain ⟨node, is⟩ := honest
  rw [is]
  exact Option.some_ne_none _

theorem Effect.keepsAll (effect : net.Effect state after conn) (other : Conn) :
    Peer.Keeps (state.peers other) (after.peers other) := by
  by_cases same : other = conn
  · rw [same]
    exact effect.keeps
  · rw [effect.others other same]
    exact Peer.Keeps.refl _

theorem Effect.source (effect : net.Effect state after conn) {receiver sender : Conn}
    (greeted : (state.peers receiver).remotePublic ≠ none) (source : Source state receiver sender) :
    Source after receiver sender := by
  have sends := effect.keepsAll sender
  have receives := effect.keepsAll receiver
  refine ⟨?_, ?_⟩
  · rw [sends.remotePublic source.greeted]
    exact source.greeted
  · rw [sends.sendKey source.greeted, receives.recvKey greeted]
    exact source.key

theorem Effect.honest (effect : net.Effect state after conn)
    (greeted : (state.peers other).remotePublic ≠ none) (honest : net.Honest (after.peers other)) :
    net.Honest (state.peers other) := by
  obtain ⟨node, is⟩ := honest
  exact ⟨node, ((effect.keepsAll other).remotePublic greeted).symm.trans is⟩

theorem Sound.wrote (sound : net.Sound state) {key : Key} {sequence : UInt64}
    {msg : VIIMessage Body} (member : (key, sequence, msg) ∈ (state.peers other).sealed) :
    (state.peers other).remotePublic ≠ none ∧ key = (state.peers other).mSendMacKey ∧
      ∃ index, (state.peers other).sent[index]? = some msg ∧ sequence = UInt64.ofNat index := by
  have greeted : (state.peers other).remotePublic ≠ none := by
    intro ungreeted
    rw [((sound.peers other).fresh ungreeted).2.1] at member
    cases member
  rw [((sound.peers other).sealing greeted).codes] at member
  obtain ⟨⟨msg, index⟩, inSent, is⟩ := List.mem_map.mp member
  cases is
  exact ⟨greeted, rfl, index, List.mem_zipIdx_iff_getElem?.mp inSent, rfl⟩

theorem prefix_concat {α : Type} {xs ys : List α} {x : α} (isPrefix : xs <+: ys)
    (next : ys[xs.length]? = some x) : xs ++ [x] <+: ys := by
  obtain ⟨rest, rfl⟩ := isPrefix
  cases rest with
  | nil => simp at next
  | cons head tail =>
      have same : head = x := by simpa using next
      rw [same]
      exact ⟨tail, by simp⟩

theorem nextSent (sound : net.Sound state)
    (differ : net.KeysDiffer state) (fresh : Function.Injective net.nonce)
    (short : ∀ conn, (state.peers conn).sent.length < 2 ^ 64) (delivered : net.Delivered state)
    (honest : net.Honest (state.peers conn)) (opened : (state.peers conn).mState ≠ .CLOSING)
    {msg : AuthenticatedMessage Key Body} (unforged : net.Unforged state (state.peers conn) msg)
    (number : msg.sequence = (state.peers conn).mRecvMacSeq)
    (code : msg.mac = net.lib.hmacSha256 (state.peers conn).mRecvMacKey
      (net.encode msg.sequence msg.message)) :
    ∃ other, Source state conn other ∧ msg.message ∈ (state.peers other).sent ∧
      (state.peers conn).handled ++ [msg.message] <+: (state.peers other).sent := by
  obtain ⟨other, member⟩ := unforged honest code
  obtain ⟨greeted, key, index, there, numbers⟩ := sound.wrote member
  have source : Source state conn other := ⟨greeted, key.symm⟩
  have beginning : (state.peers conn).handled <+: (state.peers other).sent := by
    by_cases nothing : (state.peers conn).handled = []
    · rw [nothing]
      exact List.nil_prefix
    · obtain ⟨earlier, earlierSource, isPrefix⟩ := delivered.handled conn honest nothing
      rw [source.unique sound differ fresh earlierSource]
      exact isPrefix
  have counted := (sound.peers conn).counted honest.greeted opened
  have length := beginning.length_le
  have bound := short other
  have indexBound := (List.getElem?_eq_some_iff.mp there).1
  have position : index = (state.peers conn).handled.length := by
    have same : UInt64.ofNat index = UInt64.ofNat (state.peers conn).handled.length := by
      rw [← numbers, number, counted]
    have values := congrArg UInt64.toNat same
    simp only [UInt64.toNat_ofNat'] at values
    omega
  subst position
  exact ⟨other, source, List.mem_of_getElem? there, prefix_concat beginning there⟩

theorem Effect.delivered_old (effect : net.Effect state after conn) (sound : net.Sound state)
    (delivered : net.Delivered state) {receiver : Conn} (honest : net.Honest (after.peers receiver))
    (handled : (after.peers receiver).handled = (state.peers receiver).handled)
    (nonempty : (after.peers receiver).handled ≠ []) :
    ∃ other, Source after receiver other ∧
      (after.peers receiver).handled <+: (after.peers other).sent := by
  rw [handled] at nonempty ⊢
  have greeted : (state.peers receiver).remotePublic ≠ none := by
    intro ungreeted
    exact nonempty ((sound.peers receiver).fresh ungreeted).2.2.1
  obtain ⟨other, source, isPrefix⟩ :=
    delivered.handled receiver (effect.honest greeted honest) nonempty
  exact ⟨other, effect.source greeted source, isPrefix.trans (effect.keepsAll other).sent⟩

theorem Effect.reached_old (effect : net.Effect state after conn) (sound : net.Sound state)
    (delivered : net.Delivered state) {receiver : Conn} (honest : net.Honest (after.peers receiver))
    (reached : (state.peers receiver).reachedAuth) :
    ∃ other, Source after receiver other ∧ ∃ unused, .AUTH unused ∈ (after.peers other).sent := by
  have greeted : (state.peers receiver).remotePublic ≠ none := by
    intro ungreeted
    rw [((sound.peers receiver).fresh ungreeted).2.2.2] at reached
    cases reached
  obtain ⟨other, source, unused, member⟩ :=
    delivered.reached receiver (effect.honest greeted honest) reached
  exact ⟨other, effect.source greeted source, unused, (effect.keepsAll other).sent.subset member⟩

theorem Effect.delivered (effect : net.Effect state after conn) (sound : net.Sound state)
    (differ : net.KeysDiffer state)
    (fresh : Function.Injective net.nonce)
    (short : ∀ conn, (state.peers conn).sent.length < 2 ^ 64) (delivered : net.Delivered state) :
    net.Delivered after := by
  refine ⟨?_, ?_⟩
  · intro receiver honest nonempty
    by_cases same : receiver = conn
    swap
    · have unchanged := effect.others receiver same
      exact effect.delivered_old sound delivered honest (by rw [unchanged]) nonempty
    subst same
    rcases effect.handled with ⟨handled, _⟩ | ⟨msg, unforged, greeted, opened, number, code, noted, _⟩
    · exact effect.delivered_old sound delivered honest handled nonempty
    · rcases noted with handled | handled
      · exact effect.delivered_old sound delivered honest handled nonempty
      · obtain ⟨other, source, _, isPrefix⟩ := nextSent sound differ fresh short delivered
          (effect.honest greeted honest) opened unforged number code
        rw [handled]
        exact ⟨other, effect.source greeted source, isPrefix.trans (effect.keepsAll other).sent⟩
  · intro receiver honest reached
    by_cases same : receiver = conn
    swap
    · rw [effect.others receiver same] at reached
      exact effect.reached_old sound delivered honest reached
    subst same
    rcases effect.handled with ⟨_, unchanged⟩ | ⟨msg, unforged, greeted, opened, number, code, _, auths⟩
    · rw [unchanged] at reached
      exact effect.reached_old sound delivered honest reached
    · rcases auths reached with early | isAuth
      · exact effect.reached_old sound delivered honest early
      · obtain ⟨other, source, member, _⟩ := nextSent sound differ fresh short delivered
          (effect.honest greeted honest) opened unforged number code
        have unused : ∃ unused, msg.message = .AUTH unused := by
          revert isAuth
          cases msg.message <;> simp [VIIMessage.isAuth]
        obtain ⟨unused, is⟩ := unused
        rw [is] at member
        exact ⟨other, effect.source greeted source, unused, (effect.keepsAll other).sent.subset member⟩

theorem Effect.inputs (effect : net.Effect state after conn) {input : KeyInput}
    (member : input ∈ net.inputs state other) : input ∈ net.inputs after other := by
  have keeps := effect.keepsAll other
  have greeted : (state.peers other).remotePublic ≠ none := by
    intro ungreeted
    rw [Network.inputs, ungreeted] at member
    cases member
  unfold Network.inputs at member ⊢
  rw [keeps.remotePublic greeted, keeps.recvNonce greeted]
  exact member

/-! ### Runs -/

variable [DecidableEq Conn] [DecidableEq Node] [DecidableEq Key]

theorem Reachable.sound (reached : net.Reachable state) : net.Sound state := by
  induction reached with
  | start timeNow => exact start_sound timeNow
  | step event _ allowed performed ih => exact (perform_step ih allowed performed).1

theorem Reachable.delivered (reached : net.Reachable state) (fresh : Function.Injective net.nonce)
    (differ : net.KeysDiffer state)
    (short : ∀ conn, (state.peers conn).sent.length < 2 ^ 64) : net.Delivered state := by
  induction reached with
  | start timeNow =>
      refine ⟨?_, ?_⟩
      · intro conn _ nonempty
        exact absurd rfl nonempty
      · intro conn _ reached
        cases reached
  | step event reached allowed performed ih =>
      obtain ⟨_, conn, effect⟩ := perform_step reached.sound allowed performed
      -- keys and messages that were there before are still there
      have differBefore : net.KeysDiffer _ := fun conn other x xMember y yMember =>
        differ conn other x (effect.inputs xMember) y (effect.inputs yMember)
      have shortBefore : ∀ other, (Peer.sent _).length < 2 ^ 64 := fun other =>
        Nat.lt_of_le_of_lt (effect.keepsAll other).sent.length_le (short other)
      exact effect.delivered reached.sound differBefore fresh shortBefore
        (ih differBefore shortBefore)

/-- Until a number starts again, a connection to a node handles a beginning of what the other side
of its session sent, and is authenticated only after the other side sent its `AUTH`; each side
sends under the key that the other one receives under. -/
theorem reachable_authenticated (commutes : Commutes net.lib) (fresh : Function.Injective net.nonce)
    (reached : net.Reachable state) (differ : net.KeysDiffer state)
    (short : ∀ conn, (state.peers conn).sent.length < 2 ^ 64) :
    (∀ conn, net.Honest (state.peers conn) →
      (∀ other, net.OtherSide state conn other →
        (state.peers conn).handled <+: (state.peers other).sent) ∧
      ((state.peers conn).handled ≠ [] → ∃ other, net.OtherSide state conn other) ∧
      ((state.peers conn).reachedAuth ∨ (state.peers conn).mState = .GOT_AUTH →
        ∃ other, net.OtherSide state conn other ∧
          ∃ unused, .AUTH unused ∈ (state.peers other).sent)) ∧
    ∀ a b localNonce remoteNonce role,
      ((state.auths a).getSendingMacKey net.lib ((state.auths b).mECDHPublicKey net.lib)
        localNonce remoteNonce role).map Prod.fst =
      ((state.auths b).getReceivingMacKey net.lib ((state.auths a).mECDHPublicKey net.lib)
        remoteNonce localNonce role.other).map Prod.fst := by
  have sound := reached.sound
  have delivered := reached.delivered fresh differ short
  refine ⟨?_, ?_⟩
  · intro conn honest
    refine ⟨?_, ?_, ?_⟩
    · intro other sides
      by_cases nothing : (state.peers conn).handled = []
      · rw [nothing]
        exact List.nil_prefix
      · obtain ⟨sender, source, isPrefix⟩ := delivered.handled conn honest nothing
        rw [(sides.source sound commutes).unique sound differ fresh source]
        exact isPrefix
    · intro nonempty
      obtain ⟨sender, source, _⟩ := delivered.handled conn honest nonempty
      exact ⟨sender, source.otherSide sound differ honest.greeted⟩
    · intro authenticated
      have reachedAuth : (state.peers conn).reachedAuth :=
        authenticated.elim id (sound.peers conn).authenticated
      obtain ⟨sender, source, sent⟩ := delivered.reached conn honest reachedAuth
      exact ⟨sender, source.otherSide sound differ honest.greeted, sent⟩
  · intro a b localNonce remoteNonce role
    rw [getSendingMacKey_fst _ _ _ _ (sound.caches a), getReceivingMacKey_fst _ _ _ _ (sound.caches b)]
    unfold PeerAuth.mECDHPublicKey
    rw [sendingInput_eq_receivingInput commutes]

/-! ### Two nodes -/

/-- Keys and codes as terms, so that no two are the same by chance. -/
inductive Code where
  | zero
  | code (key : Code) (bytes : List UInt8)
  deriving DecidableEq

def small (n : UInt8) : Uint256 := ⟨n :: List.replicate 31 0, rfl⟩

/-- A group in which the product of a secret and a point is a sum. -/
def additive : Primitives UInt8 Code where
  crypto_scalarmult_base secret := small secret
  crypto_scalarmult secret point := some (small (secret + point.bytes.headD 0))
  crypto_auth_hmacsha256 := .code
  zerosalt := .zero
  certHash _ _ pubkey := pubkey
  verifySig _ sig hash := sig = hash.bytes

/-- The number and the type of a message, as XDR writes them. -/
def bigEndian (sequence : UInt64) (msg : VIIMessage Unit) : List UInt8 :=
  let number : List UInt8 := [56, 48, 40, 32, 24, 16, 8, 0].map fun shift : UInt64 =>
    (sequence >>> shift).toUInt8
  let type : UInt8 := match msg with
    | .ERROR_MSG _ _ => 0
    | .AUTH _ => 2
    | .GET_SCP_STATE _ => 12
    | .HELLO _ => 13
    | .content _ _ => 5
  number ++ [0, 0, 0, type]

/-- The connection `false` of the node `false` calls the connection `true` of the node `true`. -/
def twoNodes : Network Bool Bool UInt8 Code Unit where
  lib := additive
  encode := bigEndian
  nodeOf := id
  role conn := if conn then .REMOTE_CALLED_US else .WE_CALLED_REMOTE
  nonce conn := if conn then small 2 else small 1
  config node :=
    { LEDGER_PROTOCOL_VERSION := 11, OVERLAY_PROTOCOL_MIN_VERSION := 7
      OVERLAY_PROTOCOL_VERSION := 9, VERSION_STR := "v11", PEER_PORT := 11625
      networkID := small 9, nodePublic := if node then small 17 else small 15
      sign := Uint256.bytes, toShortString := fun _ => "" }
  secret node := if node then 7 else 5

def quiet : NodeState Unit where
  isShuttingDown := false
  timeNow := 0
  isBanned _ := false
  ipEmpty := false
  alreadyConnected _ := false
  acceptAuthenticatedPeer := true
  getLastClosedLedgerNum := 1
  getPeersToSend := ()
  answers _ := []

abbrev TwoNodes := NetworkState Bool Bool UInt8 Code Unit

def hand (state : TwoNodes) (receiver : Bool) (index : Nat) : Event Bool Code Unit :=
  .recvBytes receiver quiet (state.peers !receiver).written[index]?

def proceed (state : TwoNodes) (event : Event Bool Code Unit) : TwoNodes :=
  (twoNodes.perform state event).getD state

def connecting : TwoNodes := proceed (twoNodes.start fun _ => 0) (.connectHandler false quiet false)

def called : TwoNodes := proceed connecting (hand connecting true 0)

def greeted : TwoNodes := proceed called (hand called false 0)

def answered : TwoNodes := proceed greeted (hand greeted true 1)

def shaken : TwoNodes := proceed answered (hand answered false 1)

def asked : TwoNodes := proceed shaken (hand shaken true 2)

/-- Whether what is handed over comes before the greeting or was written with a code. -/
def Genuine (state : TwoNodes) (receiver : Bool) (index : Nat) : Prop :=
  (state.peers receiver).remotePublic = none ∨
    ∀ msg ∈ (state.peers !receiver).written[index]?.toList,
      ((state.peers receiver).mRecvMacKey, msg.sequence, msg.message) ∈ (state.peers !receiver).sealed

instance (state : TwoNodes) (receiver : Bool) (index : Nat) :
    Decidable (Genuine state receiver index) := by
  unfold Genuine
  infer_instance

theorem hand_reachable {state : TwoNodes} {receiver : Bool} {index : Nat}
    (reached : twoNodes.Reachable state) (reading : (state.peers receiver).reading)
    (genuine : Genuine state receiver index)
    (performs : (twoNodes.perform state (hand state receiver index)).isSome) :
    twoNodes.Reachable (proceed state (hand state receiver index)) := by
  obtain ⟨after, performed⟩ := Option.isSome_iff_exists.mp performs
  refine .step (hand state receiver index) reached ⟨reading, ?_⟩ (by simp [proceed, performed])
  intro msg given honest code
  rcases genuine with ungreeted | wrote
  · exact absurd ungreeted honest.greeted
  · exact ⟨!receiver, wrote msg (by rw [given]; exact List.mem_singleton_self msg)⟩

theorem asked_reachable : twoNodes.Reachable asked := by
  have first : twoNodes.Reachable connecting :=
    .step (.connectHandler false quiet false) (.start fun _ => 0) ⟨rfl, .inl rfl⟩ rfl
  have second : twoNodes.Reachable called :=
    hand_reachable first (by decide +kernel) (by decide +kernel) (by decide +kernel)
  have third : twoNodes.Reachable greeted :=
    hand_reachable second (by decide +kernel) (by decide +kernel) (by decide +kernel)
  have fourth : twoNodes.Reachable answered :=
    hand_reachable third (by decide +kernel) (by decide +kernel) (by decide +kernel)
  have fifth : twoNodes.Reachable shaken :=
    hand_reachable fourth (by decide +kernel) (by decide +kernel) (by decide +kernel)
  exact hand_reachable fifth (by decide +kernel) (by decide +kernel) (by decide +kernel)

theorem additive_commutes : Commutes additive := by
  intro a b
  simp [additive, Primitives.EcdhDerivePublic, small, UInt8.add_comm]

theorem reachable_authenticated_handshake :
    twoNodes.Reachable asked ∧
      (asked.peers true).handled = [.AUTH 0, .GET_SCP_STATE 1] ∧
      (asked.peers true).handled <+: (asked.peers false).sent := by
  have sides : twoNodes.OtherSide asked true false := ⟨by decide +kernel, by decide +kernel,
    by decide +kernel, by decide +kernel, by decide +kernel⟩
  have fresh : Function.Injective twoNodes.nonce := by
    intro a b same
    revert same
    cases a <;> cases b <;> decide +kernel
  have differ : twoNodes.KeysDiffer asked := by
    unfold KeysDiffer
    decide +kernel
  have short : ∀ conn, (asked.peers conn).sent.length < 2 ^ 64 := by decide +kernel
  have holds := reachable_authenticated additive_commutes fresh asked_reachable differ short
  exact ⟨asked_reachable, by decide +kernel, (holds.1 true ⟨false, sides.theirs⟩).1 false sides⟩

/-! ### Numbers that start again -/

theorem recvBytes_quiet {peer : Peer Code Unit} {auth : PeerAuth UInt8 Code} {config : Config}
    {msg : AuthenticatedMessage Code Unit} (state : peer.mState = .GOT_AUTH)
    (number : msg.sequence = peer.mRecvMacSeq)
    (code : msg.mac = additive.hmacSha256 peer.mRecvMacKey (bigEndian msg.sequence msg.message))
    (sealing : msg.message.unsealed = false) (content : msg.message.isAuth = false) :
    peer.recvBytes additive bigEndian config quiet auth (some msg) =
      some (auth, { peer.countRecv with handled := peer.handled ++ [msg.message] }) := by
  have going : peer.shouldAbort quiet = false := by simp [Peer.shouldAbort, state, quiet]
  have noError : msg.message.isError = false := by
    revert sealing
    cases msg.message <;> simp [VIIMessage.unsealed, VIIMessage.isError]
  have checked : peer.verify additive bigEndian quiet msg = (some msg.message, peer.countRecv) := by
    unfold Peer.verify
    rw [if_pos ⟨by rw [state]; decide, by rw [noError]; decide⟩,
      if_neg (fun different => different number), if_neg (fun wrong => wrong (decide_eq_true code))]
  have countedGoing : peer.countRecv.shouldAbort quiet = false := going
  have authenticated : peer.countRecv.isAuthenticated := decide_eq_true state
  have dispatched : peer.countRecv.dispatch additive bigEndian config quiet auth msg.message =
      some (auth, peer.countRecv) := by
    rw [Peer.dispatch_content countedGoing sealing content, if_pos authenticated]
    rfl
  change peer.recvMessage additive bigEndian config quiet auth msg = _
  unfold Peer.recvMessage
  rw [if_neg (by rw [going]; decide), checked]
  simp only
  rw [dispatched, Option.map_some]
  unfold Peer.note
  rw [if_neg (by simp [sealing, Peer.countRecv, state])]
  rfl

structure InStep (state : TwoNodes) (count : Nat) : Prop where
  reached : twoNodes.Reachable state
  sides : twoNodes.OtherSide state true false
  sender : (state.peers false).mState = .GOT_AUTH
  receiver : (state.peers true).mState = .GOT_AUTH
  sent : (state.peers false).sent.length = count
  handled : (state.peers true).handled.length = count
  request : ((state.peers true).mRecvMacKey, 1, .GET_SCP_STATE 1) ∈ (state.peers false).sealed

theorem asked_inStep : InStep asked 2 where
  reached := asked_reachable
  sides := ⟨by decide +kernel, by decide +kernel, by decide +kernel, by decide +kernel,
    by decide +kernel⟩
  sender := by decide +kernel
  receiver := by decide +kernel
  sent := by decide +kernel
  handled := by decide +kernel
  request := by decide +kernel

theorem InStep.agree {state : TwoNodes} {count : Nat} (inStep : InStep state count) :
    (state.peers true).mRecvMacKey = (state.peers false).mSendMacKey ∧
      (state.peers false).mSendMacSeq = UInt64.ofNat count ∧
      (state.peers true).mRecvMacSeq = UInt64.ofNat count ∧ (state.peers true).reading := by
  have sound := inStep.reached.sound
  have greeted : (state.peers true).remotePublic ≠ none := by
    rw [inStep.sides.theirs]
    exact Option.some_ne_none _
  have source := inStep.sides.source sound additive_commutes
  refine ⟨source.key.symm, ?_, ?_, (sound.peers true).reads greeted⟩
  · rw [((sound.peers false).sealing source.greeted).next (by rw [inStep.sender]; decide), inStep.sent]
  · rw [(sound.peers true).counted greeted (by rw [inStep.receiver]; decide), inStep.handled]

theorem receive_reachable {state : TwoNodes} (msg : AuthenticatedMessage Code Unit)
    (reached : twoNodes.Reachable state) (reading : (state.peers true).reading)
    (receiver : (state.peers true).mState = .GOT_AUTH)
    (number : msg.sequence = (state.peers true).mRecvMacSeq)
    (code : msg.mac = additive.hmacSha256 (state.peers true).mRecvMacKey
      (bigEndian msg.sequence msg.message))
    (sealing : msg.message.unsealed = false) (content : msg.message.isAuth = false)
    (wrote : ((state.peers true).mRecvMacKey, msg.sequence, msg.message) ∈
      (state.peers false).sealed) :
    twoNodes.Reachable (twoNodes.set state true (state.auths true,
      { (state.peers true).countRecv with
        handled := (state.peers true).handled ++ [msg.message] })) := by
  refine .step (.recvBytes true quiet (some msg)) reached ⟨reading, ?_⟩ ?_
  · intro other given _ _
    cases given
    exact ⟨false, wrote⟩
  · have did : (state.peers true).recvBytes additive bigEndian (twoNodes.config true) quiet
        (state.auths true) (some msg) = some (state.auths true,
          { (state.peers true).countRecv with
            handled := (state.peers true).handled ++ [msg.message] }) :=
      recvBytes_quiet receiver number code sealing content
    change Option.map _ (Peer.recvBytes additive bigEndian (twoNodes.config true) quiet
      (state.peers true) (state.auths true) (some msg)) = _
    rw [did]
    rfl

theorem sides_receive {state : TwoNodes} {auth : PeerAuth UInt8 Code} {handled : List (VIIMessage Unit)}
    (sides : twoNodes.OtherSide state true false) :
    twoNodes.OtherSide (twoNodes.set state true (auth, { (state.peers true).countRecv with handled }))
      true false := by
  refine ⟨rfl, ?_, ?_, ?_, ?_⟩
  · simpa [set] using sides.ours
  · simpa [set, Peer.countRecv] using sides.theirs
  · simpa [set] using sides.ourNonce
  · simpa [set, Peer.countRecv] using sides.theirNonce

theorem InStep.next {state : TwoNodes} {count : Nat} (inStep : InStep state count) :
    ∃ after, InStep after (count + 1) := by
  obtain ⟨key, sendSeq, recvSeq, reading⟩ := inStep.agree
  let ping : VIIMessage Unit := .content .GET_PEERS ()
  let written : AuthenticatedMessage Code Unit :=
    { sequence := (state.peers false).mSendMacSeq
      message := ping
      mac := additive.hmacSha256 (state.peers false).mSendMacKey
        (bigEndian (state.peers false).mSendMacSeq ping) }
  have said : (state.peers false).sendMessage additive bigEndian ping =
      { state.peers false with
        mSendMacSeq := (state.peers false).mSendMacSeq + 1
        written := (state.peers false).written ++ [written]
        sealed := (state.peers false).sealed ++
          [((state.peers false).mSendMacKey, (state.peers false).mSendMacSeq, ping)] } := by
    simp [Peer.sendMessage, Peer.write, inStep.sender, ping, VIIMessage.unsealed, written]
  have sent : twoNodes.Reachable (twoNodes.set state false
      (state.auths false, (state.peers false).sendMessage additive bigEndian ping)) :=
    .step (.sendMessage false ping) inStep.reached (decide_eq_true inStep.sender) rfl
  rw [said] at sent
  have received := receive_reachable written sent
    (by simpa [set] using reading) (by simpa [set] using inStep.receiver)
    (by simp [set, written, sendSeq, recvSeq]) (by simp [set, written, key]) rfl rfl
    (by simp [set, written, key])
  have length := Peer.coded_append (state.peers false).written written
  refine ⟨_, received, sides_receive ⟨rfl, ?_, ?_, ?_, ?_⟩, ?_, ?_, ?_, ?_, ?_⟩
  · simpa [set] using inStep.sides.ours
  · simpa [set] using inStep.sides.theirs
  · simpa [set] using inStep.sides.ourNonce
  · simpa [set] using inStep.sides.theirNonce
  · simpa [set] using inStep.sender
  · simpa [set, Peer.countRecv] using inStep.receiver
  · have grown : (Peer.coded ((state.peers false).written ++ [written])).length = count + 1 := by
      rw [length, List.length_append, ← inStep.sent]
      rfl
    simpa [set, Peer.sent] using grown
  · simp [set, inStep.handled]
  · have request := inStep.request
    simp [set, Peer.countRecv, request]

theorem inStep_exists (more : Nat) : ∃ state, InStep state (more + 2) := by
  induction more with
  | zero => exact ⟨asked, asked_inStep⟩
  | succ more ih =>
      obtain ⟨state, inStep⟩ := ih
      exact inStep.next

theorem keysDiffer_of_sides {state : TwoNodes} (sides : twoNodes.OtherSide state true false) :
    twoNodes.KeysDiffer state := by
  have same : twoNodes.inputs state = twoNodes.inputs asked := by
    funext conn
    have askedSides := asked_inStep.sides
    unfold inputs
    cases conn with
    | false => rw [sides.ours, sides.ourNonce, askedSides.ours, askedSides.ourNonce]
    | true => rw [sides.theirs, sides.theirNonce, askedSides.theirs, askedSides.theirNonce]
  unfold KeysDiffer
  rw [same]
  decide +kernel

/-- After 2^64 messages the second one is handled once more. -/
theorem replayed_after_wrap :
    ∃ state, twoNodes.Reachable state ∧ twoNodes.KeysDiffer state ∧
      twoNodes.OtherSide state true false ∧
      ¬ (state.peers true).handled <+: (state.peers false).sent := by
  obtain ⟨state, inStep⟩ := inStep_exists (2 ^ 64 - 1)
  obtain ⟨key, sendSeq, recvSeq, reading⟩ := inStep.agree
  have number : (1 : UInt64) = (state.peers true).mRecvMacSeq := by
    rw [recvSeq]
    decide
  let first : AuthenticatedMessage Code Unit :=
    { sequence := 1
      message := .GET_SCP_STATE 1
      mac := additive.hmacSha256 (state.peers true).mRecvMacKey (bigEndian 1 (.GET_SCP_STATE 1)) }
  have received := receive_reachable first inStep.reached reading inStep.receiver number rfl rfl rfl
    inStep.request
  refine ⟨_, received, keysDiffer_of_sides (sides_receive inStep.sides),
    sides_receive inStep.sides, ?_⟩
  intro isPrefix
  have length := isPrefix.length_le
  simp [set, inStep.handled, inStep.sent] at length

end ViiCore.Overlay.Network
