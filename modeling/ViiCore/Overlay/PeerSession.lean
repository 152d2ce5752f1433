import ViiCore.Overlay.Peer

/-!
What one end of a connection keeps: the messages it sends are numbered without a gap under one key,
and it handles a message only after checking its number and its authentication code.
-/

namespace ViiCore.Overlay

variable {Secret Key Body : Type}

theorem VIIMessage.kinds (message : VIIMessage Body) :
    (∃ code text, message = .ERROR_MSG code text) ∨ (∃ elo, message = .HELLO elo) ∨
      (∃ unused, message = .AUTH unused) ∨ message.unsealed = false ∧ message.isAuth = false := by
  cases message with
  | ERROR_MSG code text => exact .inl ⟨code, text, rfl⟩
  | HELLO elo => exact .inr (.inl ⟨elo, rfl⟩)
  | AUTH unused => exact .inr (.inr (.inl ⟨unused, rfl⟩))
  | GET_SCP_STATE seq => exact .inr (.inr (.inr ⟨rfl, rfl⟩))
  | content type body => exact .inr (.inr (.inr ⟨rfl, rfl⟩))

namespace Peer

variable {lib : Primitives Secret Key} {encode : Encoding Body} {config : Config}
  {node : NodeState Body} {before mid after peer : Peer Key Body}

variable (peer) in
/-- The codes that were written, and the number that comes next. -/
structure Sealing : Prop where
  codes : peer.sealed = peer.sent.zipIdx.map fun entry =>
    (peer.mSendMacKey, UInt64.ofNat entry.2, entry.1)
  next : peer.mState ≠ .CLOSING → peer.mSendMacSeq = UInt64.ofNat peer.sent.length

/-! ### Sending -/

variable (before after) in
structure Talks : Prop where
  same : after =
    { before with
      mState := after.mState
      mSendMacSeq := after.mSendMacSeq
      mRecvMacSeq := after.mRecvMacSeq
      written := after.written
      sealed := after.sealed }
  state : after.mState = before.mState ∨ after.mState = .CLOSING
  counted : after.mState ≠ .CLOSING → after.mRecvMacSeq = before.mRecvMacSeq
  sent : before.sent <+: after.sent
  silent : before.remotePublic = none → after.sent = before.sent ∧ after.sealed = before.sealed
  sealing : before.Sealing → after.Sealing

namespace Talks

theorem refl (peer : Peer Key Body) : Talks peer peer :=
  ⟨rfl, .inl rfl, fun _ => rfl, List.prefix_rfl, fun _ => ⟨rfl, rfl⟩, id⟩

theorem field {α : Type} (talks : Talks before after) (f : Peer Key Body → α)
    (others : ∀ mState mSendMacSeq mRecvMacSeq written sealed,
      f { before with mState, mSendMacSeq, mRecvMacSeq, written, sealed } = f before) :
    f after = f before := by
  rw [talks.same]
  exact others _ _ _ _ _

theorem remotePublic (talks : Talks before after) :
    after.remotePublic = before.remotePublic := talks.field Peer.remotePublic fun _ _ _ _ _ => rfl

theorem trans (first : Talks before mid) (second : Talks mid after) :
    Talks before after where
  same := by
    have firstSame := first.same
    have secondSame := second.same
    rw [firstSame] at secondSame
    exact secondSame
  state := by
    rcases second.state with same | closing
    · rw [same]
      exact first.state
    · exact .inr closing
  counted := by
    intro opened
    have midOpened : mid.mState ≠ .CLOSING := by
      rcases second.state with same | closing
      · rwa [← same]
      · exact absurd closing opened
    exact (second.counted opened).trans (first.counted midOpened)
  sent := first.sent.trans second.sent
  silent := by
    intro ungreeted
    obtain ⟨firstSent, firstSealed⟩ := first.silent ungreeted
    obtain ⟨secondSent, secondSealed⟩ := second.silent (first.remotePublic.trans ungreeted)
    exact ⟨secondSent.trans firstSent, secondSealed.trans firstSealed⟩
  sealing := fun sealing => second.sealing (first.sealing sealing)

end Talks

theorem drop_talks (node : NodeState Body) (peer : Peer Key Body) :
    Talks peer (peer.drop node) := by
  unfold drop
  split
  · exact Talks.refl peer
  · exact ⟨rfl, .inr rfl, fun opened => absurd rfl opened, List.prefix_rfl, fun _ => ⟨rfl, rfl⟩,
      fun sealing => ⟨sealing.codes, fun opened => absurd rfl opened⟩⟩

theorem drop_state (going : peer.shouldAbort node = false) : (peer.drop node).mState = .CLOSING := by
  unfold drop
  rw [if_neg (by rw [going]; decide)]

theorem coded_append (written : List (AuthenticatedMessage Key Body))
    (amsg : AuthenticatedMessage Key Body) :
    coded (written ++ [amsg]) =
      coded written ++ (if amsg.message.unsealed then [] else [amsg.message]) := by
  unfold coded
  simp only [List.map_append, List.map_cons, List.map_nil, List.filter_append]
  cases plain : amsg.message.unsealed with
  | true => simp [plain]
  | false => simp [plain]

theorem sendUnsealed_talks {msg : VIIMessage Body} (plain : msg.unsealed) :
    Talks peer (peer.sendMessage lib encode msg) := by
  unfold sendMessage write
  rw [if_pos plain]
  split
  · exact Talks.refl peer
  · have unchanged := coded_append peer.written { sequence := 0, message := msg, mac := lib.zerosalt }
    rw [if_pos plain, List.append_nil] at unchanged
    refine ⟨rfl, .inl rfl, fun _ => rfl, ?_, fun _ => ⟨unchanged, rfl⟩, ?_⟩
    · exact ⟨[], by rw [List.append_nil]; exact unchanged.symm⟩
    · intro sealing
      refine ⟨?_, ?_⟩
      · change peer.sealed = (coded _).zipIdx.map _
        rw [unchanged]
        exact sealing.codes
      · change peer.mState ≠ .CLOSING → peer.mSendMacSeq = UInt64.ofNat (coded _).length
        rw [unchanged]
        exact sealing.next

theorem sendSealed_talks {msg : VIIMessage Body} (greeted : peer.remotePublic ≠ none)
    (sealing : msg.unsealed = false) : Talks peer (peer.sendMessage lib encode msg) := by
  unfold sendMessage write
  rw [if_neg (by rw [sealing]; decide)]
  simp only
  split
  · rename_i closing
    exact ⟨rfl, .inl rfl, fun _ => rfl, List.prefix_rfl, fun ungreeted => absurd ungreeted greeted,
      fun sealing => ⟨sealing.codes, fun opened => absurd closing opened⟩⟩
  · rename_i opened
    have grown := coded_append peer.written
      { sequence := peer.mSendMacSeq, message := msg,
        mac := lib.hmacSha256 peer.mSendMacKey (encode peer.mSendMacSeq msg) }
    rw [if_neg (by rw [sealing]; decide)] at grown
    refine ⟨rfl, .inl rfl, fun _ => rfl, ⟨[msg], grown.symm⟩,
      fun ungreeted => absurd ungreeted greeted, ?_⟩
    intro before
    have next := before.next opened
    refine ⟨?_, ?_⟩
    · change peer.sealed ++ _ = (coded _).zipIdx.map _
      rw [grown, List.zipIdx_append, List.map_append, before.codes, next]
      simp [sent]
    · intro _
      change peer.mSendMacSeq + 1 = UInt64.ofNat (coded _).length
      rw [grown, next]
      simp [sent]

theorem sendMessage_talks (greeted : peer.remotePublic ≠ none) (msg : VIIMessage Body) :
    Talks peer (peer.sendMessage lib encode msg) := by
  cases coded : msg.unsealed with
  | true => exact sendUnsealed_talks coded
  | false => exact sendSealed_talks greeted coded

theorem sendErrorAndDrop_talks (error : ErrorCode) (message : String) :
    Talks peer (peer.sendErrorAndDrop lib encode node error message) :=
  (sendUnsealed_talks rfl).trans (drop_talks node _)

theorem sendMessage_state (msg : VIIMessage Body) :
    (peer.sendMessage lib encode msg).mState = peer.mState := by
  unfold sendMessage write
  simp only
  split
  · split <;> rfl
  · split <;> rfl

theorem sendErrorAndDrop_state (going : peer.shouldAbort node = false) (error : ErrorCode)
    (message : String) : (peer.sendErrorAndDrop lib encode node error message).mState = .CLOSING := by
  apply drop_state
  unfold shouldAbort
  rw [sendMessage_state]
  exact going

theorem sendHello_talks (auth : PeerAuth Secret Key) :
    Talks peer (peer.sendHello lib encode config node auth).2 := by
  simp only [sendHello]
  apply sendUnsealed_talks
  rfl

theorem sendHello_after {auth : PeerAuth Secret Key} (cache : auth.CacheSound lib) :
    (peer.sendHello lib encode config node auth).1.CacheSound lib ∧
      (peer.sendHello lib encode config node auth).1.mECDHSecretKey = auth.mECDHSecretKey := by
  simp only [sendHello]
  exact PeerAuth.getAuthCert_after cache _ _ _

theorem answer_talks (greeted : peer.remotePublic ≠ none) (msg : VIIMessage Body) :
    Talks peer (peer.answer lib encode node msg) := by
  unfold answer
  generalize node.answers msg = replies
  induction replies generalizing peer with
  | nil => exact Talks.refl peer
  | cons reply replies ih =>
      have first : Talks peer (peer.sendMessage lib encode reply) :=
        sendMessage_talks greeted reply
      exact first.trans (ih (by rw [first.remotePublic]; exact greeted))

theorem checkHello_talks (greeted : peer.remotePublic ≠ none) (elo : Hello) :
    Talks peer (peer.checkHello lib encode config node elo) := by
  unfold checkHello
  split
  · exact sendErrorAndDrop_talks _ _
  split
  · exact sendErrorAndDrop_talks _ _
  split
  · exact sendErrorAndDrop_talks _ _
  split
  · exact sendErrorAndDrop_talks _ _
  split
  · exact sendErrorAndDrop_talks _ _
  split
  · exact sendMessage_talks greeted _
  · exact Talks.refl peer

/-! ### Receiving -/

variable (lib peer) in
/-- The keys of a session that a greeting was taken in. -/
structure Keyed (secret : Secret) (remote nonce : Uint256) : Prop where
  recvNonce : peer.mRecvNonce = some nonce
  sends : (sendingInput lib secret remote peer.mSendNonce nonce peer.mRole).map lib.sessionKey =
    some peer.mSendMacKey
  receives : (receivingInput lib secret remote peer.mSendNonce nonce peer.mRole).map lib.sessionKey =
    some peer.mRecvMacKey

variable (lib encode peer) in
structure Sound (secret : Secret) : Prop where
  reads : peer.remotePublic ≠ none → peer.reading
  shaken : peer.mState = .GOT_HELLO ∨ peer.mState = .GOT_AUTH → peer.remotePublic ≠ none
  fresh : peer.remotePublic = none →
    peer.sent = [] ∧ peer.sealed = [] ∧ peer.handled = [] ∧ peer.reachedAuth = false
  keyed : ∀ remote, peer.remotePublic = some remote → ∃ nonce, peer.Keyed lib secret remote nonce
  sealing : peer.remotePublic ≠ none → peer.Sealing
  counted : peer.remotePublic ≠ none → peer.mState ≠ .CLOSING →
    peer.mRecvMacSeq = UInt64.ofNat peer.handled.length
  early : peer.mState = .CONNECTING ∨ peer.mState = .CONNECTED → peer.remotePublic = none
  authenticated : peer.mState = .GOT_AUTH → peer.reachedAuth

variable (lib before after) in
structure Greets (secret : Secret) : Prop where
  ungreeted : before.remotePublic = none
  role : after.mRole = before.mRole
  sendNonce : after.mSendNonce = before.mSendNonce
  reading : after.reading = before.reading
  written : after.written = before.written
  sealed : after.sealed = before.sealed
  handled : after.handled = before.handled
  reachedAuth : after.reachedAuth = before.reachedAuth
  state : after.mState = .GOT_HELLO
  sendSeq : after.mSendMacSeq = 0
  recvSeq : after.mRecvMacSeq = 0
  keyed : ∃ remote nonce, after.remotePublic = some remote ∧ after.Keyed lib secret remote nonce

theorem takeHello_greets {auth auth' : PeerAuth Secret Key} {elo : Hello}
    (sound : auth.CacheSound lib) (ungreeted : before.remotePublic = none)
    (took : before.takeHello lib auth elo = some (auth', after)) :
    Greets lib before after auth.mECDHSecretKey ∧ auth'.CacheSound lib ∧
      auth'.mECDHSecretKey = auth.mECDHSecretKey := by
  unfold takeHello at took
  split at took
  · cases took
  split at took
  · cases took
  rename_i sendKey mid sends _ recvKey last receives
  cases took
  have sending := getSendingMacKey_fst elo.cert.pubkey before.mSendNonce elo.nonce before.mRole sound
  rw [sends] at sending
  obtain ⟨midSound, midSecret⟩ := expandShared_after sound sends
  have receiving :=
    getReceivingMacKey_fst elo.cert.pubkey before.mSendNonce elo.nonce before.mRole midSound
  rw [receives, midSecret] at receiving
  obtain ⟨lastSound, lastSecret⟩ := expandShared_after midSound receives
  exact ⟨⟨ungreeted, rfl, rfl, rfl, rfl, rfl, rfl, rfl, rfl, rfl, rfl,
    elo.cert.pubkey, elo.nonce, rfl, rfl, sending.symm, receiving.symm⟩,
    lastSound, lastSecret.trans midSecret⟩

variable (before) in
def handling (message : VIIMessage Body) : Peer Key Body :=
  { before with
    mState := .GOT_AUTH
    mRecvMacSeq := before.mRecvMacSeq + 1
    reachedAuth := before.reachedAuth || message.isAuth }

variable (lib encode before) in
inductive Received (secret : Secret) (decoded : Option (AuthenticatedMessage Key Body)) :
    Peer Key Body → Prop
  | talks {after : Peer Key Body} (talks : Talks before after) : Received secret decoded after
  | greets {greeted after : Peer Key Body} (greets : Greets lib before greeted secret)
      (talks : Talks greeted after) : Received secret decoded after
  | handles {after : Peer Key Body} (msg : AuthenticatedMessage Key Body)
      (given : decoded = some msg) (greeted : before.remotePublic ≠ none)
      (opened : before.mState ≠ .CLOSING) (number : msg.sequence = before.mRecvMacSeq)
      (code : msg.mac = lib.hmacSha256 before.mRecvMacKey (encode msg.sequence msg.message))
      (sealing : msg.message.unsealed = false)
      (authenticated : before.mState = .GOT_AUTH ∨ msg.message.isAuth)
      (talks : Talks (before.handling msg.message) after) :
      Received secret decoded (after.note msg.message)

theorem recvHello_received {auth auth' : PeerAuth Secret Key} {elo : Hello}
    {decoded : Option (AuthenticatedMessage Key Body)} (cache : auth.CacheSound lib)
    (sound : before.Sound lib auth.mECDHSecretKey)
    (early : before.mState = .CONNECTING ∨ before.mState = .CONNECTED)
    (did : before.recvHello lib encode config node auth elo = some (auth', after)) :
    before.Received lib encode auth.mECDHSecretKey decoded after ∧ auth'.CacheSound lib ∧
      auth'.mECDHSecretKey = auth.mECDHSecretKey := by
  unfold recvHello at did
  split at did
  · cases did
    exact ⟨.talks (drop_talks node before), cache, rfl⟩
  split at did
  · cases did
    exact ⟨.talks (drop_talks node before), cache, rfl⟩
  split at did
  · cases did
    exact ⟨.talks (drop_talks node before), cache, rfl⟩
  split at did
  · cases did
  rename_i midAuth greeted took
  obtain ⟨greets, midSound, midSecret⟩ := takeHello_greets cache (sound.early early) took
  obtain ⟨remote, nonce, isGreeted, _⟩ := greets.keyed
  have known : greeted.remotePublic ≠ none := by
    rw [isGreeted]
    exact Option.some_ne_none remote
  split at did
  · have said : Talks greeted (greeted.sendHello lib encode config node midAuth).2 :=
      sendHello_talks midAuth
    have kept : (greeted.sendHello lib encode config node midAuth).1.CacheSound lib ∧ _ :=
      sendHello_after midSound
    simp only at did
    generalize greeted.sendHello lib encode config node midAuth = greeting at did said kept
    obtain ⟨rfl, rfl⟩ := Prod.mk.inj (Option.some.inj did)
    have knownStill : greeting.2.remotePublic ≠ none := by
      rw [said.remotePublic]
      exact known
    exact ⟨.greets greets (said.trans (checkHello_talks knownStill elo)), kept.1,
      kept.2.trans midSecret⟩
  · obtain ⟨rfl, rfl⟩ := Prod.mk.inj (Option.some.inj did)
    exact ⟨.greets greets (checkHello_talks known elo), midSound, midSecret⟩

theorem Talks.closing (talks : Talks before.countRecv after)
    (closed : after.mState = .CLOSING) : Talks before after :=
  ⟨talks.same, .inr closed, fun opened => absurd closed opened, talks.sent, talks.silent,
    fun sealing => talks.sealing ⟨sealing.codes, sealing.next⟩⟩

theorem note_of_closing {msg : VIIMessage Body} (closed : after.mState = .CLOSING) :
    after.note msg = after := by
  unfold note
  rw [if_pos (.inr closed)]

theorem note_of_unsealed {msg : VIIMessage Body} (plain : msg.unsealed) : after.note msg = after := by
  unfold note
  rw [if_pos (.inl plain)]

theorem recvAuth_talks (greeted : peer.remotePublic ≠ none) (state : peer.mState = .GOT_HELLO) :
    Talks { peer with mState := .GOT_AUTH, reachedAuth := true }
      (peer.recvAuth lib encode node) := by
  unfold recvAuth
  rw [if_neg (fun other => other state)]
  simp only
  have answered : Talks { peer with mState := .GOT_AUTH, reachedAuth := true }
      (if peer.mRole = .REMOTE_CALLED_US then
        (sendAuth lib encode { peer with mState := .GOT_AUTH, reachedAuth := true }).sendPeers lib
          encode node
      else { peer with mState := .GOT_AUTH, reachedAuth := true }) := by
    split
    · have first : Talks { peer with mState := .GOT_AUTH, reachedAuth := true }
          (sendAuth lib encode { peer with mState := .GOT_AUTH, reachedAuth := true }) := by
        apply sendMessage_talks
        exact greeted
      apply first.trans
      apply sendMessage_talks
      rw [first.remotePublic]
      exact greeted
    · exact Talks.refl _
  split
  · exact answered.trans (sendErrorAndDrop_talks _ _)
  · apply answered.trans
    apply sendMessage_talks
    rw [answered.remotePublic]
    exact greeted

theorem recvAuth_closing (state : peer.mState ≠ .GOT_HELLO) (going : peer.shouldAbort node = false) :
    Talks peer (peer.recvAuth lib encode node) ∧
      (peer.recvAuth lib encode node).mState = .CLOSING := by
  unfold recvAuth
  rw [if_pos state]
  exact ⟨sendErrorAndDrop_talks _ _, sendErrorAndDrop_state going _ _⟩

section Dispatch

variable {auth : PeerAuth Secret Key}

theorem dispatch_error (going : peer.shouldAbort node = false) {code : ErrorCode} {text : String} :
    peer.dispatch lib encode config node auth (.ERROR_MSG code text) = some (auth, peer.drop node) := by
  unfold dispatch
  rw [if_neg (by rw [going]; decide)]

theorem dispatch_hello (going : peer.shouldAbort node = false) {elo : Hello} :
    peer.dispatch lib encode config node auth (.HELLO elo) =
      peer.recvHello lib encode config node auth elo := by
  unfold dispatch
  rw [if_neg (by rw [going]; decide)]

theorem dispatch_auth (going : peer.shouldAbort node = false) {unused : Int} :
    peer.dispatch lib encode config node auth (.AUTH unused) =
      some (auth, peer.recvAuth lib encode node) := by
  unfold dispatch
  rw [if_neg (by rw [going]; decide)]

end Dispatch

theorem dispatch_content {auth : PeerAuth Secret Key} {message : VIIMessage Body}
    (going : peer.shouldAbort node = false) (sealing : message.unsealed = false)
    (content : message.isAuth = false) :
    peer.dispatch lib encode config node auth message =
      if peer.isAuthenticated then some (auth, peer.answer lib encode node message)
      else some (auth, peer.drop node) := by
  unfold dispatch
  rw [if_neg (by rw [going]; decide)]
  cases message with
  | ERROR_MSG code msg => cases sealing
  | HELLO elo => cases sealing
  | AUTH unused => cases content
  | GET_SCP_STATE seq => cases peer.isAuthenticated <;> rfl
  | content type body => cases peer.isAuthenticated <;> rfl

theorem dispatch_early {auth auth' : PeerAuth Secret Key} {message : VIIMessage Body}
    {decoded : Option (AuthenticatedMessage Key Body)} (cache : auth.CacheSound lib)
    (sound : before.Sound lib auth.mECDHSecretKey) (going : before.shouldAbort node = false)
    (early : before.mState = .CONNECTING ∨ before.mState = .CONNECTED)
    (did : before.dispatch lib encode config node auth message = some (auth', after)) :
    before.Received lib encode auth.mECDHSecretKey decoded (after.note message) ∧
      auth'.CacheSound lib ∧ auth'.mECDHSecretKey = auth.mECDHSecretKey := by
  have state : before.mState ≠ .GOT_HELLO ∧ before.isAuthenticated = false := by
    unfold isAuthenticated
    rcases early with is | is
    · rw [is]
      decide
    · rw [is]
      decide
  rcases message.kinds with ⟨code, text, rfl⟩ | ⟨elo, rfl⟩ | ⟨unused, rfl⟩ | ⟨sealing, content⟩
  · rw [dispatch_error going] at did
    cases did
    rw [note_of_unsealed rfl]
    exact ⟨.talks (drop_talks node before), cache, rfl⟩
  · rw [dispatch_hello going] at did
    rw [note_of_unsealed rfl]
    exact recvHello_received cache sound early did
  · rw [dispatch_auth going] at did
    cases did
    have refused : Talks before (before.recvAuth lib encode node) ∧ _ :=
      recvAuth_closing state.1 going
    rw [note_of_closing refused.2]
    exact ⟨.talks refused.1, cache, rfl⟩
  · rw [dispatch_content going sealing content, if_neg (by rw [state.2]; decide)] at did
    cases did
    rw [note_of_closing (drop_state going)]
    exact ⟨.talks (drop_talks node before), cache, rfl⟩

theorem dispatch_checked {auth auth' : PeerAuth Secret Key} {msg : AuthenticatedMessage Key Body}
    (cache : auth.CacheSound lib) (greeted : before.remotePublic ≠ none)
    (going : before.shouldAbort node = false)
    (shaken : before.mState = .GOT_HELLO ∨ before.mState = .GOT_AUTH)
    (noError : msg.message.isError = false) (number : msg.sequence = before.mRecvMacSeq)
    (code : msg.mac = lib.hmacSha256 before.mRecvMacKey (encode msg.sequence msg.message))
    (did : before.countRecv.dispatch lib encode config node auth msg.message = some (auth', after)) :
    before.Received lib encode auth.mECDHSecretKey (some msg) (after.note msg.message) ∧
      auth'.CacheSound lib ∧ auth'.mECDHSecretKey = auth.mECDHSecretKey := by
  have opened : before.mState ≠ .CLOSING := by
    rcases shaken with is | is
    · rw [is]
      decide
    · rw [is]
      decide
  have countedGoing : before.countRecv.shouldAbort node = false := going
  have countedGreeted : before.countRecv.remotePublic ≠ none := greeted
  obtain ⟨sequence, message, mac⟩ := msg
  rcases message.kinds with ⟨code, text, rfl⟩ | ⟨elo, rfl⟩ | ⟨unused, rfl⟩ | ⟨sealing, content⟩
  · cases noError
  · rw [dispatch_hello countedGoing] at did
    unfold recvHello at did
    rw [if_pos (by rcases shaken with is | is <;> simp [countRecv, is, PeerState.value])] at did
    cases did
    rw [note_of_unsealed rfl]
    exact ⟨.talks ((drop_talks node _).closing (drop_state countedGoing)), cache, rfl⟩
  · rw [dispatch_auth countedGoing] at did
    cases did
    rcases shaken with state | state
    · have countedState : before.countRecv.mState = .GOT_HELLO := state
      refine ⟨.handles _ rfl greeted opened number code rfl (.inr rfl) ?_, cache, rfl⟩
      simp only [handling, VIIMessage.isAuth, Bool.or_true]
      exact recvAuth_talks countedGreeted countedState
    · have countedState : before.countRecv.mState ≠ .GOT_HELLO := by
        change before.mState ≠ _
        rw [state]
        decide
      have refused : Talks before.countRecv (before.countRecv.recvAuth lib encode node) ∧ _ :=
        recvAuth_closing countedState countedGoing
      rw [note_of_closing refused.2]
      exact ⟨.talks (refused.1.closing refused.2), cache, rfl⟩
  · rw [dispatch_content countedGoing sealing content] at did
    split at did
    · rename_i authenticated
      have state : before.mState = .GOT_AUTH := of_decide_eq_true authenticated
      cases did
      have talks : Talks before.countRecv (before.countRecv.answer lib encode node message) :=
        answer_talks countedGreeted message
      refine ⟨.handles _ rfl greeted opened number code sealing (.inl state) ?_, cache, rfl⟩
      simp only [handling, content, Bool.or_false, ← state]
      exact talks
    · cases did
      rw [note_of_closing (drop_state countedGoing)]
      exact ⟨.talks ((drop_talks node _).closing (drop_state countedGoing)), cache, rfl⟩

section Verification

variable [DecidableEq Key] {auth auth' : PeerAuth Secret Key}

theorem recvMessage_received {msg : AuthenticatedMessage Key Body} (cache : auth.CacheSound lib)
    (sound : before.Sound lib auth.mECDHSecretKey)
    (did : before.recvMessage lib encode config node auth msg = some (auth', after)) :
    before.Received lib encode auth.mECDHSecretKey (some msg) after ∧ auth'.CacheSound lib ∧
      auth'.mECDHSecretKey = auth.mECDHSecretKey := by
  unfold recvMessage at did
  split at did
  · cases did
    exact ⟨.talks (Talks.refl before), cache, rfl⟩
  rename_i goesOn
  have going : before.shouldAbort node = false := by simpa using goesOn
  have opened : before.mState ≠ .CLOSING := by
    intro closing
    simp [shouldAbort, closing] at going
  have countedGoing : before.countRecv.shouldAbort node = false := going
  have refused : ∀ text, before.Received lib encode auth.mECDHSecretKey (some msg)
      (before.countRecv.sendErrorAndDrop lib encode node .ERR_AUTH text) := fun text =>
    .talks ((sendErrorAndDrop_talks _ _).closing (sendErrorAndDrop_state countedGoing _ _))
  unfold verify at did
  by_cases checks : before.mState.value ≥ PeerState.GOT_HELLO.value ∧ ¬ msg.message.isError
  · rw [if_pos checks] at did
    have shaken : before.mState = .GOT_HELLO ∨ before.mState = .GOT_AUTH := by
      have high := checks.1
      revert high opened
      cases before.mState <;> decide
    by_cases number : msg.sequence = before.mRecvMacSeq
    · rw [if_neg (fun different => different number)] at did
      by_cases code : lib.hmacSha256Verify msg.mac before.mRecvMacKey
          (encode msg.sequence msg.message)
      · rw [if_neg (fun wrong => wrong code)] at did
        obtain ⟨pair, dispatched, is⟩ := Option.map_eq_some_iff.mp did
        cases is
        have noError : msg.message.isError = false := by simpa using checks.2
        exact dispatch_checked cache (sound.shaken shaken) going shaken noError number
          (of_decide_eq_true code) dispatched
      · rw [if_pos code] at did
        cases did
        exact ⟨refused _, cache, rfl⟩
    · rw [if_pos number] at did
      cases did
      exact ⟨refused _, cache, rfl⟩
  · rw [if_neg checks] at did
    obtain ⟨pair, dispatched, is⟩ := Option.map_eq_some_iff.mp did
    cases is
    rcases msg.message.kinds with ⟨code, text, error⟩ | others
    · simp only [error] at dispatched ⊢
      rw [dispatch_error going] at dispatched
      cases dispatched
      rw [note_of_unsealed rfl]
      exact ⟨.talks (drop_talks node before), cache, rfl⟩
    · have noError : msg.message.isError = false := by
        rcases others with ⟨elo, is⟩ | ⟨unused, is⟩ | ⟨sealing, _⟩
        · rw [is]
          rfl
        · rw [is]
          rfl
        · revert sealing
          cases msg.message <;> simp [VIIMessage.unsealed, VIIMessage.isError]
      have early : before.mState = .CONNECTING ∨ before.mState = .CONNECTED := by
        rw [noError] at checks
        revert checks opened
        cases before.mState <;> decide
      exact dispatch_early cache sound going early dispatched

theorem recvBytes_received {decoded : Option (AuthenticatedMessage Key Body)}
    (cache : auth.CacheSound lib) (sound : before.Sound lib auth.mECDHSecretKey)
    (did : before.recvBytes lib encode config node auth decoded = some (auth', after)) :
    before.Received lib encode auth.mECDHSecretKey decoded after ∧ auth'.CacheSound lib ∧
      auth'.mECDHSecretKey = auth.mECDHSecretKey := by
  cases decoded with
  | none =>
      cases did
      exact ⟨.talks (sendErrorAndDrop_talks _ _), cache, rfl⟩
  | some msg => exact recvMessage_received cache sound did

end Verification

/-! ### What is kept -/

variable {secret : Secret}

theorem Keyed.congr {remote nonce : Uint256} (keyed : before.Keyed lib secret remote nonce)
    (role : after.mRole = before.mRole) (sendNonce : after.mSendNonce = before.mSendNonce)
    (recvNonce : after.mRecvNonce = before.mRecvNonce)
    (sendKey : after.mSendMacKey = before.mSendMacKey)
    (recvKey : after.mRecvMacKey = before.mRecvMacKey) : after.Keyed lib secret remote nonce := by
  refine ⟨recvNonce.trans keyed.recvNonce, ?_, ?_⟩
  · rw [role, sendNonce, sendKey]
    exact keyed.sends
  · rw [role, sendNonce, recvKey]
    exact keyed.receives

variable (before after) in
/-- What never changes about an end, and what does not change after the greeting. -/
structure Keeps : Prop where
  role : after.mRole = before.mRole
  sendNonce : after.mSendNonce = before.mSendNonce
  sent : before.sent <+: after.sent
  remotePublic : before.remotePublic ≠ none → after.remotePublic = before.remotePublic
  recvNonce : before.remotePublic ≠ none → after.mRecvNonce = before.mRecvNonce
  sendKey : before.remotePublic ≠ none → after.mSendMacKey = before.mSendMacKey
  recvKey : before.remotePublic ≠ none → after.mRecvMacKey = before.mRecvMacKey

theorem Keeps.refl (peer : Peer Key Body) : Keeps peer peer :=
  ⟨rfl, rfl, List.prefix_rfl, fun _ => rfl, fun _ => rfl, fun _ => rfl, fun _ => rfl⟩

theorem Keeps.trans (first : Keeps before mid) (second : Keeps mid after) : Keeps before after := by
  have greeted : before.remotePublic ≠ none → mid.remotePublic ≠ none := by
    intro greeted
    rw [first.remotePublic greeted]
    exact greeted
  exact ⟨second.role.trans first.role, second.sendNonce.trans first.sendNonce,
    first.sent.trans second.sent,
    fun early => (second.remotePublic (greeted early)).trans (first.remotePublic early),
    fun early => (second.recvNonce (greeted early)).trans (first.recvNonce early),
    fun early => (second.sendKey (greeted early)).trans (first.sendKey early),
    fun early => (second.recvKey (greeted early)).trans (first.recvKey early)⟩

theorem Talks.keeps (talks : Talks before after) : Keeps before after := by
  exact ⟨talks.field Peer.mRole fun _ _ _ _ _ => rfl,
    talks.field Peer.mSendNonce fun _ _ _ _ _ => rfl,
    talks.sent,
    fun _ => talks.remotePublic,
    fun _ => talks.field Peer.mRecvNonce fun _ _ _ _ _ => rfl,
    fun _ => talks.field Peer.mSendMacKey fun _ _ _ _ _ => rfl,
    fun _ => talks.field Peer.mRecvMacKey fun _ _ _ _ _ => rfl⟩

theorem Talks.opened (talks : Talks before after) (opened : after.mState ≠ .CLOSING) :
    after.mState = before.mState := talks.state.resolve_right opened

theorem Talks.sound (talks : Talks before after) (sound : before.Sound lib secret) :
    after.Sound lib secret := by
  have remote := talks.remotePublic
  have reading : after.reading = before.reading := talks.field Peer.reading fun _ _ _ _ _ => rfl
  have handled : after.handled = before.handled := talks.field Peer.handled fun _ _ _ _ _ => rfl
  have reached : after.reachedAuth = before.reachedAuth := talks.field Peer.reachedAuth fun _ _ _ _ _ => rfl
  refine ⟨?_, ?_, ?_, ?_, ?_, ?_, ?_, ?_⟩
  · rw [remote, reading]
    exact sound.reads
  · intro shaken
    have opened : after.mState ≠ .CLOSING := by
      rcases shaken with is | is
      · rw [is]
        decide
      · rw [is]
        decide
    rw [talks.opened opened] at shaken
    rw [remote]
    exact sound.shaken shaken
  · intro ungreeted
    rw [remote] at ungreeted
    obtain ⟨sent, sealed⟩ := talks.silent ungreeted
    rw [sent, sealed, handled, reached]
    exact sound.fresh ungreeted
  · intro remotePublic is
    rw [remote] at is
    obtain ⟨nonce, keyed⟩ := sound.keyed remotePublic is
    have keeps := talks.keeps
    have greeted : before.remotePublic ≠ none := by
      rw [is]
      exact Option.some_ne_none remotePublic
    exact ⟨nonce, keyed.congr keeps.role keeps.sendNonce (keeps.recvNonce greeted)
      (keeps.sendKey greeted) (keeps.recvKey greeted)⟩
  · intro greeted
    rw [remote] at greeted
    exact talks.sealing (sound.sealing greeted)
  · intro greeted opened
    rw [remote] at greeted
    have openedBefore : before.mState ≠ .CLOSING := by
      rw [← talks.opened opened]
      exact opened
    rw [talks.counted opened, handled]
    exact sound.counted greeted openedBefore
  · intro early
    have opened : after.mState ≠ .CLOSING := by
      rcases early with is | is
      · rw [is]
        decide
      · rw [is]
        decide
    rw [talks.opened opened] at early
    rw [remote]
    exact sound.early early
  · intro authenticated
    rw [talks.opened (by rw [authenticated]; decide)] at authenticated
    rw [reached]
    exact sound.authenticated authenticated

theorem Greets.keeps (greets : Greets lib before after secret) : Keeps before after := by
  have ungreeted := greets.ungreeted
  refine ⟨greets.role, greets.sendNonce, ?_, fun greeted => absurd ungreeted greeted,
    fun greeted => absurd ungreeted greeted, fun greeted => absurd ungreeted greeted,
    fun greeted => absurd ungreeted greeted⟩
  have same : before.sent = after.sent := congrArg coded greets.written.symm
  exact same ▸ List.prefix_rfl

theorem Greets.sound (greets : Greets lib before after secret)
    (sound : before.Sound lib secret) (reading : before.reading) :
    after.Sound lib secret := by
  obtain ⟨remote, nonce, isGreeted, keyed⟩ := greets.keyed
  obtain ⟨sent, sealed, handled, reached⟩ := sound.fresh greets.ungreeted
  have known : after.remotePublic ≠ none := by
    rw [isGreeted]
    exact Option.some_ne_none remote
  have nothing : after.sent = [] := by
    unfold Peer.sent at sent ⊢
    rw [greets.written]
    exact sent
  refine ⟨?_, fun _ => known, fun ungreeted => absurd ungreeted known, ?_, fun _ => ⟨?_, ?_⟩, ?_, ?_, ?_⟩
  · intro _
    rw [greets.reading]
    exact reading
  · intro other is
    cases is.symm.trans isGreeted
    exact ⟨nonce, keyed⟩
  · rw [greets.sealed, sealed, nothing]
    rfl
  · intro _
    rw [greets.sendSeq, nothing]
    rfl
  · intro _ _
    rw [greets.recvSeq, greets.handled, handled]
    rfl
  · intro early
    rw [greets.state] at early
    rcases early with is | is
    · cases is
    · cases is
  · intro authenticated
    cases greets.state.symm.trans authenticated

theorem note_field {α : Type} (msg : VIIMessage Body) (f : Peer Key Body → α)
    (others : ∀ handled, f { after with handled } = f after) : f (after.note msg) = f after := by
  unfold note
  split
  · rfl
  · exact others _

section Handles

variable {message : VIIMessage Body}

theorem handling_keeps (talks : Talks (before.handling message) after) :
    Keeps before (after.note message) := by
  have keeps := talks.keeps
  refine ⟨?_, ?_, ?_, fun greeted => ?_, fun greeted => ?_, fun greeted => ?_, fun greeted => ?_⟩
  · rw [note_field message Peer.mRole fun _ => rfl]
    exact keeps.role
  · rw [note_field message Peer.mSendNonce fun _ => rfl]
    exact keeps.sendNonce
  · rw [note_field message Peer.sent fun _ => rfl]
    exact keeps.sent
  · rw [note_field message Peer.remotePublic fun _ => rfl]
    exact keeps.remotePublic greeted
  · rw [note_field message Peer.mRecvNonce fun _ => rfl]
    exact keeps.recvNonce greeted
  · rw [note_field message Peer.mSendMacKey fun _ => rfl]
    exact keeps.sendKey greeted
  · rw [note_field message Peer.mRecvMacKey fun _ => rfl]
    exact keeps.recvKey greeted

theorem handling_sound (sound : before.Sound lib secret) (greeted : before.remotePublic ≠ none)
    (opened : before.mState ≠ .CLOSING) (sealing : message.unsealed = false)
    (authenticated : before.mState = .GOT_AUTH ∨ message.isAuth)
    (talks : Talks (before.handling message) after) :
    (after.note message).Sound lib secret := by
  have keeps := handling_keeps talks
  have remote := keeps.remotePublic greeted
  have known : (after.note message).remotePublic ≠ none := by
    rw [remote]
    exact greeted
  have state : (after.note message).mState = after.mState := note_field message Peer.mState fun _ => rfl
  have handlingSealing : (before.handling message).Sealing :=
    ⟨(sound.sealing greeted).codes, fun _ => (sound.sealing greeted).next opened⟩
  have afterSealing := talks.sealing handlingSealing
  refine ⟨?_, fun _ => known, fun ungreeted => absurd ungreeted known, ?_, fun _ => ⟨?_, ?_⟩, ?_, ?_, ?_⟩
  · intro _
    rw [note_field message Peer.reading fun _ => rfl,
      talks.field Peer.reading fun _ _ _ _ _ => rfl]
    exact sound.reads greeted
  · intro remotePublic is
    rw [remote] at is
    obtain ⟨nonce, keyed⟩ := sound.keyed remotePublic is
    exact ⟨nonce, keyed.congr keeps.role keeps.sendNonce (keeps.recvNonce greeted)
      (keeps.sendKey greeted) (keeps.recvKey greeted)⟩
  · rw [note_field message Peer.sealed fun _ => rfl, note_field message Peer.sent fun _ => rfl,
      note_field message Peer.mSendMacKey fun _ => rfl]
    exact afterSealing.codes
  · rw [state, note_field message Peer.mSendMacSeq fun _ => rfl,
      note_field message Peer.sent fun _ => rfl]
    exact afterSealing.next
  · intro _ still
    rw [state] at still
    have number := sound.counted greeted opened
    have noted : (after.note message).handled = before.handled ++ [message] := by
      have handled : after.handled = before.handled :=
        talks.field Peer.handled fun _ _ _ _ _ => rfl
      unfold note
      rw [if_neg (by simp [sealing, still]), handled]
    rw [note_field message Peer.mRecvMacSeq fun _ => rfl, talks.counted still, noted]
    change before.mRecvMacSeq + 1 = _
    rw [number]
    simp
  · intro early
    rw [state] at early
    have late : after.mState = .GOT_AUTH ∨ after.mState = .CLOSING := talks.state
    rcases late with is | is
    · rw [is] at early
      simp at early
    · rw [is] at early
      simp at early
  · intro _
    rw [note_field message Peer.reachedAuth fun _ => rfl,
      talks.field Peer.reachedAuth fun _ _ _ _ _ => rfl]
    rcases authenticated with is | isAuth
    · simp [handling, sound.authenticated is]
    · simp [handling, isAuth]

theorem handling_handled (talks : Talks (before.handling message) after) :
    (after.note message).handled = before.handled ∨
      (after.note message).handled = before.handled ++ [message] := by
  have handled : after.handled = before.handled := talks.field Peer.handled fun _ _ _ _ _ => rfl
  unfold note
  split
  · exact .inl handled
  · right
    rw [handled]

theorem handling_reached (talks : Talks (before.handling message) after)
    (reached : (after.note message).reachedAuth) : before.reachedAuth ∨ message.isAuth := by
  rw [note_field message Peer.reachedAuth fun _ => rfl,
    talks.field Peer.reachedAuth fun _ _ _ _ _ => rfl] at reached
  simpa [handling] using reached

end Handles

theorem Received.keeps {decoded : Option (AuthenticatedMessage Key Body)}
    (received : before.Received lib encode secret decoded after) : Keeps before after := by
  cases received with
  | talks talks => exact talks.keeps
  | greets greets talks => exact greets.keeps.trans talks.keeps
  | handles msg given greeted opened number code sealing authenticated talks => exact handling_keeps talks

theorem Received.sound {decoded : Option (AuthenticatedMessage Key Body)}
    (received : before.Received lib encode secret decoded after)
    (sound : before.Sound lib secret) (reading : before.reading) :
    after.Sound lib secret := by
  cases received with
  | talks talks => exact talks.sound sound
  | greets greets talks => exact talks.sound (greets.sound sound reading)
  | handles msg given greeted opened number code sealing authenticated talks =>
      exact handling_sound sound greeted opened sealing authenticated talks

theorem sound_of_ungreeted (ungreeted : peer.remotePublic = none)
    (shaken : ¬ (peer.mState = .GOT_HELLO ∨ peer.mState = .GOT_AUTH))
    (fresh : peer.sent = [] ∧ peer.sealed = [] ∧ peer.handled = [] ∧ peer.reachedAuth = false) :
    peer.Sound lib secret where
  reads greeted := absurd ungreeted greeted
  shaken is := absurd is shaken
  fresh _ := fresh
  keyed remote is := by cases ungreeted.symm.trans is
  sealing greeted := absurd ungreeted greeted
  counted greeted := absurd ungreeted greeted
  early _ := ungreeted
  authenticated is := absurd (.inr is) shaken

theorem create_sound (mRole : PeerRole) (mSendNonce : Uint256) :
    (create lib mRole mSendNonce : Peer Key Body).Sound lib secret := by
  apply sound_of_ungreeted rfl
  · cases mRole with
    | REMOTE_CALLED_US => simp [create]
    | WE_CALLED_REMOTE => simp [create]
  · exact ⟨rfl, rfl, rfl, rfl⟩

theorem connectHandler_spec {auth : PeerAuth Secret Key} (sound : before.Sound lib secret)
    (unread : before.reading = false) {error : Bool} {result : PeerAuth Secret Key × Peer Key Body}
    (did : before.connectHandler lib encode config node auth error = result) :
    result.2.Sound lib secret ∧ Keeps before result.2 ∧
      result.2.handled = before.handled ∧ result.2.reachedAuth = before.reachedAuth := by
  have ungreeted : before.remotePublic = none := by
    by_contra greeted
    rw [sound.reads greeted] at unread
    cases unread
  have told : ∀ connected : Peer Key Body, connected.Sound lib secret →
      Keeps before connected → connected.handled = before.handled →
      connected.reachedAuth = before.reachedAuth → Talks connected result.2 →
      result.2.Sound lib secret ∧ Keeps before result.2 ∧
        result.2.handled = before.handled ∧ result.2.reachedAuth = before.reachedAuth := by
    intro connected connectedSound keeps handled reached talks
    exact ⟨talks.sound connectedSound, keeps.trans talks.keeps,
      (talks.field Peer.handled fun _ _ _ _ _ => rfl).trans handled,
      (talks.field Peer.reachedAuth fun _ _ _ _ _ => rfl).trans reached⟩
  unfold connectHandler at did
  split at did
  · cases did
    exact told before sound (Keeps.refl before) rfl rfl (drop_talks node before)
  · rw [← did] at told ⊢
    refine told { before with
        reading := before.reading || !before.shouldAbort node, mState := .CONNECTED }
      ?_ ?_ rfl rfl (sendHello_talks auth)
    · apply sound_of_ungreeted
      · exact ungreeted
      · simp
      · exact sound.fresh ungreeted
    · exact ⟨rfl, rfl, List.prefix_rfl, fun _ => rfl, fun _ => rfl, fun _ => rfl, fun _ => rfl⟩

theorem connectHandler_after {auth : PeerAuth Secret Key} (cache : auth.CacheSound lib) (error : Bool) :
    (peer.connectHandler lib encode config node auth error).1.CacheSound lib ∧
      (peer.connectHandler lib encode config node auth error).1.mECDHSecretKey =
        auth.mECDHSecretKey := by
  unfold connectHandler
  split
  · exact ⟨cache, rfl⟩
  · exact sendHello_after cache

end Peer

end ViiCore.Overlay
