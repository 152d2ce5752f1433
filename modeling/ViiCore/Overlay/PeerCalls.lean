import ViiCore.Overlay.PeerSession

/-!
What a call does to the role, the key and the state of a peer.

The key is given once, in a greeting that is taken before any other; every other call leaves the
state or drops the peer, but for the end of the handshake and a connection that is made.
-/

namespace ViiCore.Overlay

variable {Secret Key Body : Type}

namespace Peer

variable {lib : Primitives Secret Key} {encode : Encoding Body} {config : Config}
  {node : NodeState Body} {before mid after peer : Peer Key Body}

variable (before after) in
/-- The role and the key stay, and so does the state unless the peer is dropped. -/
structure Stays : Prop where
  role : after.mRole = before.mRole
  id : after.mPeerID = before.mPeerID
  state : after.mState = before.mState ∨ after.mState = .CLOSING

namespace Stays

theorem refl (peer : Peer Key Body) : Stays peer peer := ⟨rfl, rfl, .inl rfl⟩

theorem trans (first : Stays before mid) (second : Stays mid after) : Stays before after where
  role := second.role.trans first.role
  id := second.id.trans first.id
  state := by
    rcases second.state with same | closing
    · rw [same]
      exact first.state
    · exact .inr closing

end Stays

theorem Talks.stays (talks : Talks before after) : Stays before after where
  role := talks.field Peer.mRole fun _ _ _ _ _ => rfl
  id := talks.field Peer.mPeerID fun _ _ _ _ _ => rfl
  state := talks.state

theorem sendMessage_stays (msg : VIIMessage Body) :
    Stays peer (peer.sendMessage lib encode msg) := by
  unfold sendMessage write
  simp only
  split
  · split
    · exact Stays.refl peer
    · exact ⟨rfl, rfl, .inl rfl⟩
  · split
    · exact ⟨rfl, rfl, .inl rfl⟩
    · exact ⟨rfl, rfl, .inl rfl⟩

theorem going_of_opened (opened : peer.mState ≠ .CLOSING) (running : node.isShuttingDown = false) :
    peer.shouldAbort node = false := by
  simp [shouldAbort, opened, running]

theorem answer_stays (msg : VIIMessage Body) : Stays peer (peer.answer lib encode node msg) := by
  unfold answer
  generalize node.answers msg = replies
  induction replies generalizing peer with
  | nil => exact Stays.refl peer
  | cons reply replies ih => exact (sendMessage_stays reply).trans ih

theorem note_stays (msg : VIIMessage Body) : Stays peer (peer.note msg) := by
  unfold note
  split
  · exact Stays.refl peer
  · exact ⟨rfl, rfl, .inl rfl⟩

theorem drop_stays : Stays peer (peer.drop node) := (drop_talks node peer).stays

theorem sendErrorAndDrop_stays (error : ErrorCode) (message : String) :
    Stays peer (peer.sendErrorAndDrop lib encode node error message) :=
  (sendErrorAndDrop_talks error message).stays

theorem sendHello_stays (auth : PeerAuth Secret Key) :
    Stays peer (peer.sendHello lib encode config node auth).2 := (sendHello_talks auth).stays

theorem sendHello_state (auth : PeerAuth Secret Key) :
    (peer.sendHello lib encode config node auth).2.mState = peer.mState := by
  unfold sendHello
  simp only
  rw [sendMessage_state]

theorem sendPeers_stays : Stays peer (peer.sendPeers lib encode node) := sendMessage_stays _

theorem sendAuth_stays : Stays peer (peer.sendAuth lib encode) := sendMessage_stays _

theorem checkHello_stays {elo : Hello} (going : peer.shouldAbort node = false) :
    Stays peer (peer.checkHello lib encode config node elo) ∧
      ((peer.checkHello lib encode config node elo).mState ≠ .CLOSING →
        node.alreadyConnected elo.peerID = false) := by
  have refused (error : ErrorCode) (message : String) :
      Stays peer (peer.sendErrorAndDrop lib encode node error message) ∧
        ((peer.sendErrorAndDrop lib encode node error message).mState ≠ .CLOSING →
          node.alreadyConnected elo.peerID = false) :=
    ⟨sendErrorAndDrop_stays error message,
      fun opened => absurd (sendErrorAndDrop_state going error message) opened⟩
  unfold checkHello
  split
  · exact refused _ _
  split
  · exact refused _ _
  split
  · exact refused _ _
  split
  · exact refused _ _
  split
  · exact refused _ _
  rename_i different
  have unknown : node.alreadyConnected elo.peerID = false := by simpa using different
  split
  · exact ⟨sendAuth_stays, fun _ => unknown⟩
  · exact ⟨Stays.refl peer, fun _ => unknown⟩

variable (lib config node before after) in
/-- A greeting is taken, and refused after that where its key is known. -/
structure Takes (elo : Hello) : Prop where
  early : before.mState = .CONNECTING ∨ before.mState = .CONNECTED
  certified : PeerAuth.verifyRemoteAuthCert lib config.networkID node.timeNow elo.peerID elo.cert
  role : after.mRole = before.mRole
  id : after.mPeerID = some elo.peerID
  state : after.mState = .GOT_HELLO ∧ node.alreadyConnected elo.peerID = false ∨
    after.mState = .CLOSING

theorem takeHello_fields {auth auth' : PeerAuth Secret Key} {elo : Hello}
    (took : peer.takeHello lib auth elo = some (auth', after)) :
    after.mRole = peer.mRole ∧ after.mPeerID = some elo.peerID ∧ after.mState = .GOT_HELLO := by
  unfold takeHello at took
  split at took
  · cases took
  split at took
  · cases took
  cases took
  exact ⟨rfl, rfl, rfl⟩

theorem recvHello_takes {auth auth' : PeerAuth Secret Key} {elo : Hello}
    (running : node.isShuttingDown = false) (opened : peer.mState ≠ .CLOSING)
    (did : peer.recvHello lib encode config node auth elo = some (auth', after)) :
    Stays peer after ∧ after.mState = .CLOSING ∨ Takes lib config node peer after elo := by
  have going : peer.shouldAbort node = false := going_of_opened opened running
  have dropped : Stays peer (peer.drop node) ∧ (peer.drop node).mState = .CLOSING :=
    ⟨drop_stays, drop_state going⟩
  unfold recvHello at did
  split at did
  · cases did
    exact .inl dropped
  rename_i notGreeted
  split at did
  · cases did
    exact .inl dropped
  rename_i certified
  split at did
  · cases did
    exact .inl dropped
  split at did
  · cases did
  rename_i mid taken took
  obtain ⟨role, id, state⟩ := takeHello_fields took
  have early : peer.mState = .CONNECTING ∨ peer.mState = .CONNECTED := by
    cases known : peer.mState with
    | CONNECTING => exact .inl rfl
    | CONNECTED => exact .inr rfl
    | GOT_HELLO => simp [known, PeerState.value] at notGreeted
    | GOT_AUTH => simp [known, PeerState.value] at notGreeted
    | CLOSING => exact absurd known opened
  -- The answer and the checks come after the greeting was taken.
  have checked {asked : Peer Key Body} (stays : Stays taken asked)
      (greeted : asked.mState = .GOT_HELLO)
      (result : after = asked.checkHello lib encode config node elo) :
      Takes lib config node peer after elo := by
    have keeps : asked.shouldAbort node = false :=
      going_of_opened (by rw [greeted]; decide) running
    obtain ⟨rest, unknown⟩ : Stays asked (asked.checkHello lib encode config node elo) ∧
        ((asked.checkHello lib encode config node elo).mState ≠ .CLOSING →
          node.alreadyConnected elo.peerID = false) := checkHello_stays keeps
    rw [← result] at rest unknown
    refine ⟨early, by simpa using certified, ?_, ?_, ?_⟩
    · exact rest.role.trans (stays.role.trans role)
    · exact rest.id.trans (stays.id.trans id)
    · rcases rest.state with same | closing
      · have kept : after.mState = .GOT_HELLO := same.trans greeted
        exact .inl ⟨kept, unknown (by rw [kept]; decide)⟩
      · exact .inr closing
  split at did
  · have result := congrArg (fun found => found.map Prod.snd) did
    simp only [Option.map_some, Option.some.injEq] at result
    apply Or.inr
    apply checked (sendHello_stays mid) _ result.symm
    rw [sendHello_state]
    exact state
  · have result := congrArg (fun found => found.map Prod.snd) did
    simp only [Option.map_some, Option.some.injEq] at result
    exact .inr (checked (Stays.refl taken) state result.symm)

theorem recvAuth_stays (state : peer.mState = .GOT_HELLO) :
    Stays { peer with mState := .GOT_AUTH, reachedAuth := true } (peer.recvAuth lib encode node) := by
  unfold recvAuth
  rw [if_neg (by rw [state]; decide)]
  simp only
  generalize asked : (if peer.mRole = .REMOTE_CALLED_US then _ else _) = after
  have said : Stays { peer with mState := .GOT_AUTH, reachedAuth := true } after := by
    rw [← asked]
    split
    · exact sendAuth_stays.trans sendPeers_stays
    · exact Stays.refl _
  split
  · exact said.trans (sendErrorAndDrop_stays _ _)
  · exact said.trans (sendMessage_stays _)

theorem recvAuth_early (state : peer.mState ≠ .GOT_HELLO) :
    Stays peer (peer.recvAuth lib encode node) := by
  unfold recvAuth
  rw [if_pos state]
  exact sendErrorAndDrop_stays _ _

theorem dispatch_stays {auth auth' : PeerAuth Secret Key} {message : VIIMessage Body}
    (other : (∀ elo, message ≠ .HELLO elo) ∧ ∀ unused, message ≠ .AUTH unused)
    (did : peer.dispatch lib encode config node auth message = some (auth', after)) :
    Stays peer after := by
  unfold dispatch at did
  split at did
  · cases did
    exact Stays.refl _
  have handled {message : VIIMessage Body}
      (did : (if ¬ peer.isAuthenticated then some (auth, peer.drop node)
        else some (auth, peer.answer lib encode node message)) = some (auth', after)) :
      Stays peer after := by
    split at did
    · cases did
      exact drop_stays
    · cases did
      exact answer_stays message
  cases message with
  | ERROR_MSG code text =>
      cases did
      exact drop_stays
  | HELLO elo => exact absurd rfl (other.1 elo)
  | AUTH unused => exact absurd rfl (other.2 unused)
  | GET_SCP_STATE seq => exact handled did
  | content type body => exact handled did

variable (lib encode node peer) in
theorem verify_stays [DecidableEq Key] (msg : AuthenticatedMessage Key Body) :
    Stays peer (peer.verify lib encode node msg).2 ∧
      ∀ message, (peer.verify lib encode node msg).1 = some message →
        (peer.verify lib encode node msg).2.mState = peer.mState := by
  have counted : Stays peer peer.countRecv := ⟨rfl, rfl, .inl rfl⟩
  unfold verify
  split
  · split
    · exact ⟨counted.trans (sendErrorAndDrop_stays _ _), fun message given => by cases given⟩
    split
    · exact ⟨counted.trans (sendErrorAndDrop_stays _ _), fun message given => by cases given⟩
    · exact ⟨counted, fun _ _ => rfl⟩
  · exact ⟨Stays.refl peer, fun _ _ => rfl⟩

variable (lib encode config node peer) in
theorem connectHandler_fields (auth : PeerAuth Secret Key) :
    (peer.connectHandler lib encode config node auth false).2.mRole = peer.mRole ∧
      (peer.connectHandler lib encode config node auth false).2.mState = .CONNECTED := by
  unfold connectHandler
  rw [if_neg (by decide)]
  simp only
  constructor
  · exact (sendHello_stays auth).role
  · exact sendHello_state auth

end Peer

end ViiCore.Overlay
