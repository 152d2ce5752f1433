import Mathlib.Data.Finset.Sort
import Mathlib.Data.List.AList
import ViiCore.Library.Execution
import ViiCore.SCP.BallotProtocol
import ViiCore.SCP.QuorumSetUtils

/-!
The nomination protocol of one slot (`NominationProtocol.cpp`).

Values are an arbitrary linear order whose least element `⊥` is the empty string, as for
ballots. `emitNomination` processes the node's own statement and so re-enters
`processEnvelope`; the source does not bound how deep this goes, so the model takes a depth
and has a fault of its own for a recursion that is deeper. The driver and the ballot
protocol of the slot are asked through a `NominationDriver`.
-/

namespace ViiCore.SCP

structure SCPNomination (Hash Value : Type) where
  quorumSetHash : Hash
  votes : List Value
  accepted : List Value
  deriving DecidableEq

abbrev NominationMap (NodeID Hash Value : Type) :=
  AList (fun _ : NodeID => SCPNomination Hash Value)

inductive Assertion where
  | dbgAssert
  | assertFailed
  deriving DecidableEq

inductive NominationFault where
  | aborted (assertion : Assertion)
  | movedToBadState
  | recursionTooDeep
  deriving DecidableEq

/-- The members of `NominationProtocol`. `created` lists what `emitNomination` made its
statements of, and `emitted` what it gave to the driver. -/
structure NominationState (NodeID Hash Value : Type) where
  mRoundNumber : Nat
  mVotes : Finset Value
  mAccepted : Finset Value
  mCandidates : Finset Value
  mLatestNominations : NominationMap NodeID Hash Value
  mLastEnvelope : Option (SCPNomination Hash Value)
  mRoundLeaders : Finset NodeID
  mNominationStarted : Bool
  mLatestCompositeCandidate : Value
  mPreviousValue : Value
  created : List (SCPNomination Hash Value)
  emitted : List (SCPNomination Hash Value)

/-- What the protocol asks during one call. `isFullyValidated` and `stopsNomination`, whether
the ballot protocol stops nomination when its state is bumped, may depend on everything that
has happened. -/
structure NominationDriver (NodeID Hash Value : Type) where
  quorumSet : SCPQuorumSet NodeID
  quorumSetHash : Hash
  getQSet : Hash → Option (SCPQuorumSet NodeID)
  validateValue : Value → ValidationLevel
  extractValidValue : Value → Value
  computeHashNode : Value → Bool → Nat → NodeID → Nat
  computeValueHash : Value → Nat → Value → Nat
  combineCandidates : Finset Value → Value
  isFullyValidated : NominationState NodeID Hash Value → Bool
  stopsNomination : NominationState NodeID Hash Value → Bool

abbrev NominationM (NodeID Hash Value : Type) :=
  EStateM NominationFault (NominationState NodeID Hash Value)

namespace Nomination

variable {NodeID Hash Value : Type} [LinearOrder NodeID] [LinearOrder Value] [OrderBot Value]

def initial : NominationState NodeID Hash Value where
  mRoundNumber := 0
  mVotes := ∅
  mAccepted := ∅
  mCandidates := ∅
  mLatestNominations := ∅
  mLastEnvelope := none
  mRoundLeaders := ∅
  mNominationStarted := false
  mLatestCompositeCandidate := ⊥
  mPreviousValue := ⊥
  created := []
  emitted := []

def orAbort {α : Type} (result : Except Assertion α) : NominationM NodeID Hash Value α :=
  match result with
  | .ok value => pure value
  | .error assertion => throw (.aborted assertion)

/-! ### Statements -/

def includes : List Value → List Value → Bool
  | _, [] => true
  | [], _ :: _ => false
  | first :: v, wanted :: p =>
      if wanted < first then false
      else if first < wanted then includes v (wanted :: p)
      else includes v p

/-- Whether `p` is a subset of `v`, and whether they differ. -/
def isSubsetHelper (p v : List Value) : Bool × Bool :=
  if p.length ≤ v.length then
    if includes v p then (true, p.length ≠ v.length) else (false, true)
  else (false, true)

def isNewerNomination (oldst st : SCPNomination Hash Value) : Bool :=
  let votes := isSubsetHelper oldst.votes st.votes
  let accepted := isSubsetHelper oldst.accepted st.accepted
  votes.1 && accepted.1 && (votes.2 || accepted.2)

def isNewerStatement (state : NominationState NodeID Hash Value) (nodeID : NodeID)
    (st : SCPNomination Hash Value) : Bool :=
  match state.mLatestNominations.lookup nodeID with
  | none => true
  | some oldst => isNewerNomination oldst st

def isAscending : List Value → Bool
  | left :: right :: rest => left < right && isAscending (right :: rest)
  | _ => true

def isSane (nom : SCPNomination Hash Value) : Bool :=
  nom.votes.length + nom.accepted.length ≠ 0 && isAscending nom.votes && isAscending nom.accepted

/-! ### Federated voting -/

def filterNodes (map : NominationMap NodeID Hash Value) (filter : SCPNomination Hash Value → Bool) :
    List NodeID :=
  LocalNode.filterNodes map filter

def federatedRatify (driver : NominationDriver NodeID Hash Value)
    (envs : NominationMap NodeID Hash Value) (voted : SCPNomination Hash Value → Bool) : Bool :=
  LocalNode.isQuorum driver.quorumSet envs (fun nom => driver.getQSet nom.quorumSetHash) voted

def federatedAccept (driver : NominationDriver NodeID Hash Value)
    (envs : NominationMap NodeID Hash Value) (voted accepted : SCPNomination Hash Value → Bool) :
    Bool :=
  isVBlocking (filterNodes envs accepted) driver.quorumSet ||
    federatedRatify driver envs fun nom => accepted nom || voted nom

def acceptPredicate (v : Value) (nom : SCPNomination Hash Value) : Bool := v ∈ nom.accepted

/-! ### Leaders -/

variable (driver : NominationDriver NodeID Hash Value) (localNodeID : NodeID)

def hashNode (state : NominationState NodeID Hash Value) (isPriority : Bool) (nodeID : NodeID) :
    Except Assertion Nat :=
  if state.mPreviousValue = ⊥ then throw .dbgAssert
  else return driver.computeHashNode state.mPreviousValue isPriority state.mRoundNumber nodeID

def hashValue (state : NominationState NodeID Hash Value) (value : Value) :
    Except Assertion Nat :=
  if state.mPreviousValue = ⊥ then throw .dbgAssert
  else return driver.computeValueHash state.mPreviousValue state.mRoundNumber value

def getNodePriority (state : NominationState NodeID Hash Value) (qset : SCPQuorumSet NodeID)
    (nodeID : NodeID) : Except Assertion Nat := do
  let w ← if nodeID = localNodeID then pure UINT64_MAX
    else
      match getNodeWeight nodeID qset with
      | some w => pure w
      | none => throw .assertFailed
  if 0 < w then
    if (← hashNode driver state false nodeID) ≤ w then hashNode driver state true nodeID
    else return 0
  else return 0

def considerLeader (state : NominationState NodeID Hash Value) (qset : SCPQuorumSet NodeID)
    (found : Finset NodeID × Nat) (cur : NodeID) : Except Assertion (Finset NodeID × Nat) := do
  let (newRoundLeaders, topPriority) := found
  let w ← getNodePriority driver localNodeID state qset cur
  let newRoundLeaders := if topPriority < w then ∅ else newRoundLeaders
  let topPriority := max topPriority w
  return (if w = topPriority ∧ 0 < w then insert cur newRoundLeaders else newRoundLeaders, topPriority)

def updateRoundLeaders (state : NominationState NodeID Hash Value) :
    Except Assertion (NominationState NodeID Hash Value) := do
  let myQSet := normalizeQSet driver.quorumSet (some localNodeID)
  let topPriority ← getNodePriority driver localNodeID state myQSet localNodeID
  let (newRoundLeaders, _) ←
    (allNodes myQSet).foldlM (considerLeader driver localNodeID state myQSet)
      ({localNodeID}, topPriority)
  return { state with mRoundLeaders := state.mRoundLeaders ∪ newRoundLeaders }

/-! ### New values -/

def considerValue (state : NominationState NodeID Hash Value) (found : Value × Nat) (value : Value) :
    Except Assertion (Value × Nat) := do
  let valueToNominate :=
    if driver.validateValue value = .kFullyValidatedValue then value
    else driver.extractValidValue value
  if valueToNominate ≠ ⊥ ∧ valueToNominate ∉ state.mVotes then
    let curHash ← hashValue driver state valueToNominate
    if found.2 ≤ curHash then return (valueToNominate, curHash) else return found
  else return found

def getNewValueFromNomination (state : NominationState NodeID Hash Value)
    (nom : SCPNomination Hash Value) : Except Assertion Value := do
  return (← (nom.votes ++ nom.accepted).foldlM (considerValue driver state) (⊥, 0)).1

/-! ### Processing -/

/-- A vote of a statement is accepted once enough nodes vote for it or accept it; where it is not
fully valid, a valid value extracted from it gets a vote instead. The flag says whether votes
have changed. -/
def considerVote (found : NominationState NodeID Hash Value × Bool) (v : Value) :
    NominationState NodeID Hash Value × Bool :=
  let (state, modified) := found
  if v ∈ state.mAccepted then found
  else if federatedAccept driver state.mLatestNominations (fun nom => v ∈ nom.votes)
      (acceptPredicate v) then
    if driver.validateValue v = .kFullyValidatedValue then
      ({ state with
          mAccepted := insert v state.mAccepted
          mVotes := insert v state.mVotes }, true)
    else
      let toVote := driver.extractValidValue v
      if toVote ≠ ⊥ ∧ toVote ∉ state.mVotes then
        ({ state with mVotes := insert toVote state.mVotes }, true)
      else found
  else (state, modified)

def newCandidates (state : NominationState NodeID Hash Value) : Finset Value :=
  state.mAccepted.filter fun a =>
    a ∉ state.mCandidates ∧ federatedRatify driver state.mLatestNominations (acceptPredicate a)

def followLeader (nodeID : NodeID) (nom : SCPNomination Hash Value)
    (found : NominationState NodeID Hash Value × Bool) :
    Except Assertion (NominationState NodeID Hash Value × Bool) := do
  let (state, _) := found
  if state.mCandidates = ∅ ∧ nodeID ∈ state.mRoundLeaders then
    let newVote ← getNewValueFromNomination driver state nom
    if newVote ≠ ⊥ then return ({ state with mVotes := insert newVote state.mVotes }, true)
    else return found
  else return found

/-- What a statement changes, whether the node has to speak, and whether there are new
candidates. -/
def considerNomination (nodeID : NodeID) (nom : SCPNomination Hash Value)
    (state : NominationState NodeID Hash Value) :
    Except Assertion (NominationState NodeID Hash Value × Bool × Bool) := do
  let (voted, modified) := nom.votes.foldl (considerVote driver) (state, false)
  let ratified := newCandidates driver voted
  let state := { voted with mCandidates := voted.mCandidates ∪ ratified }
  let (state, modified) ← followLeader driver nodeID nom (state, modified)
  return (state, modified, ratified ≠ ∅)

def recordEnvelope (nodeID : NodeID) (nom : SCPNomination Hash Value) :
    NominationM NodeID Hash Value Unit :=
  modify fun state =>
    { state with mLatestNominations := state.mLatestNominations.insert nodeID nom }

def updateCandidates : NominationM NodeID Hash Value Unit := do
  modify fun state =>
    { state with mLatestCompositeCandidate := driver.combineCandidates state.mCandidates }
  if driver.stopsNomination (← get) then
    modify fun state => { state with mNominationStarted := false }

/-- What a recorded statement leads to while nomination is under way. -/
def heed (emitNomination : NominationM NodeID Hash Value Unit) (nodeID : NodeID)
    (nom : SCPNomination Hash Value) : NominationM NodeID Hash Value Unit := do
  if (← get).mNominationStarted then
    let (state, modified, newCandidates) ←
      orAbort (considerNomination driver nodeID nom (← get))
    set state
    if modified then emitNomination
    if newCandidates then updateCandidates driver

def processEnvelope (emitNomination : NominationM NodeID Hash Value Unit) (nodeID : NodeID)
    (nom : SCPNomination Hash Value) : NominationM NodeID Hash Value EnvelopeState := do
  if isNewerStatement (← get) nodeID nom && isSane nom then
    recordEnvelope nodeID nom
    heed driver emitNomination nodeID nom
    return .VALID
  else return .INVALID

def ownNomination (state : NominationState NodeID Hash Value) : SCPNomination Hash Value where
  quorumSetHash := driver.quorumSetHash
  votes := state.mVotes.sort (· ≤ ·)
  accepted := state.mAccepted.sort (· ≤ ·)

def sendNomination (nom : SCPNomination Hash Value) : NominationM NodeID Hash Value Unit := do
  let state ← get
  if state.mLastEnvelope.all fun last => isNewerNomination last nom then
    set { state with mLastEnvelope := some nom }
    if driver.isFullyValidated state then
      modify fun state => { state with emitted := state.emitted ++ [nom] }

def emitNomination : Nat → NominationM NodeID Hash Value Unit
  | 0 => throw .recursionTooDeep
  | depth + 1 => do
      let nom := ownNomination driver (← get)
      modify fun state => { state with created := state.created ++ [nom] }
      let result ← processEnvelope driver (emitNomination depth) localNodeID nom
      if result = .VALID then sendNomination driver nom else throw .movedToBadState

def followLeaders : List NodeID → NominationState NodeID Hash Value × Bool →
    Except Assertion (NominationState NodeID Hash Value × Bool)
  | [], found => return found
  | leader :: rest, (state, updated) =>
      match state.mLatestNominations.lookup leader with
      | none => followLeaders rest (state, updated)
      | some nom => do
          let nominatingValue ← getNewValueFromNomination driver state nom
          if nominatingValue ≠ ⊥ then
            followLeaders rest ({ state with mVotes := insert nominatingValue state.mVotes }, true)
          else followLeaders rest (state, updated)

def nominate (depth : Nat) (value previousValue : Value) (timedout : Bool) :
    NominationM NodeID Hash Value Bool := do
  if timedout && !(← get).mNominationStarted then return false
  else
    modify fun state =>
      { state with
        mNominationStarted := true
        mPreviousValue := previousValue
        mRoundNumber := state.mRoundNumber + 1 }
    let state ← orAbort (updateRoundLeaders driver localNodeID (← get))
    let led := localNodeID ∈ state.mRoundLeaders
    let updated := led ∧ value ∉ state.mVotes
    let voted := if led then { state with mVotes := insert value state.mVotes } else state
    let (state, updated) ←
      orAbort (followLeaders driver (voted.mRoundLeaders.sort (· ≤ ·)) (voted, updated))
    set state
    if updated then emitNomination driver localNodeID depth
    return updated

/-! ### Runs -/

inductive Call (NodeID Hash Value : Type) where
  | nominate (driver : NominationDriver NodeID Hash Value) (value previousValue : Value)
      (timedout : Bool)
  | processEnvelope (driver : NominationDriver NodeID Hash Value) (nodeID : NodeID)
      (nom : SCPNomination Hash Value)
  | stopNomination

/-- No envelope of the node itself comes from outside: `HerderImpl::recvSCPEnvelope` skips them. -/
def Call.IsForeign (localNodeID : NodeID) : Call NodeID Hash Value → Prop
  | .processEnvelope _ nodeID _ => nodeID ≠ localNodeID
  | _ => True

def Call.perform (depth : Nat) : Call NodeID Hash Value → NominationM NodeID Hash Value Unit
  | .nominate driver value previousValue timedout =>
      discard (Nomination.nominate driver localNodeID depth value previousValue timedout)
  | .processEnvelope driver nodeID nom =>
      discard (Nomination.processEnvelope driver (emitNomination driver localNodeID depth) nodeID nom)
  | .stopNomination => modify fun state => { state with mNominationStarted := false }

def run (depth : Nat) : List (Call NodeID Hash Value) → NominationM NodeID Hash Value Unit
  | [] => pure ()
  | call :: rest => do
      call.perform localNodeID depth
      run depth rest

end Nomination

end ViiCore.SCP
