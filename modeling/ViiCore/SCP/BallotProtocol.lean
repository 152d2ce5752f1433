import ViiCore.Library.OrderedSet
import ViiCore.SCP.Ballot
import ViiCore.SCP.LocalNode

/-!
The ballot protocol of one slot (`BallotProtocol.cpp`) with the federated voting
tests of `Slot.cpp` and `LocalNode.cpp` it calls.

A call runs in `EStateM`: a failed `dbgAssert`, a null dereference and a thrown
exception all end it and keep the state reached, so what happened before a failure can
still be inspected. The source nests calls through `emitCurrentStateStatement`, which
processes the node's own statement and so re-enters `advanceSlot`; the functions below
take that inner `advanceSlot` as the argument `advance`, and the recursion is closed in
`advanceSlot` itself, whose depth the source bounds.
-/

namespace ViiCore.SCP

def MAX_ADVANCE_SLOT_RECURSION : Nat := 50

inductive ValidationLevel where
  | kInvalidValue
  | kFullyValidatedValue
  | kMaybeValidValue
  deriving DecidableEq

inductive SCPPhase where
  | SCP_PHASE_PREPARE
  | SCP_PHASE_CONFIRM
  | SCP_PHASE_EXTERNALIZE
  deriving DecidableEq

inductive EnvelopeState where
  | INVALID
  | VALID
  deriving DecidableEq

/-- What ends a call early. `checkInvariants` is kept apart from the other assertions;
the null dereferences inside its conditions count as its failures. -/
inductive Fault where
  | checkInvariants
  | dbgAssert
  | nullDereference
  | movedToBadState
  | maximumTransitions
  | bumpLoopDiverges
  | cannotSetState
  deriving DecidableEq

/-- What a slot offers the protocol during one call: the local node, the quorum sets the
driver can resolve, value validation, and the nomination result. -/
structure SlotContext (NodeID Hash Value : Type) where
  slotIndex : Nat
  localNodeID : NodeID
  quorumSet : SCPQuorumSet NodeID
  quorumSetHash : Hash
  getQSet : Hash → Option (SCPQuorumSet NodeID)
  validateValue : Value → ValidationLevel
  latestCompositeCandidate : Value

/-- Driver callbacks in the order they are made. The last entry is the trace line of
`setPreparedConfirmed`, with the current and commit ballots it starts from. -/
inductive Effect (NodeID Hash Value : Type) where
  | startedBallotProtocol (ballot : SCPBallot Value)
  | acceptedBallotPrepared (ballot : SCPBallot Value)
  | confirmedBallotPrepared (ballot : SCPBallot Value)
  | acceptedCommit (ballot : SCPBallot Value)
  | ballotDidHearFromQuorum (ballot : SCPBallot Value)
  | valueExternalized (value : Value)
  | emitEnvelope (statement : SCPStatement NodeID Hash Value)
  | stopNomination
  | startTimer (counter : Nat)
  | stopTimer
  | traceSetPreparedConfirmed (current commit : Option (SCPBallot Value)) (newH : SCPBallot Value)
  deriving DecidableEq

abbrev EnvelopeMap (NodeID Hash Value : Type) :=
  AList (fun _ : NodeID => SCPStatement NodeID Hash Value)

/-- The members of `BallotProtocol` that decide what the node says and accepts: `b`, `p`,
`p'`, `h`, `c`, the latest statements, the phase and the value override. -/
structure BallotCore (NodeID Hash Value : Type) where
  mCurrentBallot : Option (SCPBallot Value)
  mPrepared : Option (SCPBallot Value)
  mPreparedPrime : Option (SCPBallot Value)
  mHighBallot : Option (SCPBallot Value)
  mCommit : Option (SCPBallot Value)
  mLatestEnvelopes : EnvelopeMap NodeID Hash Value
  mPhase : SCPPhase
  mValueOverride : Option Value

/-- All members, with the slot's `mFullyValidated`. The source compares `mLastEnvelope`
with `mLastEnvelopeEmit` as pointers; a new `mLastEnvelope` is always a newer statement,
so comparing the statements gives the same answers. -/
structure BallotState (NodeID Hash Value : Type) extends BallotCore NodeID Hash Value where
  mHeardFromQuorum : Bool
  mCurrentMessageLevel : Nat
  mLastEnvelope : Option (SCPStatement NodeID Hash Value)
  mLastEnvelopeEmit : Option (SCPStatement NodeID Hash Value)
  mFullyValidated : Bool
  effects : List (Effect NodeID Hash Value)

variable {NodeID Hash Value : Type}

def BallotState.initial (isValidator : Bool) : BallotState NodeID Hash Value :=
  { mHeardFromQuorum := false
    mCurrentBallot := none
    mPrepared := none
    mPreparedPrime := none
    mHighBallot := none
    mCommit := none
    mLatestEnvelopes := ∅
    mPhase := .SCP_PHASE_PREPARE
    mValueOverride := none
    mCurrentMessageLevel := 0
    mLastEnvelope := none
    mLastEnvelopeEmit := none
    mFullyValidated := isValidator
    effects := [] }

abbrev BallotM (NodeID Hash Value : Type) := EStateM Fault (BallotState NodeID Hash Value)

def callDriver (effect : Effect NodeID Hash Value) : BallotM NodeID Hash Value Unit :=
  modify fun state => { state with effects := state.effects ++ [effect] }

def dbgAssert (condition : Bool) : BallotM NodeID Hash Value Unit :=
  if condition then pure () else throw .dbgAssert

def orFault {α : Type} (result : Except Fault α) : BallotM NodeID Hash Value α :=
  match result with
  | .ok value => pure value
  | .error fault => throw fault

def deref {α : Type} (pointer : Option α) : BallotM NodeID Hash Value α :=
  match pointer with
  | some target => pure target
  | none => throw .nullDereference

section Protocol

variable [DecidableEq NodeID] [DecidableEq Hash] [LinearOrder Value] [OrderBot Value]

/-! ### Federated voting -/

/-- The filters of the ballot protocol only read the pledges. -/
def filterNodes (map : EnvelopeMap NodeID Hash Value)
    (filter : SCPPledges Hash Value → Bool) : List NodeID :=
  LocalNode.filterNodes map fun st => filter st.pledges

def isQuorum (qSet : SCPQuorumSet NodeID) (map : EnvelopeMap NodeID Hash Value)
    (qfun : SCPStatement NodeID Hash Value → Option (SCPQuorumSet NodeID))
    (filter : SCPPledges Hash Value → Bool) : Bool :=
  LocalNode.isQuorum qSet map qfun fun st => filter st.pledges

def getQuorumSetFromStatement (slot : SlotContext NodeID Hash Value)
    (st : SCPStatement NodeID Hash Value) : Option (SCPQuorumSet NodeID) :=
  match st.pledges with
  | .externalize .. => some (buildSingletonQSet st.nodeID)
  | .prepare quorumSetHash .. => slot.getQSet quorumSetHash
  | .confirm _ _ _ _ quorumSetHash => slot.getQSet quorumSetHash

def federatedRatify (slot : SlotContext NodeID Hash Value)
    (envs : EnvelopeMap NodeID Hash Value) (voted : SCPPledges Hash Value → Bool) : Bool :=
  isQuorum slot.quorumSet envs (getQuorumSetFromStatement slot) voted

def federatedAccept (slot : SlotContext NodeID Hash Value)
    (envs : EnvelopeMap NodeID Hash Value)
    (voted accepted : SCPPledges Hash Value → Bool) : Bool :=
  isVBlocking (filterNodes envs accepted) slot.quorumSet ||
    federatedRatify slot envs (fun pledges => accepted pledges || voted pledges)

/-! ### Received statements -/

def isNewerStatement (state : BallotCore NodeID Hash Value) (nodeID : NodeID)
    (st : SCPStatement NodeID Hash Value) : Bool :=
  match state.mLatestEnvelopes.lookup nodeID with
  | none => true
  | some oldst => isNewerPledges oldst.pledges st.pledges

def arePledgesSane (self : Bool) : SCPPledges Hash Value → Bool
  | .prepare _ ballot prepared preparedPrime nC nH =>
      (self || decide (ballot.counter > 0)) &&
        (match preparedPrime, prepared with
          | some prime, some high => areBallotsLessAndIncompatible prime high
          | _, _ => true) &&
        (decide (nH = 0) || prepared.any (fun high => decide (nH ≤ high.counter))) &&
        (decide (nC = 0) || decide (nH ≠ 0 ∧ ballot.counter ≥ nH ∧ nH ≥ nC))
  | .confirm ballot _ nCommit nH _ =>
      decide (ballot.counter > 0) && decide (nH ≤ ballot.counter) && decide (nCommit ≤ nH)
  | .externalize commit nH _ =>
      decide (commit.counter > 0) && decide (nH ≥ commit.counter)

def isStatementSane (slot : SlotContext NodeID Hash Value)
    (st : SCPStatement NodeID Hash Value) (self : Bool) : Bool :=
  match getQuorumSetFromStatement slot st with
  | none => false
  | some qSet => isQuorumSetSane qSet false && arePledgesSane self st.pledges

def statementValues : SCPPledges Hash Value → List Value
  | .prepare _ ballot prepared _ _ _ =>
      OrderedSet.ofList
        ((if ballot.counter ≠ 0 then [ballot.value] else []) ++
          (prepared.map SCPBallot.value).toList)
  | .confirm ballot .. => [ballot.value]
  | .externalize commit .. => [commit.value]

/-- The verdict of the last value that is not fully validated stands. -/
def validateValues (slot : SlotContext NodeID Hash Value)
    (pledges : SCPPledges Hash Value) : ValidationLevel :=
  (statementValues pledges).foldl
    (fun res value =>
      match slot.validateValue value with
      | .kFullyValidatedValue => res
      | .kInvalidValue => .kInvalidValue
      | .kMaybeValidValue => .kMaybeValidValue)
    .kFullyValidatedValue

def recordEnvelope (st : SCPStatement NodeID Hash Value) : BallotM NodeID Hash Value Unit :=
  modify fun state =>
    { state with mLatestEnvelopes := state.mLatestEnvelopes.insert st.nodeID st }

def processEnvelope (slot : SlotContext NodeID Hash Value)
    (advance : SCPStatement NodeID Hash Value → BallotM NodeID Hash Value Unit)
    (st : SCPStatement NodeID Hash Value) (self : Bool) :
    BallotM NodeID Hash Value EnvelopeState := do
  dbgAssert (decide (st.slotIndex = slot.slotIndex))
  let state ← get
  if !isStatementSane slot st self then
    return .INVALID
  else if !isNewerStatement state.toBallotCore st.nodeID st then
    return .INVALID
  else if validateValues slot st.pledges = .kInvalidValue then
    return .INVALID
  else if state.mPhase ≠ .SCP_PHASE_EXTERNALIZE then
    if validateValues slot st.pledges = .kMaybeValidValue then
      modify fun state => { state with mFullyValidated := false }
    recordEnvelope st
    advance st
    return .VALID
  else
    let commit ← deref state.mCommit
    if commit.value = (getWorkingBallot st.pledges).value then
      recordEnvelope st
      return .VALID
    else
      return .INVALID

/-! ### Emitting the node's own statement -/

def invariantsHold (state : BallotCore NodeID Hash Value) : Bool :=
  state.mCurrentBallot.all (fun current => decide (current.counter ≠ 0)) &&
    (match state.mPrepared, state.mPreparedPrime with
      | some prepared, some prime => areBallotsLessAndIncompatible prime prepared
      | _, _ => true) &&
    (match state.mHighBallot with
      | some high => state.mCurrentBallot.any (areBallotsLessAndCompatible high)
      | none => true) &&
    (match state.mCommit with
      | some commit =>
          match state.mCurrentBallot, state.mHighBallot with
          | some current, some high =>
              areBallotsLessAndCompatible commit high && areBallotsLessAndCompatible high current
          | _, _ => false
      | none => true) &&
    (match state.mPhase with
      | .SCP_PHASE_PREPARE => true
      | .SCP_PHASE_CONFIRM => state.mCommit.isSome
      | .SCP_PHASE_EXTERNALIZE => state.mCommit.isSome && state.mHighBallot.isSome)

def checkInvariants : BallotM NodeID Hash Value Unit := do
  if invariantsHold (← get).toBallotCore then pure () else throw .checkInvariants

def createStatement (slot : SlotContext NodeID Hash Value) (state : BallotCore NodeID Hash Value) :
    SCPStatementType → Except Fault (SCPStatement NodeID Hash Value)
  | type =>
      if !invariantsHold state then .error .checkInvariants
      else
        match type with
        | .SCP_ST_PREPARE =>
            .ok ⟨slot.localNodeID, slot.slotIndex,
              .prepare slot.quorumSetHash (state.mCurrentBallot.getD ⟨0, ⊥⟩) state.mPrepared
                state.mPreparedPrime ((state.mCommit.map SCPBallot.counter).getD 0)
                ((state.mHighBallot.map SCPBallot.counter).getD 0)⟩
        | .SCP_ST_CONFIRM =>
            match state.mCurrentBallot, state.mPrepared, state.mCommit, state.mHighBallot with
            | some current, some prepared, some commit, some high =>
                .ok ⟨slot.localNodeID, slot.slotIndex,
                  .confirm current prepared.counter commit.counter high.counter
                    slot.quorumSetHash⟩
            | _, _, _, _ => .error .nullDereference
        | .SCP_ST_EXTERNALIZE =>
            match state.mCommit, state.mHighBallot with
            | some commit, some high =>
                .ok ⟨slot.localNodeID, slot.slotIndex,
                  .externalize commit high.counter slot.quorumSetHash⟩
            | _, _ => .error .nullDereference

def sendLatestEnvelope : BallotM NodeID Hash Value Unit := do
  let state ← get
  match state.mLastEnvelope with
  | none => pure ()
  | some last =>
      if state.mCurrentMessageLevel = 0 ∧ state.mFullyValidated = true ∧
          state.mLastEnvelopeEmit ≠ some last then
        set { state with mLastEnvelopeEmit := some last }
        callDriver (.emitEnvelope last)

def phaseStatementType : SCPPhase → SCPStatementType
  | .SCP_PHASE_PREPARE => .SCP_ST_PREPARE
  | .SCP_PHASE_CONFIRM => .SCP_ST_CONFIRM
  | .SCP_PHASE_EXTERNALIZE => .SCP_ST_EXTERNALIZE

def emitCurrentStateStatement (slot : SlotContext NodeID Hash Value)
    (advance : SCPStatement NodeID Hash Value → BallotM NodeID Hash Value Unit) :
    BallotM NodeID Hash Value Unit := do
  let state ← get
  let envelope ← orFault (createStatement slot state.toBallotCore (phaseStatementType state.mPhase))
  let canEmit := state.mCurrentBallot.isSome
  if state.mLatestEnvelopes.lookup slot.localNodeID ≠ some envelope then
    let res ← processEnvelope slot advance envelope true
    if res = .VALID then
      let state ← get
      if canEmit && state.mLastEnvelope.all
          (fun last => isNewerPledges last.pledges envelope.pledges) then
        set { state with mLastEnvelope := some envelope }
        sendLatestEnvelope
    else
      throw .movedToBadState

/-! ### Moving the current ballot -/

def bumpToBallot (ballot : SCPBallot Value) (check : Bool) : BallotM NodeID Hash Value Unit := do
  let state ← get
  dbgAssert (decide (state.mPhase ≠ .SCP_PHASE_EXTERNALIZE))
  if check then
    dbgAssert (state.mCurrentBallot.all (fun current => decide (compareBallots ballot current ≥ 0)))
  let gotBumped := state.mCurrentBallot.all (fun current => decide (current.counter ≠ ballot.counter))
  if state.mCurrentBallot.isNone then
    callDriver (.startedBallotProtocol ballot)
  modify fun state =>
    { state with
      mCurrentBallot := some ballot
      mHighBallot := state.mHighBallot.filter (fun high => areBallotsCompatible ballot high)
      mHeardFromQuorum := if gotBumped then false else state.mHeardFromQuorum }

def updateCurrentIfNeeded (h : SCPBallot Value) : BallotM NodeID Hash Value Bool := do
  let state ← get
  if state.mCurrentBallot.all (fun current => decide (compareBallots current h < 0)) then
    bumpToBallot h true
    return true
  else
    return false

def updateCurrentValue (ballot : SCPBallot Value) : BallotM NodeID Hash Value Bool := do
  let state ← get
  if state.mPhase = .SCP_PHASE_EXTERNALIZE then
    return false
  else
    match state.mCurrentBallot with
    | none =>
        bumpToBallot ballot true
        checkInvariants
        return true
    | some current =>
        dbgAssert (decide (compareBallots current ballot ≤ 0))
        if state.mCommit.any (fun commit => !areBallotsCompatible commit ballot) then
          return false
        else if compareBallots current ballot < 0 then
          bumpToBallot ballot true
          checkInvariants
          return true
        else if compareBallots current ballot > 0 then
          return false
        else
          checkInvariants
          return false

def checkHeardFromQuorum (slot : SlotContext NodeID Hash Value) : BallotM NodeID Hash Value Unit := do
  let state ← get
  match state.mCurrentBallot with
  | none => pure ()
  | some current =>
      if isQuorum slot.quorumSet state.mLatestEnvelopes (getQuorumSetFromStatement slot)
          (fun pledges =>
            match pledges with
            | .prepare _ ballot _ _ _ _ => decide (current.counter ≤ ballot.counter)
            | _ => true) then
        set { state with mHeardFromQuorum := true }
        if !state.mHeardFromQuorum then
          callDriver (.ballotDidHearFromQuorum current)
          if state.mPhase ≠ .SCP_PHASE_EXTERNALIZE then
            callDriver (.startTimer current.counter)
        if state.mPhase = .SCP_PHASE_EXTERNALIZE then
          callDriver .stopTimer
      else
        set { state with mHeardFromQuorum := false }
        callDriver .stopTimer

def bumpStateTo (slot : SlotContext NodeID Hash Value)
    (advance : SCPStatement NodeID Hash Value → BallotM NodeID Hash Value Unit)
    (value : Value) (n : Nat) : BallotM NodeID Hash Value Bool := do
  let state ← get
  if state.mPhase = .SCP_PHASE_EXTERNALIZE then
    return false
  else
    let updated ← updateCurrentValue ⟨n, state.mValueOverride.getD value⟩
    if updated then
      emitCurrentStateStatement slot advance
      checkHeardFromQuorum slot
    return updated

/-- `bumpState(value, force)`. The counter is a `uint32` and wraps. -/
def bumpState (slot : SlotContext NodeID Hash Value)
    (advance : SCPStatement NodeID Hash Value → BallotM NodeID Hash Value Unit)
    (value : Value) (force : Bool) : BallotM NodeID Hash Value Bool := do
  let state ← get
  if !force && state.mCurrentBallot.isSome then
    return false
  else
    let n := match state.mCurrentBallot with
      | some current => (current.counter + 1) % (UINT32_MAX + 1)
      | none => 1
    bumpStateTo slot advance value n

def abandonBallot (slot : SlotContext NodeID Hash Value)
    (advance : SCPStatement NodeID Hash Value → BallotM NodeID Hash Value Unit)
    (n : Nat) : BallotM NodeID Hash Value Bool := do
  let state ← get
  let v := if slot.latestCompositeCandidate = ⊥ then
      (state.mCurrentBallot.map SCPBallot.value).getD ⊥
    else slot.latestCompositeCandidate
  if v = ⊥ then
    return false
  else if n = 0 then
    bumpState slot advance v true
  else
    bumpStateTo slot advance v n

/-! ### Accepting and confirming `prepare` -/

def hintBallots : SCPPledges Hash Value → List (SCPBallot Value)
  | .prepare _ ballot prepared preparedPrime _ _ =>
      ballot :: prepared.toList ++ preparedPrime.toList
  | .confirm ballot nPrepared _ _ _ => [⟨nPrepared, ballot.value⟩, ⟨UINT32_MAX, ballot.value⟩]
  | .externalize commit _ _ => [⟨UINT32_MAX, commit.value⟩]

/-- What one recorded statement contributes to the candidates below `topVote`. -/
def candidatesBelow (topVote : SCPBallot Value) : SCPPledges Hash Value → List (SCPBallot Value)
  | .prepare _ ballot prepared preparedPrime _ _ =>
      (ballot :: prepared.toList ++ preparedPrime.toList).filter
        (fun candidate => areBallotsLessAndCompatible candidate topVote)
  | .confirm ballot nPrepared _ _ _ =>
      if areBallotsCompatible topVote ballot then
        topVote :: (if nPrepared < topVote.counter then [⟨nPrepared, topVote.value⟩] else [])
      else []
  | .externalize commit _ _ =>
      if areBallotsCompatible topVote commit then [topVote] else []

def getPrepareCandidates (state : BallotCore NodeID Hash Value)
    (hint : SCPStatement NodeID Hash Value) : List (SCPBallot Value) :=
  OrderedSet.ofList
    ((OrderedSet.ofList (hintBallots hint.pledges)).reverse.flatMap fun topVote =>
      state.mLatestEnvelopes.entries.flatMap fun entry => candidatesBelow topVote entry.2.pledges)

def findPreparedAccept (slot : SlotContext NodeID Hash Value)
    (state : BallotCore NodeID Hash Value) :
    List (SCPBallot Value) → Except Fault (Option (SCPBallot Value))
  | [] => .ok none
  | ballot :: rest =>
      let consider : Except Fault (Option (SCPBallot Value)) :=
        if state.mPreparedPrime.any (fun prime => decide (compareBallots ballot prime ≤ 0)) then
          findPreparedAccept slot state rest
        else if state.mPrepared.any (fun prepared => areBallotsLessAndCompatible ballot prepared) then
          findPreparedAccept slot state rest
        else if federatedAccept slot state.mLatestEnvelopes (votedPrepared ballot)
            (hasPreparedBallot ballot) then
          .ok (some ballot)
        else
          findPreparedAccept slot state rest
      if state.mPhase = .SCP_PHASE_CONFIRM then
        match state.mPrepared, state.mCommit with
        | none, _ => .error .nullDereference
        | some prepared, commit =>
            if !areBallotsLessAndCompatible prepared ballot then
              findPreparedAccept slot state rest
            else
              match commit with
              | none => .error .nullDereference
              | some commit =>
                  if areBallotsCompatible commit ballot then consider else .error .dbgAssert
      else consider

def setPrepared (state : BallotCore NodeID Hash Value) (ballot : SCPBallot Value) :
    BallotCore NodeID Hash Value × Bool :=
  match state.mPrepared with
  | some prepared =>
      if compareBallots prepared ballot < 0 then
        ({ state with
            mPreparedPrime :=
              if !areBallotsCompatible prepared ballot then some prepared
              else state.mPreparedPrime
            mPrepared := some ballot }, true)
      else if compareBallots prepared ballot > 0 then
        if state.mPreparedPrime.all (fun prime =>
            decide (compareBallots prime ballot < 0) && !areBallotsCompatible prepared ballot) then
          ({ state with mPreparedPrime := some ballot }, true)
        else (state, false)
      else (state, false)
  | none => ({ state with mPrepared := some ballot }, true)

def abortsCommit (state : BallotCore NodeID Hash Value) : Bool :=
  match state.mCommit, state.mHighBallot with
  | some _, some high =>
      state.mPrepared.any (areBallotsLessAndIncompatible high) ||
        state.mPreparedPrime.any (areBallotsLessAndIncompatible high)
  | _, _ => false

def setPreparedAccept (slot : SlotContext NodeID Hash Value)
    (advance : SCPStatement NodeID Hash Value → BallotM NodeID Hash Value Unit)
    (ballot : SCPBallot Value) : BallotM NodeID Hash Value Bool := do
  let state ← get
  let (prepared, changed) := setPrepared state.toBallotCore ballot
  set { state with toBallotCore := prepared }
  let aborted := abortsCommit prepared
  if aborted then
    dbgAssert (decide (state.mPhase = .SCP_PHASE_PREPARE))
    modify fun state => { state with mCommit := none }
  if changed || aborted then
    callDriver (.acceptedBallotPrepared ballot)
    emitCurrentStateStatement slot advance
  return changed || aborted

def attemptPreparedAccept (slot : SlotContext NodeID Hash Value)
    (advance : SCPStatement NodeID Hash Value → BallotM NodeID Hash Value Unit)
    (hint : SCPStatement NodeID Hash Value) : BallotM NodeID Hash Value Bool := do
  let state ← get
  if state.mPhase = .SCP_PHASE_EXTERNALIZE then
    return false
  else
    let found ← orFault (findPreparedAccept slot state.toBallotCore
      (getPrepareCandidates state.toBallotCore hint).reverse)
    match found with
    | none => return false
    | some ballot => setPreparedAccept slot advance ballot

/-- The scan for the highest confirmed candidate; it also returns the candidates from it
downwards, where the search for the commit ballot resumes. -/
def findNewH (slot : SlotContext NodeID Hash Value) (state : BallotCore NodeID Hash Value) :
    List (SCPBallot Value) → Option (SCPBallot Value × List (SCPBallot Value))
  | [] => none
  | ballot :: rest =>
      if state.mHighBallot.any (fun high => decide (compareBallots high ballot ≥ 0)) then none
      else if federatedRatify slot state.mLatestEnvelopes (hasPreparedBallot ballot) then
        some (ballot, ballot :: rest)
      else findNewH slot state rest

def findNewC (slot : SlotContext NodeID Hash Value) (state : BallotCore NodeID Hash Value)
    (b newH : SCPBallot Value) : SCPBallot Value → List (SCPBallot Value) → SCPBallot Value
  | newC, [] => newC
  | newC, ballot :: rest =>
      if compareBallots ballot b < 0 then newC
      else if !areBallotsLessAndCompatible ballot newH then findNewC slot state b newH newC rest
      else if federatedRatify slot state.mLatestEnvelopes (hasPreparedBallot ballot) then
        findNewC slot state b newH ballot rest
      else newC

def mayVoteCommit (state : BallotCore NodeID Hash Value) (newH : SCPBallot Value) : Bool :=
  state.mCommit.isNone &&
    state.mPrepared.all (fun prepared => !areBallotsLessAndIncompatible newH prepared) &&
    state.mPreparedPrime.all (fun prime => !areBallotsLessAndIncompatible newH prime)

def setPreparedConfirmed (slot : SlotContext NodeID Hash Value)
    (advance : SCPStatement NodeID Hash Value → BallotM NodeID Hash Value Unit)
    (newC newH : SCPBallot Value) : BallotM NodeID Hash Value Bool := do
  let state ← get
  callDriver (.traceSetPreparedConfirmed state.mCurrentBallot state.mCommit newH)
  modify fun state => { state with mValueOverride := some newH.value }
  let didWork ← (do
    if state.mCurrentBallot.all (fun current => areBallotsCompatible current newH) then
      let raises := state.mHighBallot.all (fun high => decide (compareBallots newH high > 0))
      if raises then
        modify fun state => { state with mHighBallot := some newH }
      if newC.counter ≠ 0 then
        dbgAssert state.mCommit.isNone
        modify fun state => { state with mCommit := some newC }
      if raises || decide (newC.counter ≠ 0) then
        callDriver (.confirmedBallotPrepared newH)
      return raises || decide (newC.counter ≠ 0)
    else
      return false)
  let updated ← updateCurrentIfNeeded newH
  if updated || didWork then
    emitCurrentStateStatement slot advance
  return updated || didWork

def attemptPreparedConfirmed (slot : SlotContext NodeID Hash Value)
    (advance : SCPStatement NodeID Hash Value → BallotM NodeID Hash Value Unit)
    (hint : SCPStatement NodeID Hash Value) : BallotM NodeID Hash Value Bool := do
  let state ← get
  if state.mPhase ≠ .SCP_PHASE_PREPARE then
    return false
  else if state.mPrepared.isNone then
    return false
  else
    match findNewH slot state.toBallotCore
        (getPrepareCandidates state.toBallotCore hint).reverse with
    | none => return false
    | some (newH, cur) =>
        let b := state.mCurrentBallot.getD ⟨0, ⊥⟩
        let newC := if mayVoteCommit state.toBallotCore newH then
            findNewC slot state.toBallotCore b newH ⟨0, ⊥⟩ cur
          else ⟨0, ⊥⟩
        setPreparedConfirmed slot advance newC newH

/-! ### Accepting and confirming `commit` -/

def findExtendedInterval (pred : Nat × Nat → Bool) : Nat × Nat → List Nat → Nat × Nat
  | candidate, [] => candidate
  | candidate, b :: rest =>
      if candidate.1 = 0 then
        if pred (b, b) then findExtendedInterval pred (b, b) rest
        else findExtendedInterval pred candidate rest
      else if b > candidate.2 then findExtendedInterval pred candidate rest
      else if pred (b, candidate.2) then findExtendedInterval pred (b, candidate.2) rest
      else candidate

def commitBoundaries (ballot : SCPBallot Value) : SCPPledges Hash Value → List Nat
  | .prepare _ stBallot _ _ nC nH =>
      if areBallotsCompatible ballot stBallot && decide (nC ≠ 0) then [nC, nH] else []
  | .confirm stBallot _ nCommit nH _ =>
      if areBallotsCompatible ballot stBallot then [nCommit, nH] else []
  | .externalize commit nH _ =>
      if areBallotsCompatible ballot commit then [commit.counter, nH, UINT32_MAX] else []

def getCommitBoundariesFromStatements (state : BallotCore NodeID Hash Value)
    (ballot : SCPBallot Value) : List Nat :=
  OrderedSet.ofList
    (state.mLatestEnvelopes.entries.flatMap fun entry => commitBoundaries ballot entry.2.pledges)

def setAcceptCommit (slot : SlotContext NodeID Hash Value)
    (advance : SCPStatement NodeID Hash Value → BallotM NodeID Hash Value Unit)
    (c h : SCPBallot Value) : BallotM NodeID Hash Value Bool := do
  let state ← get
  modify fun state => { state with mValueOverride := some h.value }
  let raises := match state.mHighBallot, state.mCommit with
    | some high, some commit =>
        decide (compareBallots high h ≠ 0) || decide (compareBallots commit c ≠ 0)
    | _, _ => true
  if raises then
    modify fun state => { state with mCommit := some c, mHighBallot := some h }
  if state.mPhase = .SCP_PHASE_PREPARE then
    modify fun state => { state with mPhase := .SCP_PHASE_CONFIRM }
    if state.mCurrentBallot.any (fun current => !areBallotsLessAndCompatible h current) then
      bumpToBallot h false
    modify fun state => { state with mPreparedPrime := none }
  let didWork := raises || decide (state.mPhase = .SCP_PHASE_PREPARE)
  if didWork then
    let high ← deref (← get).mHighBallot
    let _ ← updateCurrentIfNeeded high
    callDriver (.acceptedCommit h)
    emitCurrentStateStatement slot advance
  return didWork

def acceptCommitBallot : SCPPledges Hash Value → Option (SCPBallot Value)
  | .prepare _ ballot _ _ nC nH => if nC ≠ 0 then some ⟨nH, ballot.value⟩ else none
  | .confirm ballot _ _ nH _ => some ⟨nH, ballot.value⟩
  | .externalize commit nH _ => some ⟨nH, commit.value⟩

def attemptAcceptCommit (slot : SlotContext NodeID Hash Value)
    (advance : SCPStatement NodeID Hash Value → BallotM NodeID Hash Value Unit)
    (hint : SCPStatement NodeID Hash Value) : BallotM NodeID Hash Value Bool := do
  let state ← get
  if state.mPhase = .SCP_PHASE_EXTERNALIZE then
    return false
  else
    match acceptCommitBallot hint.pledges with
    | none => return false
    | some ballot =>
        let relevant ← (if state.mPhase = .SCP_PHASE_CONFIRM then do
            let high ← deref state.mHighBallot
            return areBallotsCompatible ballot high
          else return true)
        if !relevant then
          return false
        else
          let boundaries := getCommitBoundariesFromStatements state.toBallotCore ballot
          let candidate := findExtendedInterval
            (fun cur => federatedAccept slot state.mLatestEnvelopes (votedCommit ballot cur)
              (commitPredicate ballot cur)) (0, 0) boundaries.reverse
          if candidate.1 = 0 then
            return false
          else
            let extends_ ← (if state.mPhase = .SCP_PHASE_CONFIRM then do
                let high ← deref state.mHighBallot
                return decide (candidate.2 > high.counter)
              else return true)
            if extends_ then
              setAcceptCommit slot advance ⟨candidate.1, ballot.value⟩ ⟨candidate.2, ballot.value⟩
            else
              return false

def setConfirmCommit (slot : SlotContext NodeID Hash Value)
    (advance : SCPStatement NodeID Hash Value → BallotM NodeID Hash Value Unit)
    (c h : SCPBallot Value) : BallotM NodeID Hash Value Bool := do
  modify fun state => { state with mCommit := some c, mHighBallot := some h }
  let _ ← updateCurrentIfNeeded h
  modify fun state => { state with mPhase := .SCP_PHASE_EXTERNALIZE }
  emitCurrentStateStatement slot advance
  callDriver .stopNomination
  let commit ← deref (← get).mCommit
  callDriver (.valueExternalized commit.value)
  return true

def confirmCommitBallot : SCPPledges Hash Value → Option (SCPBallot Value)
  | .prepare .. => none
  | .confirm ballot _ _ nH _ => some ⟨nH, ballot.value⟩
  | .externalize commit nH _ => some ⟨nH, commit.value⟩

def attemptConfirmCommit (slot : SlotContext NodeID Hash Value)
    (advance : SCPStatement NodeID Hash Value → BallotM NodeID Hash Value Unit)
    (hint : SCPStatement NodeID Hash Value) : BallotM NodeID Hash Value Bool := do
  let state ← get
  if state.mPhase ≠ .SCP_PHASE_CONFIRM then
    return false
  else
    match state.mHighBallot, state.mCommit, confirmCommitBallot hint.pledges with
    | some _, some commit, some ballot =>
        if !areBallotsCompatible ballot commit then
          return false
        else
          let boundaries := getCommitBoundariesFromStatements state.toBallotCore ballot
          let candidate := findExtendedInterval
            (fun cur => federatedRatify slot state.mLatestEnvelopes (commitPredicate ballot cur))
            (0, 0) boundaries.reverse
          if candidate.1 = 0 then
            return false
          else
            setConfirmCommit slot advance ⟨candidate.1, ballot.value⟩ ⟨candidate.2, ballot.value⟩
    | _, _, _ => return false

/-! ### Bumping and advancing -/

def hasVBlockingSubsetStrictlyAheadOf (slot : SlotContext NodeID Hash Value)
    (state : BallotCore NodeID Hash Value) (n : Nat) : Bool :=
  isVBlocking
    (filterNodes state.mLatestEnvelopes (fun pledges => decide (statementBallotCounter pledges > n)))
    slot.quorumSet

def attemptBump (slot : SlotContext NodeID Hash Value)
    (advance : SCPStatement NodeID Hash Value → BallotM NodeID Hash Value Unit) :
    BallotM NodeID Hash Value Bool := do
  let state ← get
  if state.mPhase = .SCP_PHASE_EXTERNALIZE then
    return false
  else
    let localCounter := (state.mCurrentBallot.map SCPBallot.counter).getD 0
    if !hasVBlockingSubsetStrictlyAheadOf slot state.toBallotCore localCounter then
      return false
    else
      let allCounters := OrderedSet.ofList
        ((state.mLatestEnvelopes.entries.map fun entry => statementBallotCounter entry.2.pledges).filter
          (fun counter => decide (counter > localCounter)))
      match allCounters.find?
          (fun n => !hasVBlockingSubsetStrictlyAheadOf slot state.toBallotCore n) with
      | none => return false
      | some n => abandonBallot slot advance n

def bumpLoop (slot : SlotContext NodeID Hash Value)
    (advance : SCPStatement NodeID Hash Value → BallotM NodeID Hash Value Unit) :
    Nat → Bool → BallotM NodeID Hash Value Bool
  | 0, _ => throw .bumpLoopDiverges
  | fuel + 1, didWork => do
      let didBump ← attemptBump slot advance
      if didBump then bumpLoop slot advance fuel true else return didWork

/-- `advanceSlot`. Every nested call has a larger message level, so the fuel of a call at
level `l` is at least `MAX_ADVANCE_SLOT_RECURSION - l` and the level test stops first. -/
def advanceSlot (slot : SlotContext NodeID Hash Value) :
    Nat → SCPStatement NodeID Hash Value → BallotM NodeID Hash Value Unit
  | 0, _ => throw .maximumTransitions
  | fuel + 1, hint => do
      modify fun state => { state with mCurrentMessageLevel := state.mCurrentMessageLevel + 1 }
      if (← get).mCurrentMessageLevel ≥ MAX_ADVANCE_SLOT_RECURSION then
        throw .maximumTransitions
      let acceptedPrepared ← attemptPreparedAccept slot (advanceSlot slot fuel) hint
      let confirmedPrepared ← attemptPreparedConfirmed slot (advanceSlot slot fuel) hint
      let acceptedCommit ← attemptAcceptCommit slot (advanceSlot slot fuel) hint
      let confirmedCommit ← attemptConfirmCommit slot (advanceSlot slot fuel) hint
      let didWork := confirmedCommit || acceptedCommit || confirmedPrepared || acceptedPrepared
      let didWork ← (do
        let state ← get
        if state.mCurrentMessageLevel = 1 then
          let didWork ← bumpLoop slot (advanceSlot slot fuel)
            (state.mLatestEnvelopes.entries.length + 1) didWork
          checkHeardFromQuorum slot
          return didWork
        else
          return didWork)
      modify fun state => { state with mCurrentMessageLevel := state.mCurrentMessageLevel - 1 }
      if didWork then
        sendLatestEnvelope

/-! ### The public calls -/

inductive Call (NodeID Hash Value : Type) where
  | processEnvelope (statement : SCPStatement NodeID Hash Value)
  | bumpState (value : Value) (force : Bool)
  | bumpStateTo (value : Value) (n : Nat)
  | abandonBallot (n : Nat)

def Call.perform (slot : SlotContext NodeID Hash Value) :
    Call NodeID Hash Value → BallotM NodeID Hash Value Unit
  | .processEnvelope st => do
      let _ ← SCP.processEnvelope slot (advanceSlot slot MAX_ADVANCE_SLOT_RECURSION) st false
  | .bumpState value force => do
      let _ ← SCP.bumpState slot (advanceSlot slot MAX_ADVANCE_SLOT_RECURSION) value force
  | .bumpStateTo value n => do
      let _ ← SCP.bumpStateTo slot (advanceSlot slot MAX_ADVANCE_SLOT_RECURSION) value n
  | .abandonBallot n => do
      let _ ← SCP.abandonBallot slot (advanceSlot slot MAX_ADVANCE_SLOT_RECURSION) n

end Protocol

end ViiCore.SCP
