import Mathlib.Logic.Relation
import ViiCore.Library.Execution
import ViiCore.SCP.BallotProtocol

/-!
What a call of the ballot protocol can do to a node, said once.

A call is a path of steps. A step that changes the protocol state is one of five changes
(a bump, an accepted or confirmed `prepare`, an accepted or confirmed `commit`) together
with the recording of the statement that announces it; the remaining steps only remember
or send a statement that was already announced. Every later result about runs is an
induction over these paths.
-/

namespace ViiCore.SCP

variable {NodeID Hash Value : Type}

/-- A confirmed `prepare`: the ballot, with the current and commit ballots it was met with. -/
structure Confirmation (Value : Type) where
  current : Option (SCPBallot Value)
  commit : Option (SCPBallot Value)
  newH : SCPBallot Value

structure BallotView (NodeID Hash Value : Type) where
  core : BallotCore NodeID Hash Value
  lastEnvelope : Option (SCPStatement NodeID Hash Value)
  emitted : List (SCPStatement NodeID Hash Value)
  externalized : List Value
  confirmations : List (Confirmation Value)

def Effect.emitted? : Effect NodeID Hash Value → Option (SCPStatement NodeID Hash Value)
  | .emitEnvelope statement => some statement
  | _ => none

def Effect.externalized? : Effect NodeID Hash Value → Option Value
  | .valueExternalized value => some value
  | _ => none

def Effect.confirmation? : Effect NodeID Hash Value → Option (Confirmation Value)
  | .traceSetPreparedConfirmed current commit newH => some ⟨current, commit, newH⟩
  | _ => none

def BallotState.view (state : BallotState NodeID Hash Value) : BallotView NodeID Hash Value :=
  { core := state.toBallotCore
    lastEnvelope := state.mLastEnvelope
    emitted := state.effects.filterMap Effect.emitted?
    externalized := state.effects.filterMap Effect.externalized?
    confirmations := state.effects.filterMap Effect.confirmation? }

section Changes

variable [DecidableEq NodeID] [DecidableEq Hash] [LinearOrder Value] [OrderBot Value]

/-! ### The five changes as functions of the core -/

namespace BallotCore

def bumpTo (core : BallotCore NodeID Hash Value) (ballot : SCPBallot Value) :
    BallotCore NodeID Hash Value :=
  { core with
    mCurrentBallot := some ballot
    mHighBallot := core.mHighBallot.filter (fun high => areBallotsCompatible ballot high) }

def raiseCurrent (core : BallotCore NodeID Hash Value) (h : SCPBallot Value) :
    BallotCore NodeID Hash Value :=
  if core.mCurrentBallot.all (fun current => decide (compareBallots current h < 0)) then
    core.bumpTo h
  else core

def acceptPrepared (core : BallotCore NodeID Hash Value) (ballot : SCPBallot Value) :
    BallotCore NodeID Hash Value :=
  let prepared := (setPrepared core ballot).1
  if abortsCommit prepared then { prepared with mCommit := none } else prepared

def confirmPrepared (core : BallotCore NodeID Hash Value) (newC newH : SCPBallot Value) :
    BallotCore NodeID Hash Value :=
  let overridden := { core with mValueOverride := some newH.value }
  let voted :=
    if core.mCurrentBallot.all (fun current => areBallotsCompatible current newH) then
      { overridden with
        mHighBallot :=
          if core.mHighBallot.all (fun high => decide (compareBallots newH high > 0)) then some newH
          else core.mHighBallot
        mCommit := if newC.counter ≠ 0 then some newC else core.mCommit }
    else overridden
  voted.raiseCurrent newH

def acceptCommit (core : BallotCore NodeID Hash Value) (c h : SCPBallot Value) :
    BallotCore NodeID Hash Value :=
  let accepted := { core with mValueOverride := some h.value, mCommit := some c, mHighBallot := some h }
  let confirming :=
    if core.mPhase = .SCP_PHASE_PREPARE then
      let moved :=
        if core.mCurrentBallot.any (fun current => !areBallotsLessAndCompatible h current) then
          { accepted with mPhase := .SCP_PHASE_CONFIRM }.bumpTo h
        else { accepted with mPhase := .SCP_PHASE_CONFIRM }
      { moved with mPreparedPrime := none }
    else accepted
  confirming.raiseCurrent h

def confirmCommit (core : BallotCore NodeID Hash Value) (c h : SCPBallot Value) :
    BallotCore NodeID Hash Value :=
  { ({ core with mCommit := some c, mHighBallot := some h }.raiseCurrent h) with
    mPhase := .SCP_PHASE_EXTERNALIZE }

end BallotCore

/-- The predicate `checkInvariants` stands for, in full. -/
structure Coherent (core : BallotCore NodeID Hash Value) : Prop where
  counter : ∀ current ∈ core.mCurrentBallot, current.counter ≠ 0
  prime : ∀ prime ∈ core.mPreparedPrime,
    ∃ prepared ∈ core.mPrepared, prime ≤ prepared ∧ prime.value ≠ prepared.value
  high : ∀ high ∈ core.mHighBallot,
    ∃ current ∈ core.mCurrentBallot, high ≤ current ∧ high.value = current.value
  commit : ∀ commit ∈ core.mCommit,
    ∃ high ∈ core.mHighBallot, commit ≤ high ∧ commit.value = high.value
  phase : core.mPhase ≠ .SCP_PHASE_PREPARE → core.mCommit.isSome

def Call.offers : Call NodeID Hash Value → Value → Prop
  | .bumpState value _, offered => offered = value
  | .bumpStateTo value _, offered => offered = value
  | _, _ => False

def BumpValue (slot : SlotContext NodeID Hash Value) (call : Call NodeID Hash Value)
    (core : BallotCore NodeID Hash Value) (value : Value) : Prop :=
  core.mValueOverride = some value ∨
    core.mValueOverride = none ∧
      (call.offers value ∨ value = slot.latestCompositeCandidate ∧ value ≠ ⊥ ∨
        ∃ current ∈ core.mCurrentBallot, current.value = value)

/-- `attemptPreparedAccept` ran for `hint` at `start`, and `core` is a later state of the same
call: every candidate that could be accepted at `start` is below the prepared ballot. -/
structure Settles (slot : SlotContext NodeID Hash Value) (hint : SCPStatement NodeID Hash Value)
    (start core : BallotCore NodeID Hash Value) : Prop where
  recorded : start.mLatestEnvelopes.lookup hint.nodeID = some hint
  others : ∀ nodeID ≠ slot.localNodeID,
    core.mLatestEnvelopes.lookup nodeID = start.mLatestEnvelopes.lookup nodeID
  dominated : ∀ ballot ∈ getPrepareCandidates start hint,
    federatedAccept slot start.mLatestEnvelopes (votedPrepared ballot) (hasPreparedBallot ballot) = true →
      ∃ prepared ∈ core.mPrepared, ballot ≤ prepared

/-- The changes, with everything the code checked before making them. The two lists are the
confirmations and the externalized values that go with the change. -/
inductive Change (slot : SlotContext NodeID Hash Value) (call : Call NodeID Hash Value) :
    BallotCore NodeID Hash Value → BallotCore NodeID Hash Value →
      List (Confirmation Value) → List Value → Prop
  | bump (core : BallotCore NodeID Hash Value) (ballot : SCPBallot Value)
      (running : core.mPhase ≠ .SCP_PHASE_EXTERNALIZE)
      (above : ∀ current ∈ core.mCurrentBallot, current < ballot)
      (compatible : ∀ commit ∈ core.mCommit, commit.value = ballot.value)
      (counter : ballot.counter ≠ 0 ∨
        core.mCurrentBallot = none ∧ ∃ value, call = .bumpStateTo value 0)
      (value : BumpValue slot call core ballot.value) :
      Change slot call core (core.bumpTo ballot) [] []
  | acceptPrepared (core : BallotCore NodeID Hash Value) (hint : SCPStatement NodeID Hash Value)
      (ballot : SCPBallot Value)
      (running : core.mPhase ≠ .SCP_PHASE_EXTERNALIZE)
      (candidate : ballot ∈ getPrepareCandidates core hint)
      (confirming : core.mPhase = .SCP_PHASE_CONFIRM →
        (∃ prepared ∈ core.mPrepared, prepared ≤ ballot ∧ prepared.value = ballot.value) ∧
          ∃ commit ∈ core.mCommit, commit.value = ballot.value)
      (abovePrime : ∀ prime ∈ core.mPreparedPrime, prime < ballot)
      (unprepared : ∀ prepared ∈ core.mPrepared, ¬ (ballot ≤ prepared ∧ ballot.value = prepared.value))
      (accepted : federatedAccept slot core.mLatestEnvelopes (votedPrepared ballot)
        (hasPreparedBallot ballot) = true)
      (changed : (setPrepared core ballot).2 = true ∨ abortsCommit (setPrepared core ballot).1 = true)
      (aborting : abortsCommit (setPrepared core ballot).1 = true → core.mPhase = .SCP_PHASE_PREPARE) :
      Change slot call core (core.acceptPrepared ballot) [] []
  | confirmPrepared (start core : BallotCore NodeID Hash Value)
      (hint : SCPStatement NodeID Hash Value) (newC newH : SCPBallot Value)
      (preparing : core.mPhase = .SCP_PHASE_PREPARE)
      (settled : Settles slot hint start core)
      (candidate : newH ∈ getPrepareCandidates core hint)
      (aboveHigh : ∀ high ∈ core.mHighBallot, high < newH)
      (ratified : federatedRatify slot core.mLatestEnvelopes (hasPreparedBallot newH) = true)
      (commitVote : newC.counter ≠ 0 →
        mayVoteCommit core newH = true ∧ newC ≤ newH ∧ newC.value = newH.value) :
      Change slot call core (core.confirmPrepared newC newH)
        [⟨core.mCurrentBallot, core.mCommit, newH⟩] []
  | acceptCommit (core : BallotCore NodeID Hash Value) (c h : SCPBallot Value)
      (running : core.mPhase ≠ .SCP_PHASE_EXTERNALIZE)
      (counter : c.counter ≠ 0) (ordered : c ≤ h) (sameValue : c.value = h.value)
      (known : ∃ entry ∈ core.mLatestEnvelopes.entries, commitBoundaries h entry.2.pledges ≠ [])
      (extending : core.mPhase = .SCP_PHASE_CONFIRM →
        ∃ high ∈ core.mHighBallot, high.value = h.value ∧ high.counter < h.counter) :
      Change slot call core (core.acceptCommit c h) [] []
  | confirmCommit (core : BallotCore NodeID Hash Value) (c h : SCPBallot Value)
      (confirming : core.mPhase = .SCP_PHASE_CONFIRM)
      (counter : c.counter ≠ 0) (ordered : c ≤ h) (sameValue : c.value = h.value)
      (compatible : ∃ commit ∈ core.mCommit, commit.value = c.value)
      (ratified : federatedRatify slot core.mLatestEnvelopes
        (commitPredicate h (c.counter, h.counter)) = true) :
      Change slot call core (core.confirmCommit c h) [] [c.value]

structure Accepted (slot : SlotContext NodeID Hash Value) (core : BallotCore NodeID Hash Value)
    (st : SCPStatement NodeID Hash Value) : Prop where
  sane : isStatementSane slot st true = true
  newer : isNewerStatement core slot.localNodeID st = true
  valid : validateValues slot st.pledges ≠ .kInvalidValue
  final : core.mPhase = .SCP_PHASE_EXTERNALIZE →
    ∃ commit ∈ core.mCommit, commit.value = (getWorkingBallot st.pledges).value

def currentStatement (slot : SlotContext NodeID Hash Value) (core : BallotCore NodeID Hash Value) :
    Except Fault (SCPStatement NodeID Hash Value) :=
  createStatement slot core (phaseStatementType core.mPhase)

/-- A changed state is announced: its statement is already recorded, or is recorded now. -/
inductive Announced (slot : SlotContext NodeID Hash Value) :
    BallotCore NodeID Hash Value → BallotCore NodeID Hash Value → Prop
  | already (core : BallotCore NodeID Hash Value) (st : SCPStatement NodeID Hash Value)
      (created : currentStatement slot core = .ok st)
      (known : core.mLatestEnvelopes.lookup slot.localNodeID = some st) :
      Announced slot core core
  | record (core : BallotCore NodeID Hash Value) (st : SCPStatement NodeID Hash Value)
      (created : currentStatement slot core = .ok st)
      (accepted : Accepted slot core st) :
      Announced slot core
        { core with mLatestEnvelopes := core.mLatestEnvelopes.insert slot.localNodeID st }

/-- A statement a node made, read in a later state of that node: once it has accepted a
commit, what it said about the commit value still stands. -/
def SpokenBy (nodeID : NodeID) (hash : Hash) (core : BallotCore NodeID Hash Value)
    (st : SCPStatement NodeID Hash Value) : Prop :=
  st.nodeID = nodeID ∧
    match st.pledges with
    | .prepare quorumSetHash .. => quorumSetHash = hash
    | .confirm ballot _ _ _ quorumSetHash =>
        quorumSetHash = hash ∧ core.mPhase ≠ .SCP_PHASE_PREPARE ∧
          ∃ commit ∈ core.mCommit, commit.value = ballot.value
    | .externalize commitBallot .. =>
        core.mPhase = .SCP_PHASE_EXTERNALIZE ∧
          ∃ commit ∈ core.mCommit, commit.value = commitBallot.value

abbrev Own (slot : SlotContext NodeID Hash Value) (core : BallotCore NodeID Hash Value)
    (st : SCPStatement NodeID Hash Value) : Prop :=
  SpokenBy slot.localNodeID slot.quorumSetHash core st

inductive Step (slot : SlotContext NodeID Hash Value) (call : Call NodeID Hash Value) :
    BallotView NodeID Hash Value → BallotView NodeID Hash Value → Prop
  | change (view : BallotView NodeID Hash Value) (changed announced : BallotCore NodeID Hash Value)
      (confirmations : List (Confirmation Value)) (values : List Value)
      (made : Change slot call view.core changed confirmations values)
      (told : Announced slot changed announced) :
      Step slot call view
        { view with
          core := announced
          externalized := view.externalized ++ values
          confirmations := view.confirmations ++ confirmations }
  /-- A confirmed `prepare` that only sets the value override is not announced. -/
  | override (view : BallotView NodeID Hash Value) (value : Value)
      (confirmations : List (Confirmation Value))
      (made : Change slot call view.core { view.core with mValueOverride := some value }
        confirmations []) :
      Step slot call view
        { view with
          core := { view.core with mValueOverride := some value }
          confirmations := view.confirmations ++ confirmations }
  | remember (view : BallotView NodeID Hash Value) (st : SCPStatement NodeID Hash Value)
      (own : Own slot view.core st) :
      Step slot call view { view with lastEnvelope := some st }
  | emit (view : BallotView NodeID Hash Value) (st : SCPStatement NodeID Hash Value)
      (last : view.lastEnvelope = some st) :
      Step slot call view { view with emitted := view.emitted ++ [st] }

abbrev Path (slot : SlotContext NodeID Hash Value) (call : Call NodeID Hash Value) :
    BallotView NodeID Hash Value → BallotView NodeID Hash Value → Prop :=
  Relation.ReflTransGen (Step slot call)

/-- How a call can fail: after a path, and for the two faults the results are about, right
after a change whose check or whose announcement failed. -/
def Fails (slot : SlotContext NodeID Hash Value) (call : Call NodeID Hash Value) (fault : Fault)
    (view failed : BallotView NodeID Hash Value) : Prop :=
  ∃ reached : BallotView NodeID Hash Value, Path slot call view reached ∧
    failed.emitted = reached.emitted ∧ failed.externalized = reached.externalized ∧
    (fault = .checkInvariants → ∃ confirmations values,
      Change slot call reached.core failed.core confirmations values ∧
      failed.confirmations = reached.confirmations ++ confirmations ∧
      invariantsHold failed.core = false) ∧
    (fault = .movedToBadState → ∃ confirmations values st,
      Change slot call reached.core failed.core confirmations values ∧
      failed.confirmations = reached.confirmations ++ confirmations ∧
      currentStatement slot failed.core = .ok st ∧
      failed.core.mLatestEnvelopes.lookup slot.localNodeID ≠ some st ∧
      ¬ Accepted slot failed.core st)

/-! ### Coherence -/

omit [DecidableEq NodeID] [DecidableEq Hash] [OrderBot Value] in
theorem Coherent.invariantsHold {core : BallotCore NodeID Hash Value} (coherent : Coherent core) :
    invariantsHold core = true := by
  obtain ⟨counter, prime, high, commit, phase⟩ := coherent
  unfold SCP.invariantsHold
  simp only [Bool.and_eq_true]
  refine ⟨⟨⟨⟨?_, ?_⟩, ?_⟩, ?_⟩, ?_⟩
  · cases found : core.mCurrentBallot with
    | none => rfl
    | some current => simpa using counter current found
  · split
    · rename_i preparedBallot primeBallot preparedAt primeAt
      obtain ⟨prepared, member, below, different⟩ := prime primeBallot primeAt
      have same : preparedBallot = prepared := Option.some.inj (preparedAt.symm.trans member)
      exact (areBallotsLessAndIncompatible_iff _ _).mpr ⟨same ▸ below, same ▸ different⟩
    · rfl
  · split
    · rename_i highBallot highAt
      obtain ⟨current, member, below⟩ := high highBallot highAt
      rw [Option.mem_def.mp member]
      exact (areBallotsLessAndCompatible_iff _ _).mpr below
    · rfl
  · split
    · rename_i commitBallot commitAt
      obtain ⟨highBallot, highAt, below⟩ := commit commitBallot commitAt
      obtain ⟨current, currentAt, bounded⟩ := high highBallot highAt
      rw [Option.mem_def.mp highAt, Option.mem_def.mp currentAt]
      simp only [Bool.and_eq_true]
      exact ⟨(areBallotsLessAndCompatible_iff _ _).mpr below,
        (areBallotsLessAndCompatible_iff _ _).mpr bounded⟩
    · rfl
  · split
    · rfl
    · rename_i confirming
      exact phase (by rw [confirming]; decide)
    · rename_i externalizing
      have committed := phase (by rw [externalizing]; decide)
      obtain ⟨commitBallot, commitAt⟩ := Option.isSome_iff_exists.mp committed
      obtain ⟨highBallot, highAt, _⟩ := commit commitBallot commitAt
      rw [committed, Option.mem_def.mp highAt]
      rfl

omit [DecidableEq NodeID] [DecidableEq Hash] [OrderBot Value] in
theorem Coherent.of_invariantsHold {core : BallotCore NodeID Hash Value}
    (holds : SCP.invariantsHold core = true)
    (primed : core.mPreparedPrime.isSome → core.mPrepared.isSome) : Coherent core := by
  unfold SCP.invariantsHold at holds
  simp only [Bool.and_eq_true] at holds
  obtain ⟨⟨⟨⟨counter, prime⟩, high⟩, commit⟩, phase⟩ := holds
  refine ⟨?_, ?_, ?_, ?_, ?_⟩
  · intro current member
    rw [Option.mem_def.mp member] at counter
    simpa using counter
  · intro primeBallot primeAt
    have prepared := primed (by rw [Option.mem_def.mp primeAt]; rfl)
    obtain ⟨preparedBallot, preparedAt⟩ := Option.isSome_iff_exists.mp prepared
    rw [preparedAt, Option.mem_def.mp primeAt] at prime
    exact ⟨preparedBallot, preparedAt, (areBallotsLessAndIncompatible_iff _ _).mp prime⟩
  · intro highBallot highAt
    rw [Option.mem_def.mp highAt] at high
    obtain ⟨current, currentAt, below⟩ := Option.any_eq_true _ _ |>.mp high
    exact ⟨current, currentAt, (areBallotsLessAndCompatible_iff _ _).mp below⟩
  · intro commitBallot commitAt
    rw [Option.mem_def.mp commitAt] at commit
    simp only at commit
    split at commit
    · rename_i current highBallot currentAt highAt
      rw [Bool.and_eq_true] at commit
      exact ⟨highBallot, highAt, (areBallotsLessAndCompatible_iff _ _).mp commit.1⟩
    · cases commit
  · intro started
    split at phase
    · rename_i preparing
      exact absurd preparing started
    · exact phase
    · rw [Bool.and_eq_true] at phase
      exact phase.1

/-! ### What a change keeps -/

section

omit [DecidableEq NodeID] [DecidableEq Hash] [OrderBot Value]

theorem setPrepared_frame (core : BallotCore NodeID Hash Value) (ballot : SCPBallot Value) :
    (setPrepared core ballot).1 =
      { core with
        mPrepared := (setPrepared core ballot).1.mPrepared
        mPreparedPrime := (setPrepared core ballot).1.mPreparedPrime } := by
  unfold setPrepared
  split
  · split_ifs <;> rfl
  · rfl

theorem setPrepared_unchanged (core : BallotCore NodeID Hash Value) (ballot : SCPBallot Value)
    (same : (setPrepared core ballot).2 = false) : (setPrepared core ballot).1 = core := by
  unfold setPrepared at same ⊢
  split
  · rename_i prepared found
    rw [found] at same
    simp only at same
    by_cases below : compareBallots prepared ballot < 0
    · rw [if_pos below] at same
      cases same
    · rw [if_neg below] at same ⊢
      split_ifs at same ⊢ <;> rfl
  · rename_i found
    rw [found] at same
    cases same

theorem setPrepared_prepared (core : BallotCore NodeID Hash Value) (ballot : SCPBallot Value) :
    ∃ prepared, (setPrepared core ballot).1.mPrepared = some prepared ∧ ballot ≤ prepared ∧
      ∀ old ∈ core.mPrepared, old ≤ prepared := by
  unfold setPrepared
  split
  · rename_i old found
    have kept : ∀ other ∈ core.mPrepared, other ≤ old := by
      intro other member
      exact (Option.some.inj (member.symm.trans found)).le
    by_cases below : compareBallots old ballot < 0
    · rw [if_pos below]
      have raised : old < ballot := (compareBallots_lt_zero _ _).mp below
      exact ⟨ballot, rfl, le_refl _, fun other member => (kept other member).trans raised.le⟩
    · rw [if_neg below]
      have bounded : ballot ≤ old :=
        not_lt.mp (fun higher => below ((compareBallots_lt_zero _ _).mpr higher))
      refine ⟨old, ?_, bounded, kept⟩
      split_ifs <;> exact found
  · rename_i found
    refine ⟨ballot, rfl, le_refl _, ?_⟩
    intro other member
    rw [found] at member
    cases member

end

section Frames

variable (core : BallotCore NodeID Hash Value) (ballot c h : SCPBallot Value)

section

omit [DecidableEq NodeID] [DecidableEq Hash] [OrderBot Value]

@[simp] theorem BallotCore.raiseCurrent_latest :
    (core.raiseCurrent h).mLatestEnvelopes = core.mLatestEnvelopes := by
  unfold raiseCurrent; split <;> rfl
@[simp] theorem BallotCore.raiseCurrent_prepared :
    (core.raiseCurrent h).mPrepared = core.mPrepared := by
  unfold raiseCurrent; split <;> rfl
@[simp] theorem BallotCore.raiseCurrent_prime :
    (core.raiseCurrent h).mPreparedPrime = core.mPreparedPrime := by
  unfold raiseCurrent; split <;> rfl
@[simp] theorem BallotCore.raiseCurrent_commit :
    (core.raiseCurrent h).mCommit = core.mCommit := by
  unfold raiseCurrent; split <;> rfl
@[simp] theorem BallotCore.raiseCurrent_phase :
    (core.raiseCurrent h).mPhase = core.mPhase := by
  unfold raiseCurrent; split <;> rfl
@[simp] theorem BallotCore.raiseCurrent_override :
    (core.raiseCurrent h).mValueOverride = core.mValueOverride := by
  unfold raiseCurrent; split <;> rfl

theorem BallotCore.raiseCurrent_high (found : core.mHighBallot = some h) :
    (core.raiseCurrent h).mHighBallot = some h := by
  unfold raiseCurrent
  split
  · simp [bumpTo, found, areBallotsCompatible]
  · exact found

theorem BallotCore.raiseCurrent_current :
    ∃ current, (core.raiseCurrent h).mCurrentBallot = some current ∧ h ≤ current ∧
      (current = h ∨ core.mCurrentBallot = some current) := by
  unfold raiseCurrent
  split
  · exact ⟨h, rfl, le_refl _, Or.inl rfl⟩
  · rename_i kept
    cases found : core.mCurrentBallot with
    | none => simp [found] at kept
    | some current =>
        refine ⟨current, rfl, ?_, Or.inr rfl⟩
        rw [found] at kept
        simpa [compareBallots_lt_zero] using kept

theorem BallotCore.acceptPrepared_eq :
    core.acceptPrepared ballot =
      { core with
        mPrepared := (setPrepared core ballot).1.mPrepared
        mPreparedPrime := (setPrepared core ballot).1.mPreparedPrime
        mCommit := if abortsCommit (setPrepared core ballot).1 then none else core.mCommit } := by
  unfold acceptPrepared
  simp only
  split
  · rw [setPrepared_frame]
  · exact setPrepared_frame core ballot

@[simp] theorem BallotCore.confirmPrepared_latest :
    (core.confirmPrepared c h).mLatestEnvelopes = core.mLatestEnvelopes := by
  unfold confirmPrepared; simp only [raiseCurrent_latest]; split <;> rfl
@[simp] theorem BallotCore.confirmPrepared_prepared :
    (core.confirmPrepared c h).mPrepared = core.mPrepared := by
  unfold confirmPrepared; simp only [raiseCurrent_prepared]; split <;> rfl
@[simp] theorem BallotCore.confirmPrepared_prime :
    (core.confirmPrepared c h).mPreparedPrime = core.mPreparedPrime := by
  unfold confirmPrepared; simp only [raiseCurrent_prime]; split <;> rfl
@[simp] theorem BallotCore.confirmPrepared_phase :
    (core.confirmPrepared c h).mPhase = core.mPhase := by
  unfold confirmPrepared; simp only [raiseCurrent_phase]; split <;> rfl
@[simp] theorem BallotCore.acceptCommit_latest :
    (core.acceptCommit c h).mLatestEnvelopes = core.mLatestEnvelopes := by
  unfold acceptCommit; simp only [raiseCurrent_latest]; split_ifs <;> rfl
@[simp] theorem BallotCore.acceptCommit_prepared :
    (core.acceptCommit c h).mPrepared = core.mPrepared := by
  unfold acceptCommit; simp only [raiseCurrent_prepared]; split_ifs <;> rfl
@[simp] theorem BallotCore.acceptCommit_commit :
    (core.acceptCommit c h).mCommit = some c := by
  unfold acceptCommit; simp only [raiseCurrent_commit]; split_ifs <;> rfl
@[simp] theorem BallotCore.acceptCommit_high :
    (core.acceptCommit c h).mHighBallot = some h := by
  unfold acceptCommit
  apply raiseCurrent_high
  split_ifs <;> simp [bumpTo, areBallotsCompatible]
theorem BallotCore.acceptCommit_prime :
    (core.acceptCommit c h).mPreparedPrime =
      if core.mPhase = .SCP_PHASE_PREPARE then none else core.mPreparedPrime := by
  unfold acceptCommit; simp only [raiseCurrent_prime]; split_ifs <;> rfl
theorem BallotCore.acceptCommit_phase :
    (core.acceptCommit c h).mPhase =
      if core.mPhase = .SCP_PHASE_PREPARE then .SCP_PHASE_CONFIRM else core.mPhase := by
  unfold acceptCommit; simp only [raiseCurrent_phase]; split_ifs <;> rfl

theorem BallotCore.acceptCommit_current :
    ∃ current, (core.acceptCommit c h).mCurrentBallot = some current ∧ h ≤ current ∧
      (current.value = h.value ∨
        core.mPhase ≠ .SCP_PHASE_PREPARE ∧ core.mCurrentBallot = some current) := by
  unfold acceptCommit
  obtain ⟨current, found, above, origin⟩ := raiseCurrent_current
    (if core.mPhase = .SCP_PHASE_PREPARE then
      { (if core.mCurrentBallot.any (fun current => !areBallotsLessAndCompatible h current) then
          { core with mValueOverride := some h.value, mCommit := some c, mHighBallot := some h,
                      mPhase := .SCP_PHASE_CONFIRM }.bumpTo h
        else { core with mValueOverride := some h.value, mCommit := some c, mHighBallot := some h,
                         mPhase := .SCP_PHASE_CONFIRM }) with mPreparedPrime := none }
    else { core with mValueOverride := some h.value, mCommit := some c, mHighBallot := some h }) h
  refine ⟨current, found, above, ?_⟩
  rcases origin with same | kept
  · exact Or.inl (congrArg SCPBallot.value same)
  · split_ifs at kept with preparing moved
    · exact Or.inl (congrArg SCPBallot.value (Option.some.inj kept)).symm
    · left
      simp only at kept
      rw [kept] at moved
      simp only [Option.any_some, Bool.not_eq_true', Bool.not_eq_false] at moved
      exact ((areBallotsLessAndCompatible_iff _ _).mp moved).2.symm
    · exact Or.inr ⟨preparing, kept⟩

@[simp] theorem BallotCore.confirmCommit_latest :
    (core.confirmCommit c h).mLatestEnvelopes = core.mLatestEnvelopes := by
  simp [confirmCommit]
@[simp] theorem BallotCore.confirmCommit_prepared :
    (core.confirmCommit c h).mPrepared = core.mPrepared := by
  simp [confirmCommit]
@[simp] theorem BallotCore.confirmCommit_prime :
    (core.confirmCommit c h).mPreparedPrime = core.mPreparedPrime := by
  simp [confirmCommit]
@[simp] theorem BallotCore.confirmCommit_commit :
    (core.confirmCommit c h).mCommit = some c := by
  simp [confirmCommit]
@[simp] theorem BallotCore.confirmCommit_phase :
    (core.confirmCommit c h).mPhase = .SCP_PHASE_EXTERNALIZE := rfl
@[simp] theorem BallotCore.confirmCommit_high :
    (core.confirmCommit c h).mHighBallot = some h :=
  raiseCurrent_high _ h rfl

theorem BallotCore.confirmCommit_current :
    ∃ current, (core.confirmCommit c h).mCurrentBallot = some current ∧ h ≤ current ∧
      (current = h ∨ core.mCurrentBallot = some current) :=
  raiseCurrent_current { core with mCommit := some c, mHighBallot := some h } h

end

end Frames

section Keeps

variable {slot : SlotContext NodeID Hash Value} {call : Call NodeID Hash Value}
  {core changed : BallotCore NodeID Hash Value} {confirmations : List (Confirmation Value)}
  {values : List Value}

section

omit [DecidableEq Hash]

theorem Change.latest (made : Change slot call core changed confirmations values) :
    changed.mLatestEnvelopes = core.mLatestEnvelopes := by
  cases made with
  | bump => rfl
  | acceptPrepared => rw [BallotCore.acceptPrepared_eq]
  | confirmPrepared => simp
  | acceptCommit => simp
  | confirmCommit => simp

theorem Change.prepared_mono (made : Change slot call core changed confirmations values)
    (old : SCPBallot Value) (member : old ∈ core.mPrepared) :
    ∃ prepared ∈ changed.mPrepared, old ≤ prepared := by
  cases made with
  | bump => exact ⟨old, member, le_refl _⟩
  | acceptPrepared _ hint ballot =>
      obtain ⟨prepared, found, _, above⟩ := setPrepared_prepared core ballot
      rw [BallotCore.acceptPrepared_eq]
      exact ⟨prepared, found, above old member⟩
  | confirmPrepared => exact ⟨old, by simpa using member, le_refl _⟩
  | acceptCommit => exact ⟨old, by simpa using member, le_refl _⟩
  | confirmCommit => exact ⟨old, by simpa using member, le_refl _⟩

theorem Change.primed (made : Change slot call core changed confirmations values)
    (coherent : Coherent core) : changed.mPreparedPrime.isSome → changed.mPrepared.isSome := by
  have before : core.mPreparedPrime.isSome → core.mPrepared.isSome := by
    intro primed
    obtain ⟨prime, primeAt⟩ := Option.isSome_iff_exists.mp primed
    obtain ⟨prepared, preparedAt, _⟩ := coherent.prime prime primeAt
    rw [Option.mem_def.mp preparedAt]
    rfl
  cases made with
  | bump => exact before
  | acceptPrepared _ hint ballot =>
      intro _
      obtain ⟨prepared, found, _⟩ := setPrepared_prepared core ballot
      rw [BallotCore.acceptPrepared_eq]
      simp only [found, Option.isSome_some]
  | confirmPrepared => simpa using before
  | acceptCommit =>
      rw [BallotCore.acceptCommit_prime, BallotCore.acceptCommit_prepared]
      split_ifs
      · intro impossible
        cases impossible
      · exact before
  | confirmCommit => simpa using before

end

/-- The node has left PREPARE and carries one value on `c`, `h` and `b`. -/
structure Fixed (value : Value) (core : BallotCore NodeID Hash Value) : Prop where
  started : core.mPhase ≠ .SCP_PHASE_PREPARE
  commit : ∃ commit ∈ core.mCommit, commit.value = value
  high : ∃ high ∈ core.mHighBallot, high.value = value
  current : ∃ current ∈ core.mCurrentBallot, current.value = value

omit [DecidableEq NodeID] [DecidableEq Hash] [OrderBot Value] in
theorem Coherent.fixed (coherent : Coherent core) (started : core.mPhase ≠ .SCP_PHASE_PREPARE) :
    ∃ value, Fixed value core := by
  obtain ⟨commit, commitAt⟩ := Option.isSome_iff_exists.mp (coherent.phase started)
  obtain ⟨high, highAt, _, commitSame⟩ := coherent.commit commit commitAt
  obtain ⟨current, currentAt, _, highSame⟩ := coherent.high high highAt
  exact ⟨commit.value, started, ⟨commit, commitAt, rfl⟩, ⟨high, highAt, commitSame.symm⟩,
    ⟨current, currentAt, (commitSame.trans highSame).symm⟩⟩

section

omit [DecidableEq NodeID] [DecidableEq Hash] [LinearOrder Value] [OrderBot Value]

theorem Fixed.commit_value {value : Value} (fixed : Fixed value core) (commit : SCPBallot Value)
    (member : commit ∈ core.mCommit) : commit.value = value := by
  obtain ⟨other, otherAt, same⟩ := fixed.commit
  rw [Option.some.inj (member.symm.trans otherAt)]
  exact same

theorem Fixed.high_value {value : Value} (fixed : Fixed value core) (high : SCPBallot Value)
    (member : high ∈ core.mHighBallot) : high.value = value := by
  obtain ⟨other, otherAt, same⟩ := fixed.high
  rw [Option.some.inj (member.symm.trans otherAt)]
  exact same

theorem Fixed.current_value {value : Value} (fixed : Fixed value core) (current : SCPBallot Value)
    (member : current ∈ core.mCurrentBallot) : current.value = value := by
  obtain ⟨other, otherAt, same⟩ := fixed.current
  rw [Option.some.inj (member.symm.trans otherAt)]
  exact same

end

omit [DecidableEq Hash] in
theorem Change.fixed {value : Value} (made : Change slot call core changed confirmations values)
    (fixed : Fixed value core) : Fixed value changed := by
  cases made with
  | bump _ ballot running above compatible =>
      obtain ⟨commit, commitAt, commitSame⟩ := fixed.commit
      obtain ⟨high, highAt, highSame⟩ := fixed.high
      have ballotSame : ballot.value = value := (compatible commit commitAt).symm.trans commitSame
      refine ⟨fixed.started, ⟨commit, commitAt, commitSame⟩, ⟨high, ?_, highSame⟩,
        ⟨ballot, rfl, ballotSame⟩⟩
      simp [BallotCore.bumpTo, Option.mem_def.mp highAt, areBallotsCompatible, ballotSame, highSame]
  | acceptPrepared _ hint ballot running candidate confirming abovePrime unprepared accepted changes
      aborting =>
      have kept : abortsCommit (setPrepared core ballot).1 = false := by
        cases aborts : abortsCommit (setPrepared core ballot).1 with
        | false => rfl
        | true => exact absurd (aborting aborts) fixed.started
      rw [BallotCore.acceptPrepared_eq]
      exact ⟨fixed.started, by simpa [kept] using fixed.commit, fixed.high, fixed.current⟩
  | confirmPrepared start _ hint newC newH preparing => exact absurd preparing fixed.started
  | acceptCommit _ c h running counter ordered sameValue known extending =>
      have confirming : core.mPhase = .SCP_PHASE_CONFIRM := by
        cases phase : core.mPhase with
        | SCP_PHASE_PREPARE => exact absurd phase fixed.started
        | SCP_PHASE_CONFIRM => rfl
        | SCP_PHASE_EXTERNALIZE => exact absurd phase running
      obtain ⟨high, highAt, highSame, _⟩ := extending confirming
      have heldValue : h.value = value := highSame.symm.trans (fixed.high_value high highAt)
      obtain ⟨current, currentAt, _, origin⟩ := BallotCore.acceptCommit_current core c h
      refine ⟨?_, ⟨c, by simp, sameValue.trans heldValue⟩, ⟨h, by simp, heldValue⟩,
        ⟨current, currentAt, ?_⟩⟩
      · rw [BallotCore.acceptCommit_phase, confirming]
        decide
      · rcases origin with same | ⟨_, kept⟩
        · exact same.trans heldValue
        · exact fixed.current_value current kept
  | confirmCommit _ c h confirming counter ordered sameValue compatible =>
      obtain ⟨commit, commitAt, commitSame⟩ := compatible
      have cValue : c.value = value := commitSame.symm.trans (fixed.commit_value commit commitAt)
      have hValue : h.value = value := sameValue.symm.trans cValue
      obtain ⟨current, currentAt, _, origin⟩ := BallotCore.confirmCommit_current core c h
      refine ⟨by simp, ⟨c, by simp, cValue⟩, ⟨h, by simp, hValue⟩, ⟨current, currentAt, ?_⟩⟩
      rcases origin with same | kept
      · rw [same]
        exact hValue
      · exact fixed.current_value current kept

omit [DecidableEq Hash] in
theorem Change.not_externalized (made : Change slot call core changed confirmations values) :
    core.mPhase ≠ .SCP_PHASE_EXTERNALIZE := by
  cases made with
  | bump _ ballot running => exact running
  | acceptPrepared _ hint ballot running => exact running
  | confirmPrepared start _ hint newC newH preparing => rw [preparing]; decide
  | acceptCommit _ c h running => exact running
  | confirmCommit _ c h confirming => rw [confirming]; decide

end Keeps

/-! ### What a path keeps -/

section Paths

variable {slot : SlotContext NodeID Hash Value} {call : Call NodeID Hash Value}
  {core announced : BallotCore NodeID Hash Value} {st : SCPStatement NodeID Hash Value}
  {view next : BallotView NodeID Hash Value}

omit [DecidableEq NodeID] [DecidableEq Hash] in
theorem currentStatement_invariants (created : currentStatement slot core = .ok st) :
    invariantsHold core = true := by
  cases holds : invariantsHold core with
  | true => rfl
  | false => simp [currentStatement, createStatement, holds] at created

omit [DecidableEq NodeID] [DecidableEq Hash] in
theorem currentStatement_own (created : currentStatement slot core = .ok st) : Own slot core st := by
  have holds := currentStatement_invariants created
  unfold currentStatement createStatement at created
  simp only [holds, Bool.not_true, Bool.false_eq_true, if_false] at created
  cases phase : core.mPhase with
  | SCP_PHASE_PREPARE =>
      rw [phase] at created
      simp only [phaseStatementType, Except.ok.injEq] at created
      subst created
      exact ⟨rfl, rfl⟩
  | SCP_PHASE_CONFIRM =>
      rw [phase] at created
      simp only [phaseStatementType] at created
      split at created
      · rename_i current prepared commit high currentAt preparedAt commitAt highAt
        simp only [Except.ok.injEq] at created
        subst created
        refine ⟨rfl, rfl, by rw [phase]; decide, commit, commitAt, ?_⟩
        unfold invariantsHold at holds
        simp only [Bool.and_eq_true, currentAt, highAt, commitAt] at holds
        have low := (areBallotsLessAndCompatible_iff _ _).mp holds.1.2.1
        have top := (areBallotsLessAndCompatible_iff _ _).mp holds.1.2.2
        exact low.2.trans top.2
      · cases created
  | SCP_PHASE_EXTERNALIZE =>
      rw [phase] at created
      simp only [phaseStatementType] at created
      split at created
      · rename_i commit high commitAt highAt
        simp only [Except.ok.injEq] at created
        subst created
        exact ⟨rfl, phase, commit, commitAt, rfl⟩
      · cases created

section

omit [DecidableEq Hash]

theorem Announced.frame (told : Announced slot core announced) :
    announced = { core with mLatestEnvelopes := announced.mLatestEnvelopes } := by
  cases told <;> rfl

theorem Announced.others (told : Announced slot core announced) (nodeID : NodeID)
    (other : nodeID ≠ slot.localNodeID) :
    announced.mLatestEnvelopes.lookup nodeID = core.mLatestEnvelopes.lookup nodeID := by
  cases told with
  | already => rfl
  | record => exact AList.lookup_insert_ne other

theorem Announced.invariants (told : Announced slot core announced) : invariantsHold core = true := by
  cases told with
  | already st created => exact currentStatement_invariants created
  | record st created => exact currentStatement_invariants created

end

omit [DecidableEq NodeID] [DecidableEq Hash] [OrderBot Value] in
theorem Coherent.withLatest (coherent : Coherent core) (latest : EnvelopeMap NodeID Hash Value) :
    Coherent { core with mLatestEnvelopes := latest } :=
  ⟨coherent.counter, coherent.prime, coherent.high, coherent.commit, coherent.phase⟩

omit [DecidableEq NodeID] [DecidableEq Hash] [LinearOrder Value] [OrderBot Value] in
theorem Fixed.withLatest {value : Value} (fixed : Fixed value core)
    (latest : EnvelopeMap NodeID Hash Value) :
    Fixed value { core with mLatestEnvelopes := latest } :=
  ⟨fixed.started, fixed.commit, fixed.high, fixed.current⟩

section

omit [DecidableEq Hash]

theorem Step.coherent (step : Step slot call view next) (coherent : Coherent view.core) :
    Coherent next.core := by
  cases step with
  | change changed announced confirmations values made told =>
      have kept := Coherent.of_invariantsHold told.invariants (made.primed coherent)
      show Coherent announced
      rw [told.frame]
      exact kept.withLatest announced.mLatestEnvelopes
  | override value confirmations made =>
      exact ⟨coherent.counter, coherent.prime, coherent.high, coherent.commit, coherent.phase⟩
  | remember => exact coherent
  | emit => exact coherent

theorem Path.coherent (path : Path slot call view next) (coherent : Coherent view.core) :
    Coherent next.core := by
  induction path with
  | refl => exact coherent
  | tail _ step ih => exact step.coherent ih

theorem Step.others (step : Step slot call view next) (nodeID : NodeID)
    (other : nodeID ≠ slot.localNodeID) :
    next.core.mLatestEnvelopes.lookup nodeID = view.core.mLatestEnvelopes.lookup nodeID := by
  cases step with
  | change changed announced confirmations values made told =>
      show announced.mLatestEnvelopes.lookup nodeID = _
      rw [told.others nodeID other, made.latest]
  | override => rfl
  | remember => rfl
  | emit => rfl

theorem Path.others (path : Path slot call view next) (nodeID : NodeID)
    (other : nodeID ≠ slot.localNodeID) :
    next.core.mLatestEnvelopes.lookup nodeID = view.core.mLatestEnvelopes.lookup nodeID := by
  induction path with
  | refl => rfl
  | tail _ step ih => rw [step.others nodeID other, ih]

theorem Path.prepared_mono (path : Path slot call view next) (ballot : SCPBallot Value)
    (below : ∃ prepared ∈ view.core.mPrepared, ballot ≤ prepared) :
    ∃ prepared ∈ next.core.mPrepared, ballot ≤ prepared := by
  induction path with
  | refl => exact below
  | tail _ step ih =>
      obtain ⟨prepared, member, above⟩ := ih
      cases step with
      | change changed announced confirmations values made told =>
          obtain ⟨raised, raisedAt, higher⟩ := made.prepared_mono prepared member
          refine ⟨raised, ?_, above.trans higher⟩
          show raised ∈ announced.mPrepared
          rw [told.frame]
          exact raisedAt
      | override => exact ⟨prepared, member, above⟩
      | remember => exact ⟨prepared, member, above⟩
      | emit => exact ⟨prepared, member, above⟩

theorem Step.fixed {value : Value} (step : Step slot call view next)
    (fixed : Fixed value view.core) : Fixed value next.core := by
  cases step with
  | change changed announced confirmations values made told =>
      show Fixed value announced
      rw [told.frame]
      exact (made.fixed fixed).withLatest _
  | override => exact ⟨fixed.started, fixed.commit, fixed.high, fixed.current⟩
  | remember => exact fixed
  | emit => exact fixed

theorem Path.fixed {value : Value} (path : Path slot call view next)
    (fixed : Fixed value view.core) : Fixed value next.core := by
  induction path with
  | refl => exact fixed
  | tail _ step ih => exact step.fixed ih

theorem Step.externalized (step : Step slot call view next)
    (final : view.core.mPhase = .SCP_PHASE_EXTERNALIZE) :
    next.core = view.core ∧ next.externalized = view.externalized := by
  cases step with
  | change changed announced confirmations values made told =>
      exact absurd final made.not_externalized
  | override value confirmations made => exact absurd final made.not_externalized
  | remember => exact ⟨rfl, rfl⟩
  | emit => exact ⟨rfl, rfl⟩

theorem Path.externalized (path : Path slot call view next)
    (final : view.core.mPhase = .SCP_PHASE_EXTERNALIZE) :
    next.core = view.core ∧ next.externalized = view.externalized := by
  induction path with
  | refl => exact ⟨rfl, rfl⟩
  | tail _ step ih =>
      obtain ⟨sameCore, sameValues⟩ := step.externalized (by rw [ih.1]; exact final)
      exact ⟨sameCore.trans ih.1, sameValues.trans ih.2⟩

theorem Path.own (path : Path slot call view next) (coherent : Coherent view.core)
    (own : Own slot view.core st) : Own slot next.core st := by
  obtain ⟨sender, said⟩ := own
  refine ⟨sender, ?_⟩
  cases pledges : st.pledges with
  | prepare =>
      rw [pledges] at said
      exact said
  | confirm ballot nPrepared nCommit nH quorumSetHash =>
      rw [pledges] at said
      obtain ⟨sameHash, started, commit, commitAt, sameValue⟩ := said
      obtain ⟨value, fixed⟩ := coherent.fixed started
      have later := path.fixed fixed
      obtain ⟨kept, keptAt, keptValue⟩ := later.commit
      exact ⟨sameHash, later.started, kept, keptAt,
        keptValue.trans ((fixed.commit_value commit commitAt).symm.trans sameValue)⟩
  | externalize commit nH quorumSetHash =>
      rw [pledges] at said
      obtain ⟨final, matched⟩ := said
      rw [(path.externalized final).1]
      exact ⟨final, matched⟩

end

end Paths

end Changes

end ViiCore.SCP
