import ViiCore.SCP.BallotCounters
import ViiCore.SCP.BallotRun

/-!
A node that is restarted with the last statement it emitted (`BallotProtocol::setStateFromEnvelope`).

A statement gives `h` and `c` by their counters, and from CONFIRM on also `p`; their values are taken
from the ballot. That loses nothing that a statement says: a statement was made from a state that
passed `checkInvariants`, in which `c` and `h` have the value of the ballot and are not above it.
-/

namespace ViiCore.SCP

open Execution

variable {NodeID Hash Value : Type}
  [DecidableEq NodeID] [DecidableEq Hash] [LinearOrder Value] [OrderBot Value]

/-! ### Loading a statement -/

def setStateFromEnvelope (st : SCPStatement NodeID Hash Value) : BallotM NodeID Hash Value Unit := do
  if (← get).mCurrentBallot.isSome then
    throw .cannotSetState
  recordEnvelope st
  modify fun state => { state with mLastEnvelope := some st, mLastEnvelopeEmit := some st }
  match st.pledges with
  | .prepare _ b prepared preparedPrime nC nH =>
      bumpToBallot b true
      modify fun state =>
        { state with
          mPrepared := prepared <|> state.mPrepared
          mPreparedPrime := preparedPrime <|> state.mPreparedPrime
          mHighBallot := if nH ≠ 0 then some ⟨nH, b.value⟩ else state.mHighBallot
          mCommit := if nC ≠ 0 then some ⟨nC, b.value⟩ else state.mCommit
          mPhase := .SCP_PHASE_PREPARE }
  | .confirm ballot nPrepared nCommit nH _ =>
      bumpToBallot ballot true
      modify fun state =>
        { state with
          mPrepared := some ⟨nPrepared, ballot.value⟩
          mHighBallot := some ⟨nH, ballot.value⟩
          mCommit := some ⟨nCommit, ballot.value⟩
          mPhase := .SCP_PHASE_CONFIRM }
  | .externalize commit nH _ =>
      bumpToBallot ⟨UINT32_MAX, commit.value⟩ true
      modify fun state =>
        { state with
          mPrepared := some ⟨UINT32_MAX, commit.value⟩
          mHighBallot := some ⟨nH, commit.value⟩
          mCommit := some commit
          mPhase := .SCP_PHASE_EXTERNALIZE }

/-- The state that a statement of a node is read back to. -/
def BallotCore.restored (st : SCPStatement NodeID Hash Value) : BallotCore NodeID Hash Value :=
  let latest : EnvelopeMap NodeID Hash Value := AList.insert st.nodeID st ∅
  match st.pledges with
  | .prepare _ b prepared preparedPrime nC nH =>
      { mCurrentBallot := some b
        mPrepared := prepared
        mPreparedPrime := preparedPrime
        mHighBallot := if nH ≠ 0 then some ⟨nH, b.value⟩ else none
        mCommit := if nC ≠ 0 then some ⟨nC, b.value⟩ else none
        mLatestEnvelopes := latest
        mPhase := .SCP_PHASE_PREPARE
        mValueOverride := none }
  | .confirm ballot nPrepared nCommit nH _ =>
      { mCurrentBallot := some ballot
        mPrepared := some ⟨nPrepared, ballot.value⟩
        mPreparedPrime := none
        mHighBallot := some ⟨nH, ballot.value⟩
        mCommit := some ⟨nCommit, ballot.value⟩
        mLatestEnvelopes := latest
        mPhase := .SCP_PHASE_CONFIRM
        mValueOverride := none }
  | .externalize commit nH _ =>
      { mCurrentBallot := some ⟨UINT32_MAX, commit.value⟩
        mPrepared := some ⟨UINT32_MAX, commit.value⟩
        mPreparedPrime := none
        mHighBallot := some ⟨nH, commit.value⟩
        mCommit := some commit
        mLatestEnvelopes := latest
        mPhase := .SCP_PHASE_EXTERNALIZE
        mValueOverride := none }

omit [DecidableEq Hash] [OrderBot Value] in
theorem setStateFromEnvelope_initial (isValidator : Bool) (st : SCPStatement NodeID Hash Value) :
    ∃ restored, setStateFromEnvelope st (BallotState.initial isValidator) = .ok () restored ∧
      restored.toBallotCore = BallotCore.restored st ∧ restored.mLastEnvelope = some st ∧
        restored.view.emitted = [] := by
  obtain ⟨nodeID, slotIndex, pledges⟩ := st
  cases pledges with
  | prepare hash b prepared preparedPrime nC nH =>
      refine ⟨_, rfl, ?_, rfl, rfl⟩
      cases prepared <;> cases preparedPrime <;> rfl
  | confirm ballot nPrepared nCommit nH hash => exact ⟨_, rfl, rfl, rfl, rfl⟩
  | externalize commit nH hash => exact ⟨_, rfl, rfl, rfl, rfl⟩

/-! ### What is read back -/

section Restored

variable {slot : SlotContext NodeID Hash Value} {core : BallotCore NodeID Hash Value}
  {st : SCPStatement NodeID Hash Value}

omit [LinearOrder Value] [OrderBot Value] in
theorem counter_ofCounter (counter : Nat) (value : Value) :
    ((if counter ≠ 0 then some (⟨counter, value⟩ : SCPBallot Value) else none).map
      SCPBallot.counter).getD 0 = counter := by
  split
  · rfl
  · rename_i zero
    exact (not_not.mp zero).symm

omit [LinearOrder Value] [OrderBot Value] in
theorem mem_ofCounter {counter : Nat} {value : Value} {ballot : SCPBallot Value}
    (member : ballot ∈ if counter ≠ 0 then some (⟨counter, value⟩ : SCPBallot Value) else none) :
    counter ≠ 0 ∧ ballot = ⟨counter, value⟩ := by
  split at member
  · rename_i nonzero
    exact ⟨nonzero, (Option.some.inj member).symm⟩
  · cases member

structure PassesCheck (core : BallotCore NodeID Hash Value) : Prop where
  counter : ∀ current ∈ core.mCurrentBallot, current.counter ≠ 0
  prime : ∀ prime ∈ core.mPreparedPrime, ∀ prepared ∈ core.mPrepared,
    prime ≤ prepared ∧ prime.value ≠ prepared.value
  high : ∀ high ∈ core.mHighBallot,
    ∃ current ∈ core.mCurrentBallot, high ≤ current ∧ high.value = current.value
  commit : ∀ commit ∈ core.mCommit,
    ∃ high ∈ core.mHighBallot, commit ≤ high ∧ commit.value = high.value
  phase : core.mPhase ≠ .SCP_PHASE_PREPARE → core.mCommit.isSome

omit [DecidableEq NodeID] [DecidableEq Hash] [OrderBot Value] in
theorem PassesCheck.of_invariantsHold (holds : invariantsHold core = true) : PassesCheck core := by
  have primed : ∀ prime ∈ core.mPreparedPrime, ∀ prepared ∈ core.mPrepared,
      Coherent core := by
    intro prime _ prepared isPrepared
    apply Coherent.of_invariantsHold holds
    intro _
    rw [isPrepared]
    rfl
  have unprimed : Coherent { core with mPreparedPrime := none } := by
    apply Coherent.of_invariantsHold
    · unfold invariantsHold at holds ⊢
      simp only [Bool.and_eq_true] at holds ⊢
      obtain ⟨⟨⟨⟨counter, _⟩, high⟩, commit⟩, phase⟩ := holds
      exact ⟨⟨⟨⟨counter, by cases core.mPrepared <;> rfl⟩, high⟩, commit⟩, phase⟩
    · intro impossible
      cases impossible
  refine ⟨unprimed.counter, ?_, unprimed.high, unprimed.commit, unprimed.phase⟩
  intro prime isPrime prepared isPrepared
  obtain ⟨other, isOther, below⟩ := (primed prime isPrime prepared isPrepared).prime prime isPrime
  rw [← Option.some.inj (isOther.symm.trans isPrepared)]
  exact below

omit [DecidableEq NodeID] [DecidableEq Hash] [OrderBot Value] in
theorem PassesCheck.invariantsHold (checked : PassesCheck core) : invariantsHold core = true := by
  have unprimed : Coherent { core with mPreparedPrime := none } :=
    ⟨checked.counter, fun prime absent => (by cases absent), checked.high, checked.commit, checked.phase⟩
  have holds := unprimed.invariantsHold
  unfold SCP.invariantsHold at holds ⊢
  simp only [Bool.and_eq_true] at holds ⊢
  obtain ⟨⟨⟨⟨counter, _⟩, high⟩, commit⟩, phase⟩ := holds
  refine ⟨⟨⟨⟨counter, ?_⟩, high⟩, commit⟩, phase⟩
  split
  · rename_i prepared prime isPrepared isPrime
    exact (areBallotsLessAndIncompatible_iff _ _).mpr (checked.prime prime isPrime prepared isPrepared)
  · rfl

omit [DecidableEq NodeID] [DecidableEq Hash] in
theorem currentStatement_checked (checked : PassesCheck core) :
    currentStatement slot core =
      match core.mPhase with
      | .SCP_PHASE_PREPARE =>
          .ok ⟨slot.localNodeID, slot.slotIndex,
            .prepare slot.quorumSetHash (core.mCurrentBallot.getD ⟨0, ⊥⟩) core.mPrepared
              core.mPreparedPrime ((core.mCommit.map SCPBallot.counter).getD 0)
              ((core.mHighBallot.map SCPBallot.counter).getD 0)⟩
      | .SCP_PHASE_CONFIRM =>
          match core.mCurrentBallot, core.mPrepared, core.mCommit, core.mHighBallot with
          | some current, some prepared, some commit, some high =>
              .ok ⟨slot.localNodeID, slot.slotIndex,
                .confirm current prepared.counter commit.counter high.counter slot.quorumSetHash⟩
          | _, _, _, _ => .error .nullDereference
      | .SCP_PHASE_EXTERNALIZE =>
          match core.mCommit, core.mHighBallot with
          | some commit, some high =>
              .ok ⟨slot.localNodeID, slot.slotIndex,
                .externalize commit high.counter slot.quorumSetHash⟩
          | _, _ => .error .nullDereference := by
  unfold currentStatement createStatement
  rw [checked.invariantsHold]
  cases core.mPhase <;> rfl

/-- What a restart gives back of a state and its statement. -/
structure RestoredTo (slot : SlotContext NodeID Hash Value) (st : SCPStatement NodeID Hash Value)
    (core : BallotCore NodeID Hash Value) : Prop where
  checked : PassesCheck core
  fits : core.Fits
  balloted : core.mCurrentBallot.isSome
  statement : currentStatement slot core = .ok st
  phase : phaseStatementType core.mPhase = st.pledges.type

omit [DecidableEq Hash] [LinearOrder Value] [OrderBot Value] in
theorem fits_single (stFits : st.pledges.Fits) :
    ∀ nodeID other, (AList.insert st.nodeID st ∅ : EnvelopeMap NodeID Hash Value).lookup nodeID =
      some other → other.pledges.Fits := by
  intro nodeID other found
  by_cases same : nodeID = st.nodeID
  · rw [same, AList.lookup_insert] at found
    rw [← Option.some.inj found]
    exact stFits
  · rw [AList.lookup_insert_ne same] at found
    cases found

section

omit [DecidableEq Hash]

theorem restoredTo_prepare {b : SCPBallot Value} {prepared preparedPrime : Option (SCPBallot Value)}
    {nC nH : Nat}
    (isStatement : st = ⟨slot.localNodeID, slot.slotIndex,
      .prepare slot.quorumSetHash b prepared preparedPrime nC nH⟩)
    (stFits : st.pledges.Fits) (counter : b.counter ≠ 0)
    (prime : ∀ prime ∈ preparedPrime, ∀ high ∈ prepared, prime ≤ high ∧ prime.value ≠ high.value)
    (high : nH ≤ b.counter) (commit : nC ≤ nH) : RestoredTo slot st (BallotCore.restored st) := by
  have latest := fits_single stFits
  subst isStatement
  have checked : PassesCheck (BallotCore.restored (⟨slot.localNodeID, slot.slotIndex,
      .prepare slot.quorumSetHash b prepared preparedPrime nC nH⟩ :
        SCPStatement NodeID Hash Value)) := by
    refine ⟨?_, prime, ?_, ?_, ?_⟩
    · intro current same
      rw [← Option.some.inj same]
      exact counter
    · intro ballot member
      obtain ⟨_, rfl⟩ := mem_ofCounter member
      exact ⟨b, rfl, (SCPBallot.mk_le_mk nH b.counter b.value).mpr high, rfl⟩
    · intro ballot member
      obtain ⟨nonzero, rfl⟩ := mem_ofCounter member
      refine ⟨⟨nH, b.value⟩, ?_, (SCPBallot.mk_le_mk nC nH b.value).mpr commit, rfl⟩
      exact if_pos (by omega)
    · intro started
      exact absurd rfl started
  refine ⟨checked, ⟨?_, stFits.2.1, stFits.2.2.1, ?_, ?_, latest⟩, rfl, ?_, rfl⟩
  · intro current same
    rw [← Option.some.inj same]
    exact stFits.1
  · intro ballot member
    obtain ⟨_, rfl⟩ := mem_ofCounter member
    exact stFits.2.2.2.2
  · intro ballot member
    obtain ⟨_, rfl⟩ := mem_ofCounter member
    exact stFits.2.2.2.1
  · rw [currentStatement_checked checked]
    simp only [BallotCore.restored, counter_ofCounter, Option.getD_some]

theorem restoredTo_confirm {ballot : SCPBallot Value} {nPrepared nCommit nH : Nat}
    (isStatement : st = ⟨slot.localNodeID, slot.slotIndex,
      .confirm ballot nPrepared nCommit nH slot.quorumSetHash⟩)
    (stFits : st.pledges.Fits) (counter : ballot.counter ≠ 0) (high : nH ≤ ballot.counter)
    (commit : nCommit ≤ nH) : RestoredTo slot st (BallotCore.restored st) := by
  have latest := fits_single stFits
  subst isStatement
  have checked : PassesCheck (BallotCore.restored (⟨slot.localNodeID, slot.slotIndex,
      .confirm ballot nPrepared nCommit nH slot.quorumSetHash⟩ :
        SCPStatement NodeID Hash Value)) := by
    refine ⟨?_, ?_, ?_, ?_, fun _ => rfl⟩
    · intro current same
      rw [← Option.some.inj same]
      exact counter
    · intro prime absent
      cases absent
    · intro other same
      rw [← Option.some.inj same]
      exact ⟨ballot, rfl, (SCPBallot.mk_le_mk nH ballot.counter ballot.value).mpr high, rfl⟩
    · intro other same
      rw [← Option.some.inj same]
      exact ⟨⟨nH, ballot.value⟩, rfl, (SCPBallot.mk_le_mk nCommit nH ballot.value).mpr commit, rfl⟩
  refine ⟨checked, ⟨?_, ?_, ?_, ?_, ?_, latest⟩, rfl, ?_, rfl⟩
  · intro current same
    rw [← Option.some.inj same]
    exact stFits.1
  · intro prepared same
    rw [← Option.some.inj same]
    exact stFits.2.1
  · intro prime absent
    cases absent
  · intro other same
    rw [← Option.some.inj same]
    exact stFits.2.2.2
  · intro other same
    rw [← Option.some.inj same]
    exact stFits.2.2.1
  · rw [currentStatement_checked checked]
    rfl

theorem restoredTo_externalize {commit : SCPBallot Value} {nH : Nat}
    (isStatement : st = ⟨slot.localNodeID, slot.slotIndex,
      .externalize commit nH slot.quorumSetHash⟩)
    (stFits : st.pledges.Fits) (ordered : commit.counter ≤ nH) :
    RestoredTo slot st (BallotCore.restored st) := by
  have latest := fits_single stFits
  subst isStatement
  have checked : PassesCheck (BallotCore.restored (⟨slot.localNodeID, slot.slotIndex,
      .externalize commit nH slot.quorumSetHash⟩ : SCPStatement NodeID Hash Value)) := by
    refine ⟨?_, ?_, ?_, ?_, fun _ => rfl⟩
    · intro current same
      rw [← Option.some.inj same]
      exact Nat.succ_ne_zero _
    · intro prime absent
      cases absent
    · intro other same
      rw [← Option.some.inj same]
      exact ⟨⟨UINT32_MAX, commit.value⟩, rfl,
        (SCPBallot.mk_le_mk nH UINT32_MAX commit.value).mpr stFits.2, rfl⟩
    · intro other same
      rw [← Option.some.inj same]
      exact ⟨⟨nH, commit.value⟩, rfl, (SCPBallot.mk_le_mk commit.counter nH commit.value).mpr ordered, rfl⟩
  refine ⟨checked, ⟨?_, ?_, ?_, ?_, ?_, latest⟩, rfl, ?_, rfl⟩
  · intro current same
    rw [← Option.some.inj same]
  · intro prepared same
    rw [← Option.some.inj same]
  · intro prime absent
    cases absent
  · intro other same
    rw [← Option.some.inj same]
    exact stFits.2
  · intro other same
    rw [← Option.some.inj same]
    exact stFits.1
  · rw [currentStatement_checked checked]
    rfl

theorem Made.restored (made : Made slot st) : RestoredTo slot st (BallotCore.restored st) := by
  obtain ⟨core, fits, balloted, created⟩ := made
  have stFits := fits.currentStatement created
  have checked := PassesCheck.of_invariantsHold (currentStatement_invariants created)
  obtain ⟨b, isCurrent⟩ := Option.isSome_iff_exists.mp balloted
  rw [currentStatement_checked checked] at created
  cases phase : core.mPhase with
  | SCP_PHASE_PREPARE =>
      rw [phase] at created
      have isStatement := (Except.ok.inj created).symm
      rw [isCurrent, Option.getD_some] at isStatement
      apply restoredTo_prepare isStatement stFits (checked.counter b isCurrent) checked.prime
      · cases isHigh : core.mHighBallot with
        | none => exact Nat.zero_le _
        | some high =>
            obtain ⟨current, same, below, _⟩ := checked.high high isHigh
            rw [Option.some.inj (isCurrent.symm.trans same)]
            exact SCPBallot.counter_le below
      · cases isCommit : core.mCommit with
        | none => exact Nat.zero_le _
        | some commit =>
            obtain ⟨high, isHigh, below, _⟩ := checked.commit commit isCommit
            rw [Option.mem_def.mp isHigh]
            exact SCPBallot.counter_le below
  | SCP_PHASE_CONFIRM =>
      rw [phase] at created
      dsimp only at created
      split at created
      · rename_i current prepared commit high isB isPrepared isCommit isHigh
        have isStatement := (Except.ok.inj created).symm
        obtain ⟨other, same, highBelow, _⟩ := checked.high high isHigh
        rw [← Option.some.inj (isB.symm.trans same)] at highBelow
        obtain ⟨otherHigh, sameHigh, commitBelow, _⟩ := checked.commit commit isCommit
        rw [← Option.some.inj (isHigh.symm.trans sameHigh)] at commitBelow
        exact restoredTo_confirm isStatement stFits (checked.counter current isB)
          (SCPBallot.counter_le highBelow) (SCPBallot.counter_le commitBelow)
      · cases created
  | SCP_PHASE_EXTERNALIZE =>
      rw [phase] at created
      dsimp only at created
      split at created
      · rename_i commit high isCommit isHigh
        have isStatement := (Except.ok.inj created).symm
        obtain ⟨otherHigh, sameHigh, commitBelow, _⟩ := checked.commit commit isCommit
        rw [← Option.some.inj (isHigh.symm.trans sameHigh)] at commitBelow
        exact restoredTo_externalize isStatement stFits (SCPBallot.counter_le commitBelow)
      · cases created

end

end Restored

/-! ### Runs with restarts -/

section Restarts

variable {node slot : SlotContext NodeID Hash Value} {outcome : Outcome NodeID Hash Value}
  {st : SCPStatement NodeID Hash Value}

/-- What a node keeps on a slot, also over a restart. Its quorum set comes from its configuration:
nothing calls `SCP::updateLocalQuorumSet`. -/
structure SameNode (node slot : SlotContext NodeID Hash Value) : Prop where
  localNodeID : slot.localNodeID = node.localNodeID
  slotIndex : slot.slotIndex = node.slotIndex
  quorumSetHash : slot.quorumSetHash = node.quorumSetHash

omit [DecidableEq NodeID] [DecidableEq Hash] in
theorem SameNode.createStatement (same : SameNode node slot) (core : BallotCore NodeID Hash Value)
    (type : SCPStatementType) :
    SCP.createStatement slot core type = SCP.createStatement node core type := by
  unfold SCP.createStatement
  rw [same.localNodeID, same.slotIndex, same.quorumSetHash]

omit [DecidableEq Hash] in
theorem SameNode.traceable_iff (same : SameNode node slot) (view : BallotView NodeID Hash Value) :
    Traceable slot view ↔ Traceable node view := by
  have made : ∀ st, Made slot st ↔ Made node st := by
    intro st
    simp only [Made, currentStatement, same.createStatement]
  constructor
  · intro traceable
    exact ⟨traceable.fits, fun st said => (made st).mp (traceable.made st said)⟩
  · intro traceable
    exact ⟨traceable.fits, fun st said => (made st).mpr (traceable.made st said)⟩

def Outcome.Said (outcome : Outcome NodeID Hash Value) (st : SCPStatement NodeID Hash Value) : Prop :=
  outcome.state.mLastEnvelope = some st ∨ st ∈ outcome.state.view.emitted

/-- Runs of a node on a slot. A node may stop at any point, also where a call has failed, and come
back with a statement it has said. -/
inductive Reachable (node : SlotContext NodeID Hash Value) : Outcome NodeID Hash Value → Prop
  | starts (isValidator : Bool) : Reachable node ⟨none, BallotState.initial isValidator⟩
  | performs (event : Event NodeID Hash Value) {outcome : Outcome NodeID Hash Value}
      (reached : Reachable node outcome) (same : SameNode node event.slot)
      (fits : event.call.Fits) : Reachable node (event.perform outcome)
  | restarts (isValidator : Bool) {outcome : Outcome NodeID Hash Value}
      {st : SCPStatement NodeID Hash Value} {restored : BallotState NodeID Hash Value}
      (reached : Reachable node outcome) (said : outcome.Said st)
      (loaded : setStateFromEnvelope st (BallotState.initial isValidator) = .ok () restored) :
      Reachable node ⟨none, restored⟩

omit [DecidableEq Hash] in
theorem Traceable.initial (isValidator : Bool) :
    Traceable node (BallotState.initial isValidator : BallotState NodeID Hash Value).view where
  fits := ⟨nofun, nofun, nofun, nofun, nofun, nofun⟩
  made := by
    intro st said
    rcases said with absent | absent <;> cases absent

theorem Traceable.perform {event : Event NodeID Hash Value} (same : SameNode node event.slot)
    (fits : event.call.Fits) (traceable : Traceable node outcome.state.view) :
    Traceable node (event.perform outcome).state.view := by
  have kept := Call.perform_keeps fits ((same.traceable_iff _).mpr traceable)
  unfold Keeps wp at kept
  unfold Event.perform
  split
  · exact traceable
  · split at kept
    · rename_i ran
      rw [ran]
      exact (same.traceable_iff _).mp kept
    · rename_i ran
      rw [ran]
      exact (same.traceable_iff _).mp kept

omit [DecidableEq Hash] in
theorem Traceable.restart {isValidator : Bool} {restored : BallotState NodeID Hash Value}
    (made : Made node st)
    (loaded : setStateFromEnvelope st (BallotState.initial isValidator) = .ok () restored) :
    Traceable node restored.view := by
  obtain ⟨loadedState, ran, core, last, emitted⟩ := setStateFromEnvelope_initial isValidator st
  rw [ran] at loaded
  cases loaded
  constructor
  · change restored.toBallotCore.Fits
    rw [core]
    exact made.restored.fits
  · intro other said
    rcases said with isLast | isEmitted
    · rw [Option.some.inj (isLast.symm.trans last)]
      exact made
    · rw [emitted] at isEmitted
      cases isEmitted

theorem Reachable.traceable (reached : Reachable node outcome) :
    Traceable node outcome.state.view := by
  induction reached with
  | starts isValidator => exact Traceable.initial isValidator
  | performs event reached same fits traceable => exact traceable.perform same fits
  | restarts isValidator reached said loaded traceable =>
      exact Traceable.restart (traceable.made _ said) loaded

/-- A node that comes back with what it said says the same again, in every phase. -/
theorem Reachable.restart_repeats (reached : Reachable node outcome) (said : outcome.Said st)
    (isValidator : Bool) :
    ∃ restored, setStateFromEnvelope st (BallotState.initial isValidator) = .ok () restored ∧
      checkInvariants restored = .ok () restored ∧
      phaseStatementType restored.mPhase = st.pledges.type ∧
      ∀ slot, SameNode node slot →
        createStatement slot restored.toBallotCore (phaseStatementType restored.mPhase) = .ok st := by
  have restores := (reached.traceable.made st said).restored
  obtain ⟨restored, ran, core, _, _⟩ := setStateFromEnvelope_initial isValidator st
  rw [← core] at restores
  refine ⟨restored, ran, ?_, restores.phase, ?_⟩
  · have got : (get : BallotM NodeID Hash Value _) restored = .ok restored restored := rfl
    unfold checkInvariants
    rw [bind_of_ok got, restores.checked.invariantsHold]
    rfl
  · intro slot same
    rw [same.createStatement]
    exact restores.statement

end Restarts

theorem Reachable.run {node : SlotContext NodeID Hash Value} (isValidator : Bool)
    (events : List (Event NodeID Hash Value))
    (own : ∀ event ∈ events, SameNode node event.slot ∧ event.call.Fits) :
    Reachable node (SCP.run isValidator events) := by
  induction events using List.reverseRecOn with
  | nil => exact .starts isValidator
  | append_singleton events event reached =>
      rw [run_append]
      have ofEvent := own event (List.mem_append_right events (List.mem_singleton_self event))
      apply Reachable.performs event (reached ?_) ofEvent.1 ofEvent.2
      intro other member
      exact own other (List.mem_append_left [event] member)

/-- A node stops after it has externalized and comes back. -/
theorem restart_repeats_externalizesWithPeers :
    ∃ restored, setStateFromEnvelope ⟨0, 1, .externalize ⟨1, 1⟩ 1 0⟩ (BallotState.initial true) =
        .ok () restored ∧
      checkInvariants restored = .ok () restored ∧
      phaseStatementType restored.mPhase = .SCP_ST_EXTERNALIZE ∧
      ∀ slot, SameNode threePeerSlot slot →
        createStatement slot restored.toBallotCore (phaseStatementType restored.mPhase) =
          .ok ⟨0, 1, .externalize ⟨1, 1⟩ 1 0⟩ := by
  have reached : Reachable threePeerSlot (run true externalizesWithPeers) := by
    apply Reachable.run
    intro event member
    simp only [externalizesWithPeers, votesToCommit, hears, List.cons_append, List.nil_append,
      List.mem_cons, List.not_mem_nil, or_false] at member
    rcases member with rfl | rfl | rfl | rfl | rfl
    all_goals
      refine ⟨⟨rfl, rfl, rfl⟩, ?_⟩
      simp [Call.Fits, SCPPledges.Fits, UINT32_MAX]
  exact reached.restart_repeats (Or.inl (by decide +kernel)) true

end ViiCore.SCP
