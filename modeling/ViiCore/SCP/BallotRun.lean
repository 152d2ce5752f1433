import Mathlib.Data.List.Induction
import Mathlib.Order.Nat
import ViiCore.SCP.BallotPaths

/-!
Runs of one `BallotProtocol` instance: any sequence of calls, stopped by the first fault.

Two results about whole runs follow from the paths of single calls. The relation between
`b`, `p`, `p'`, `c` and `h` that `checkInvariants` tests holds along a run unless a
confirmed `prepare` moves the current ballot away from a commit ballot; and a node that
has left PREPARE keeps its value for good.
-/

namespace ViiCore.SCP

open Execution

variable {NodeID Hash Value : Type}

structure Event (NodeID Hash Value : Type) where
  slot : SlotContext NodeID Hash Value
  call : Call NodeID Hash Value

structure Outcome (NodeID Hash Value : Type) where
  fault : Option Fault
  state : BallotState NodeID Hash Value

theorem Outcome.eq_completed (outcome : Outcome NodeID Hash Value)
    (completed : outcome.fault = none) : outcome = ⟨none, outcome.state⟩ := by
  obtain ⟨fault, state⟩ := outcome
  cases completed
  rfl

variable [DecidableEq NodeID] [DecidableEq Hash] [LinearOrder Value] [OrderBot Value]

def Event.perform (event : Event NodeID Hash Value) (outcome : Outcome NodeID Hash Value) :
    Outcome NodeID Hash Value :=
  match outcome.fault with
  | some _ => outcome
  | none =>
      match event.call.perform event.slot outcome.state with
      | .ok _ state => ⟨none, state⟩
      | .error fault state => ⟨some fault, state⟩

def runFrom (outcome : Outcome NodeID Hash Value) (events : List (Event NodeID Hash Value)) :
    Outcome NodeID Hash Value :=
  events.foldl (fun outcome event => event.perform outcome) outcome

def run (isValidator : Bool) (events : List (Event NodeID Hash Value)) :
    Outcome NodeID Hash Value :=
  runFrom ⟨none, BallotState.initial isValidator⟩ events

theorem run_append (isValidator : Bool) (events later : List (Event NodeID Hash Value)) :
    run isValidator (events ++ later) = runFrom (run isValidator events) later :=
  List.foldl_append

theorem runFrom_fault (outcome : Outcome NodeID Hash Value)
    (events : List (Event NodeID Hash Value)) (stopped : outcome.fault ≠ none) :
    runFrom outcome events = outcome := by
  obtain ⟨fault, stoppedBy⟩ := Option.ne_none_iff_exists'.mp stopped
  induction events with
  | nil => rfl
  | cons event rest ih =>
      have same : event.perform outcome = outcome := by
        unfold Event.perform
        rw [stoppedBy]
      show runFrom (event.perform outcome) rest = outcome
      rw [same]
      exact ih

theorem Event.perform_cases (event : Event NodeID Hash Value)
    (s : BallotState NodeID Hash Value) (coherent : Coherent s.toBallotCore) :
    ∃ received, Received event.slot event.call s.view received ∧
      ((event.perform ⟨none, s⟩).fault = none ∧
          Path event.slot event.call received (event.perform ⟨none, s⟩).state.view ∨
        ∃ failure, (event.perform ⟨none, s⟩).fault = some failure ∧
          Fails event.slot event.call failure received (event.perform ⟨none, s⟩).state.view) := by
  have follows := event.call.perform_follows event.slot s coherent
  unfold wp at follows
  unfold Event.perform
  simp only
  split at follows
  · rename_i result state ran
    obtain ⟨received, from_, path⟩ := follows
    rw [ran]
    exact ⟨received, from_, Or.inl ⟨rfl, path⟩⟩
  · rename_i failure state ran
    obtain ⟨received, from_, fails⟩ := follows
    rw [ran]
    exact ⟨received, from_, Or.inr ⟨failure, rfl, fails⟩⟩

omit [DecidableEq Hash] [OrderBot Value] in
theorem Received.coherent {slot : SlotContext NodeID Hash Value} {call : Call NodeID Hash Value}
    {view received : BallotView NodeID Hash Value} (from_ : Received slot call view received)
    (coherent : Coherent view.core) : Coherent received.core := by
  rcases from_ with rfl | ⟨st, _, _, rfl⟩
  · exact coherent
  · exact coherent.withLatest _

omit [DecidableEq NodeID] [DecidableEq Hash] [OrderBot Value] in
theorem BallotState.initial_coherent (isValidator : Bool) :
    Coherent (BallotState.initial isValidator : BallotState NodeID Hash Value).toBallotCore := by
  refine ⟨?_, ?_, ?_, ?_, ?_⟩
  · intro current member
    cases member
  · intro prime member
    cases member
  · intro high member
    cases member
  · intro commit member
    cases member
  · intro started
    exact absurd rfl started

/-- What receiving a statement and every step keep holds at the end of a run that
completes; a run that stops does so in a last call made from such a state. -/
theorem runFrom_invariant {P : BallotView NodeID Hash Value → Prop}
    (events : List (Event NodeID Hash Value)) (s : BallotState NodeID Hash Value)
    (receives : ∀ event ∈ events, ∀ view received, Received event.slot event.call view received →
      P view → P received)
    (steps : ∀ event ∈ events, ∀ view next, Step event.slot event.call view next →
      Coherent view.core → P view → P next)
    (coherent : Coherent s.toBallotCore) (start : P s.view) :
    ((runFrom ⟨none, s⟩ events).fault = none ∧
        Coherent (runFrom ⟨none, s⟩ events).state.toBallotCore ∧
        P (runFrom ⟨none, s⟩ events).state.view) ∨
      ∃ event ∈ events, ∃ failure received,
        (runFrom ⟨none, s⟩ events).fault = some failure ∧ Coherent received.core ∧ P received ∧
          Fails event.slot event.call failure received (runFrom ⟨none, s⟩ events).state.view := by
  induction events generalizing s with
  | nil => exact Or.inl ⟨rfl, coherent, start⟩
  | cons event rest ih =>
      obtain ⟨received, from_, result⟩ := event.perform_cases s coherent
      have coherentReceived := from_.coherent coherent
      have atReceived := receives event List.mem_cons_self _ _ from_ start
      show (runFrom (event.perform ⟨none, s⟩) rest).fault = none ∧ _ ∨ _
      rcases result with ⟨completed, path⟩ | ⟨failure, faulted, fails⟩
      · have later : Coherent (event.perform ⟨none, s⟩).state.toBallotCore ∧
            P (event.perform ⟨none, s⟩).state.view := by
          show Coherent (event.perform ⟨none, s⟩).state.view.core ∧ _
          generalize (event.perform ⟨none, s⟩).state.view = last at path
          induction path with
          | refl => exact ⟨coherentReceived, atReceived⟩
          | tail _ step reached =>
              exact ⟨step.coherent reached.1,
                steps event List.mem_cons_self _ _ step reached.1 reached.2⟩
        have same := (event.perform ⟨none, s⟩).eq_completed completed
        have result := ih (event.perform ⟨none, s⟩).state
          (fun other member => receives other (List.mem_cons_of_mem _ member))
          (fun other member => steps other (List.mem_cons_of_mem _ member)) later.1 later.2
        rw [← same] at result
        rcases result with done | ⟨other, member, stopped⟩
        · exact Or.inl done
        · exact Or.inr ⟨other, List.mem_cons_of_mem _ member, stopped⟩
      · have stopped : (event.perform ⟨none, s⟩).fault ≠ none := by
          rw [faulted]
          simp
        right
        refine ⟨event, List.mem_cons_self, failure, received, ?_, coherentReceived, atReceived, ?_⟩
        · show (runFrom (event.perform ⟨none, s⟩) rest).fault = some failure
          rw [runFrom_fault _ _ stopped]
          exact faulted
        · show Fails _ _ _ _ (runFrom (event.perform ⟨none, s⟩) rest).state.view
          rw [runFrom_fault _ _ stopped]
          exact fails

theorem run_coherent (isValidator : Bool) (events : List (Event NodeID Hash Value))
    (completed : (run isValidator events).fault = none) :
    Coherent (run isValidator events).state.toBallotCore := by
  rcases runFrom_invariant (P := fun _ => True) events (BallotState.initial isValidator)
      (fun _ _ _ _ _ _ => trivial) (fun _ _ _ _ _ _ _ => trivial)
      (BallotState.initial_coherent isValidator) trivial with
    ⟨_, coherent, _⟩ | ⟨_, _, _, _, faulted, _⟩
  · exact coherent
  · rw [run, faulted] at completed
    cases completed

/-! ### The tested invariants -/

/-- The current ballot a confirmed `prepare` leaves has a counter, and it does not leave a
commit ballot behind on another value. -/
def Confirmation.Safe (confirmation : Confirmation Value) : Prop :=
  match confirmation.current with
  | none => confirmation.newH.counter ≠ 0
  | some current =>
      confirmation.commit.isSome →
        confirmation.newH.value = current.value ∨ confirmation.newH ≤ current

instance (confirmation : Confirmation Value) : Decidable confirmation.Safe := by
  unfold Confirmation.Safe
  split <;> infer_instance

section Keeping

variable {slot : SlotContext NodeID Hash Value} {call : Call NodeID Hash Value}
  {core : BallotCore NodeID Hash Value}

section

omit [DecidableEq NodeID] [DecidableEq Hash] [OrderBot Value]

theorem Coherent.bumpTo (coherent : Coherent core) (ballot : SCPBallot Value)
    (above : ∀ current ∈ core.mCurrentBallot, current < ballot)
    (compatible : ∀ commit ∈ core.mCommit, commit.value = ballot.value)
    (counter : ballot.counter ≠ 0) : Coherent (core.bumpTo ballot) := by
  have kept (high : SCPBallot Value) (member : high ∈ core.mHighBallot)
      (same : ballot.value = high.value) : high ∈ (core.bumpTo ballot).mHighBallot := by
    simp [BallotCore.bumpTo, Option.mem_def.mp member, areBallotsCompatible, same]
  refine ⟨?_, coherent.prime, ?_, ?_, coherent.phase⟩
  · intro current member
    cases member
    exact counter
  · intro high member
    simp only [BallotCore.bumpTo, Option.mem_def, Option.filter_eq_some_iff] at member
    obtain ⟨highAt, same⟩ := member
    obtain ⟨current, currentAt, below, _⟩ := coherent.high high highAt
    refine ⟨ballot, rfl, below.trans (above current currentAt).le, ?_⟩
    exact ((areBallotsCompatible_iff _ _).mp same).symm
  · intro commit member
    obtain ⟨high, highAt, below, same⟩ := coherent.commit commit member
    exact ⟨high, kept high highAt ((compatible commit member).symm.trans same), below, same⟩

theorem Coherent.acceptPrepared (coherent : Coherent core) (ballot : SCPBallot Value)
    (unprepared : ∀ prepared ∈ core.mPrepared, ¬ (ballot ≤ prepared ∧ ballot.value = prepared.value))
    (aborting : abortsCommit (setPrepared core ballot).1 = true → core.mPhase = .SCP_PHASE_PREPARE) :
    Coherent (core.acceptPrepared ballot) := by
  rw [BallotCore.acceptPrepared_eq]
  refine ⟨coherent.counter, ?_, coherent.high, ?_, ?_⟩
  · show ∀ prime ∈ (setPrepared core ballot).1.mPreparedPrime, ∃ prepared ∈ (setPrepared core ballot).1.mPrepared, _
    unfold setPrepared
    split
    · rename_i prepared found
      split_ifs with below different above replaced
      · -- `p` moves up to another value and leaves its old ballot in `p'`.
        have raised : prepared < ballot := (compareBallots_lt_zero _ _).mp below
        intro prime member
        cases member
        refine ⟨ballot, rfl, raised.le, ?_⟩
        simpa [areBallotsCompatible] using different
      · have raised : prepared < ballot := (compareBallots_lt_zero _ _).mp below
        have same : prepared.value = ballot.value := by
          simpa [areBallotsCompatible] using different
        intro prime member
        obtain ⟨held, heldAt, ordered, other⟩ := coherent.prime prime member
        rw [Option.some.inj (heldAt.symm.trans found)] at ordered other
        exact ⟨ballot, rfl, ordered.trans raised.le, same ▸ other⟩
      · have lower : ballot < prepared := (compareBallots_pos _ _).mp above
        intro prime member
        cases member
        exact ⟨prepared, found, lower.le, fun same => unprepared prepared found ⟨lower.le, same⟩⟩
      · exact coherent.prime
      · exact coherent.prime
    · rename_i found
      intro prime member
      obtain ⟨prepared, preparedAt, _⟩ := coherent.prime prime member
      rw [Option.mem_def, found] at preparedAt
      cases preparedAt
  · intro commit member
    simp only at member
    split_ifs at member
    · cases member
    · exact coherent.commit commit member
  · intro started
    simp only
    split_ifs with aborts
    · exact absurd (aborting aborts) started
    · exact coherent.phase started

theorem BallotCore.raiseCurrent_coherent (h : SCPBallot Value)
    (counter : ∀ current ∈ (core.raiseCurrent h).mCurrentBallot, current.counter ≠ 0)
    (prime : ∀ prime ∈ core.mPreparedPrime,
      ∃ prepared ∈ core.mPrepared, prime ≤ prepared ∧ prime.value ≠ prepared.value)
    (high : core.mHighBallot = some h)
    (current : ∀ current ∈ core.mCurrentBallot, h ≤ current → current.value = h.value)
    (commit : ∀ commit ∈ core.mCommit, commit ≤ h ∧ commit.value = h.value)
    (phase : core.mPhase ≠ .SCP_PHASE_PREPARE → core.mCommit.isSome) :
    Coherent (core.raiseCurrent h) := by
  have kept := core.raiseCurrent_high h high
  refine ⟨counter, by simpa using prime, ?_, ?_, by simpa using phase⟩
  · intro other member
    rw [← Option.some.inj (kept.symm.trans member)]
    obtain ⟨moved, movedAt, above, origin⟩ := core.raiseCurrent_current h
    refine ⟨moved, movedAt, above, ?_⟩
    rcases origin with same | old
    · rw [same]
    · exact (current moved old above).symm
  · intro other member
    rw [BallotCore.raiseCurrent_commit] at member
    exact ⟨h, kept, commit other member⟩

theorem Coherent.confirmPrepared (coherent : Coherent core) (newC newH : SCPBallot Value)
    (preparing : core.mPhase = .SCP_PHASE_PREPARE)
    (aboveHigh : ∀ high ∈ core.mHighBallot, high < newH)
    (commitVote : newC.counter ≠ 0 →
      mayVoteCommit core newH = true ∧ newC ≤ newH ∧ newC.value = newH.value)
    (safe : Confirmation.Safe ⟨core.mCurrentBallot, core.mCommit, newH⟩) :
    Coherent (core.confirmPrepared newC newH) := by
  have raises : core.mHighBallot.all (fun high => decide (compareBallots newH high > 0)) = true := by
    cases found : core.mHighBallot with
    | none => rfl
    | some high => simpa [compareBallots_pos] using aboveHigh high found
  -- The ballot the node ends on has a counter: its own, a higher one, or that of `newH`.
  have counter (start : BallotCore NodeID Hash Value) (same : start.mCurrentBallot = core.mCurrentBallot) :
      ∀ current ∈ (start.raiseCurrent newH).mCurrentBallot, current.counter ≠ 0 := by
    intro current member
    obtain ⟨moved, movedAt, above, origin⟩ := start.raiseCurrent_current newH
    obtain rfl : moved = current := Option.some.inj (movedAt.symm.trans member)
    rcases origin with atNewH | old
    · subst atNewH
      cases found : core.mCurrentBallot with
      | none =>
          simp only [Confirmation.Safe, found] at safe
          exact safe
      | some held =>
          have positive := coherent.counter held found
          by_cases below : held < moved
          · have ordered := SCPBallot.counter_le below.le
            omega
          · rw [BallotCore.raiseCurrent, if_neg (by simpa [same, found, compareBallots_lt_zero] using below),
              same, found] at movedAt
            cases movedAt
            exact positive
    · exact coherent.counter moved (same ▸ old)
  unfold BallotCore.confirmPrepared
  simp only
  split_ifs with compatible voting
  · -- `newH` is on the node's value and the node votes to commit.
    refine BallotCore.raiseCurrent_coherent newH (counter _ rfl) coherent.prime rfl ?_ ?_ ?_
    · intro current member _
      rw [Option.mem_def.mp member] at compatible
      simpa [areBallotsCompatible] using compatible
    · intro commit member
      cases member
      exact (commitVote voting).2
    · intro started
      exact absurd preparing started
  · refine BallotCore.raiseCurrent_coherent newH (counter _ rfl) coherent.prime rfl ?_ ?_ ?_
    · intro current member _
      rw [Option.mem_def.mp member] at compatible
      simpa [areBallotsCompatible] using compatible
    · intro commit member
      obtain ⟨high, highAt, below, same⟩ := coherent.commit commit member
      obtain ⟨current, currentAt, _, highSame⟩ := coherent.high high highAt
      rw [Option.mem_def.mp currentAt] at compatible
      have onNewH : current.value = newH.value := by simpa [areBallotsCompatible] using compatible
      exact ⟨below.trans (aboveHigh high highAt).le, same.trans (highSame.trans onNewH)⟩
    · intro started
      exact absurd preparing started
  · -- `newH` is on another value: the node moves there only when it holds no commit ballot.
    unfold BallotCore.raiseCurrent
    split_ifs with moves
    · have free : core.mCommit = none := by
        cases found : core.mCurrentBallot with
        | none => simp [found] at compatible
        | some current =>
            simp only [found, Option.all_some, decide_eq_true_eq, compareBallots_lt_zero] at moves
            have different : newH.value ≠ current.value := by
              intro same
              simp [found, areBallotsCompatible, same] at compatible
            simp only [Confirmation.Safe, found] at safe
            cases commitAt : core.mCommit with
            | none => rfl
            | some commit =>
                rcases safe (by rw [commitAt]; rfl) with same | below
                · exact absurd same different
                · exact absurd moves (not_lt.mpr below)
      have overridden : Coherent { core with mValueOverride := some newH.value } :=
        ⟨coherent.counter, coherent.prime, coherent.high, coherent.commit, coherent.phase⟩
      refine overridden.bumpTo newH ?_ ?_ ?_
      · intro current member
        rw [Option.mem_def.mp member] at moves
        simpa [compareBallots_lt_zero] using moves
      · intro commit member
        rw [Option.mem_def, free] at member
        cases member
      · refine counter { core with mValueOverride := some newH.value } rfl newH ?_
        rw [BallotCore.raiseCurrent, if_pos moves]
        rfl
    · exact ⟨coherent.counter, coherent.prime, coherent.high, coherent.commit, coherent.phase⟩

theorem Coherent.acceptCommit (coherent : Coherent core) (c h : SCPBallot Value)
    (counter : c.counter ≠ 0) (ordered : c ≤ h) (sameValue : c.value = h.value)
    (extending : core.mPhase ≠ .SCP_PHASE_PREPARE →
      ∃ high ∈ core.mHighBallot, high.value = h.value) :
    Coherent (core.acceptCommit c h) := by
  obtain ⟨current, currentAt, above, origin⟩ := core.acceptCommit_current c h
  have onValue : current.value = h.value := by
    rcases origin with same | ⟨started, kept⟩
    · exact same
    · obtain ⟨high, highAt, highSame⟩ := extending started
      obtain ⟨held, heldAt, _, same⟩ := coherent.high high highAt
      rw [Option.some.inj (kept.symm.trans heldAt)]
      exact same.symm.trans highSame
  refine ⟨?_, ?_, ?_, ?_, ?_⟩
  · intro other member
    rw [← Option.some.inj (currentAt.symm.trans member)]
    have low := SCPBallot.counter_le ordered
    have high := SCPBallot.counter_le above
    omega
  · intro prime member
    rw [BallotCore.acceptCommit_prime] at member
    split_ifs at member
    · cases member
    · rw [BallotCore.acceptCommit_prepared]
      exact coherent.prime prime member
  · intro high member
    rw [BallotCore.acceptCommit_high] at member
    cases member
    exact ⟨current, currentAt, above, onValue.symm⟩
  · intro commit member
    rw [BallotCore.acceptCommit_commit] at member
    cases member
    exact ⟨h, by simp, ordered, sameValue⟩
  · intro _
    simp

theorem Coherent.confirmCommit (coherent : Coherent core) (c h : SCPBallot Value)
    (counter : c.counter ≠ 0) (ordered : c ≤ h) (sameValue : c.value = h.value)
    (compatible : ∃ commit ∈ core.mCommit, commit.value = c.value) :
    Coherent (core.confirmCommit c h) := by
  obtain ⟨commit, commitAt, commitSame⟩ := compatible
  obtain ⟨held, heldAt, _, heldSame⟩ := coherent.commit commit commitAt
  have raised : Coherent ({ core with mCommit := some c, mHighBallot := some h }.raiseCurrent h) := by
    refine BallotCore.raiseCurrent_coherent h ?_ coherent.prime rfl ?_ ?_ ?_
    · intro current member
      obtain ⟨moved, movedAt, above, origin⟩ := core.confirmCommit_current c h
      rw [← Option.some.inj (movedAt.symm.trans member)]
      have low := SCPBallot.counter_le ordered
      have high := SCPBallot.counter_le above
      omega
    · intro current member _
      obtain ⟨other, otherAt, _, otherSame⟩ := coherent.high held heldAt
      rw [Option.some.inj (member.symm.trans otherAt)]
      exact otherSame.symm.trans (heldSame.symm.trans (commitSame.trans sameValue))
    · intro other member
      cases member
      exact ⟨ordered, sameValue⟩
    · intro _
      rfl
  refine ⟨raised.counter, raised.prime, raised.high, raised.commit, fun _ => ?_⟩
  simp

end

omit [DecidableEq Hash] in
theorem Change.coherent {changed : BallotCore NodeID Hash Value}
    {confirmations : List (Confirmation Value)} {values : List Value}
    (made : Change slot call core changed confirmations values) (coherent : Coherent core)
    (counted : ∀ value, call ≠ .bumpStateTo value 0)
    (safe : ∀ confirmation ∈ confirmations, confirmation.Safe) : Coherent changed := by
  cases made with
  | bump _ ballot running above compatible counter value =>
      refine coherent.bumpTo ballot above compatible ?_
      rcases counter with nonzero | ⟨_, value, explicit⟩
      · exact nonzero
      · exact absurd explicit (counted value)
  | acceptPrepared _ hint ballot running candidate confirming abovePrime unprepared accepted changes
      aborting =>
      exact coherent.acceptPrepared ballot unprepared aborting
  | confirmPrepared start _ hint newC newH preparing settled candidate aboveHigh ratified commitVote =>
      exact coherent.confirmPrepared newC newH preparing aboveHigh commitVote
        (safe _ List.mem_cons_self)
  | acceptCommit _ c h running counter ordered sameValue known extending =>
      refine coherent.acceptCommit c h counter ordered sameValue fun started => ?_
      have confirming : core.mPhase = .SCP_PHASE_CONFIRM := by
        cases phase : core.mPhase with
        | SCP_PHASE_PREPARE => exact absurd phase started
        | SCP_PHASE_CONFIRM => rfl
        | SCP_PHASE_EXTERNALIZE => exact absurd phase running
      obtain ⟨high, highAt, same, _⟩ := extending confirming
      exact ⟨high, highAt, same⟩
  | confirmCommit _ c h confirming counter ordered sameValue compatible =>
      exact coherent.confirmCommit c h counter ordered sameValue compatible

end Keeping

/-- A run in which every confirmed `prepare` is safe, and no ballot with counter zero is
asked for, never fails `checkInvariants`. -/
theorem run_checkInvariants (isValidator : Bool) (events : List (Event NodeID Hash Value))
    (counted : ∀ event ∈ events, ∀ value, event.call ≠ .bumpStateTo value 0)
    (safe : ∀ confirmation ∈ (run isValidator events).state.view.confirmations, confirmation.Safe) :
    (run isValidator events).fault ≠ some .checkInvariants ∧
      ((run isValidator events).fault = none →
        Coherent (run isValidator events).state.toBallotCore) := by
  refine ⟨?_, run_coherent isValidator events⟩
  rcases runFrom_invariant (P := fun _ => True) events (BallotState.initial isValidator)
      (fun _ _ _ _ _ _ => trivial) (fun _ _ _ _ _ _ _ => trivial)
      (BallotState.initial_coherent isValidator) trivial with
    ⟨completed, _⟩ | ⟨event, member, failure, received, faulted, coherent, _, fails⟩
  · rw [run, completed]
    exact fun impossible => (by cases impossible)
  · rw [run, faulted]
    intro same
    obtain ⟨reached, path, _, _, invariants, _⟩ := fails
    obtain ⟨confirmations, values, made, recorded, broken⟩ := invariants (Option.some.inj same)
    have kept := made.coherent (path.coherent coherent) (counted event member)
      (fun confirmation inside => safe confirmation (by
        rw [run, recorded]
        exact List.mem_append_right _ inside))
    rw [kept.invariantsHold] at broken
    cases broken

def threePeers : SCPQuorumSet Nat := .mk 2 [1, 2, 3] []

def threePeerSlot : SlotContext Nat Nat Nat :=
  { slotIndex := 1
    localNodeID := 0
    quorumSet := threePeers
    quorumSetHash := 0
    getQSet := fun _ => some threePeers
    validateValue := fun _ => .kFullyValidatedValue
    latestCompositeCandidate := 0 }

def hears (nodeID : Nat) (pledges : SCPPledges Nat Nat) : Event Nat Nat Nat :=
  ⟨threePeerSlot, .processEnvelope ⟨nodeID, 1, pledges⟩⟩

def votesToCommit : List (Event Nat Nat Nat) :=
  [⟨threePeerSlot, .bumpState 1 true⟩,
    hears 1 (.prepare 0 ⟨1, 1⟩ (some ⟨1, 1⟩) none 0 0),
    hears 2 (.prepare 0 ⟨1, 1⟩ (some ⟨1, 1⟩) none 0 0)]

theorem run_checkInvariants_votesToCommit :
    (run true votesToCommit).fault ≠ some .checkInvariants ∧
      ((run true votesToCommit).fault = none → Coherent (run true votesToCommit).state.toBallotCore) := by
  refine run_checkInvariants true votesToCommit ?_ (by decide +kernel)
  intro event member value
  simp only [votesToCommit, hears, List.mem_cons, List.not_mem_nil, or_false] at member
  rcases member with rfl | rfl | rfl <;> simp

/-- Two peers accept a ballot on another value above the node's own while the node holds a
commit ballot: `bumpToBallot` resets `h` and keeps `c`. -/
def leavesCommitBehind : List (Event Nat Nat Nat) :=
  votesToCommit ++
    [hears 1 (.prepare 0 ⟨10, 1⟩ (some ⟨7, 2⟩) none 0 0),
      hears 2 (.prepare 0 ⟨10, 1⟩ (some ⟨9, 1⟩) (some ⟨7, 2⟩) 0 0)]

theorem leavesCommitBehind_fails :
    (run true leavesCommitBehind).fault = some .checkInvariants ∧
      (run true leavesCommitBehind).state.mCommit = some ⟨1, 1⟩ ∧
      (run true leavesCommitBehind).state.mHighBallot = none ∧
      (run true leavesCommitBehind).state.mCurrentBallot = some ⟨7, 2⟩ := by
  decide +kernel

/-! ### Finality -/

def SCPPhase.rank : SCPPhase → Nat
  | .SCP_PHASE_PREPARE => 0
  | .SCP_PHASE_CONFIRM => 1
  | .SCP_PHASE_EXTERNALIZE => 2

/-- The value is externalized exactly when the node enters EXTERNALIZE. -/
structure Decided (view : BallotView NodeID Hash Value) : Prop where
  undecided : view.core.mPhase ≠ .SCP_PHASE_EXTERNALIZE → view.externalized = []
  decided : view.core.mPhase = .SCP_PHASE_EXTERNALIZE →
    ∃ commit ∈ view.core.mCommit, view.externalized = [commit.value]

section Forward

variable {slot : SlotContext NodeID Hash Value} {call : Call NodeID Hash Value}
  {core changed : BallotCore NodeID Hash Value} {view next : BallotView NodeID Hash Value}

section

omit [DecidableEq Hash]

theorem Change.rank_le {confirmations : List (Confirmation Value)} {values : List Value}
    (made : Change slot call core changed confirmations values) :
    core.mPhase.rank ≤ changed.mPhase.rank := by
  cases made with
  | bump => exact le_refl _
  | acceptPrepared => rw [BallotCore.acceptPrepared_eq]
  | confirmPrepared => rw [BallotCore.confirmPrepared_phase]
  | acceptCommit =>
      rw [BallotCore.acceptCommit_phase]
      split_ifs with preparing
      · rw [preparing]
        decide
      · exact le_refl _
  | confirmCommit _ c h confirming =>
      rw [BallotCore.confirmCommit_phase, confirming]
      decide

theorem Step.rank_le (step : Step slot call view next) :
    view.core.mPhase.rank ≤ next.core.mPhase.rank := by
  cases step with
  | change changed announced confirmations values made told =>
      show _ ≤ announced.mPhase.rank
      rw [told.frame]
      exact made.rank_le
  | override => exact le_refl _
  | remember => exact le_refl _
  | emit => exact le_refl _

theorem Change.decides {confirmations : List (Confirmation Value)} {values : List Value}
    (made : Change slot call core changed confirmations values) :
    (changed.mPhase ≠ .SCP_PHASE_EXTERNALIZE → values = []) ∧
      (changed.mPhase = .SCP_PHASE_EXTERNALIZE →
        ∃ commit ∈ changed.mCommit, values = [commit.value]) := by
  refine ⟨made.values_nil, fun final => ?_⟩
  cases made with
  | bump _ ballot running => exact absurd final running
  | acceptPrepared _ hint ballot running =>
      rw [BallotCore.acceptPrepared_eq] at final
      exact absurd final running
  | confirmPrepared start _ hint newC newH preparing =>
      rw [BallotCore.confirmPrepared_phase, preparing] at final
      cases final
  | acceptCommit _ c h running =>
      rw [BallotCore.acceptCommit_phase] at final
      split_ifs at final
      exact absurd final running
  | confirmCommit _ c h => exact ⟨c, by simp, rfl⟩

theorem Step.decided (step : Step slot call view next) (before : Decided view) : Decided next := by
  cases step with
  | change changed announced confirmations values made told =>
      have unspoken := before.undecided made.not_externalized
      have same := told.frame
      refine ⟨fun running => ?_, fun final => ?_⟩
      · have none := made.decides.1 (by rw [same] at running; exact running)
        simp [unspoken, none]
      · obtain ⟨commit, commitAt, only⟩ := made.decides.2 (by rw [same] at final; exact final)
        refine ⟨commit, ?_, by simp [unspoken, only]⟩
        show commit ∈ announced.mCommit
        rw [same]
        exact commitAt
  | override => exact ⟨before.undecided, before.decided⟩
  | remember => exact ⟨before.undecided, before.decided⟩
  | emit => exact ⟨before.undecided, before.decided⟩

theorem Path.decided (path : Path slot call view next) (before : Decided view) : Decided next := by
  induction path with
  | refl => exact before
  | tail _ step ih => exact step.decided ih

end

omit [DecidableEq Hash] [OrderBot Value] in
theorem Received.decided (from_ : Received slot call view next) (before : Decided view) :
    Decided next := by
  rcases from_ with rfl | ⟨st, _, _, rfl⟩
  · exact before
  · exact ⟨before.undecided, before.decided⟩

end Forward

structure Forward (view next : BallotView NodeID Hash Value) : Prop where
  phase : view.core.mPhase.rank ≤ next.core.mPhase.rank
  value : ∀ value, Fixed value view.core → Fixed value next.core
  final : view.core.mPhase = .SCP_PHASE_EXTERNALIZE →
    next.core.mCommit = view.core.mCommit ∧ next.core.mHighBallot = view.core.mHighBallot ∧
      next.core.mPhase = view.core.mPhase

omit [DecidableEq Hash] [OrderBot Value] in
theorem Forward.received {slot : SlotContext NodeID Hash Value} {call : Call NodeID Hash Value}
    {start view received : BallotView NodeID Hash Value}
    (from_ : Received slot call view received) (forward : Forward start view) :
    Forward start received := by
  rcases from_ with rfl | ⟨st, _, _, rfl⟩
  · exact forward
  · exact ⟨forward.phase, fun value fixed => (forward.value value fixed).withLatest _, forward.final⟩

omit [DecidableEq Hash] in
theorem Forward.step {slot : SlotContext NodeID Hash Value} {call : Call NodeID Hash Value}
    {start view next : BallotView NodeID Hash Value}
    (step : Step slot call view next) (forward : Forward start view) : Forward start next := by
  refine ⟨forward.phase.trans step.rank_le, fun value fixed => step.fixed (forward.value value fixed), ?_⟩
  intro final
  have same := forward.final final
  rw [(step.externalized (same.2.2.trans final)).1]
  exact same

/-- The phase of a node only moves forward, its value is fixed once it has left PREPARE,
nothing changes after EXTERNALIZE, and a value is externalized at most once. -/
theorem run_finality (isValidator : Bool) (events later : List (Event NodeID Hash Value)) :
    (run isValidator (events ++ later)).state.view.externalized.length ≤ 1 ∧
      ((run isValidator (events ++ later)).fault = none →
        (run isValidator events).state.mPhase.rank ≤
            (run isValidator (events ++ later)).state.mPhase.rank ∧
          ((run isValidator events).state.mPhase ≠ .SCP_PHASE_PREPARE →
            ∃ value, Fixed value (run isValidator events).state.toBallotCore ∧
              Fixed value (run isValidator (events ++ later)).state.toBallotCore) ∧
          ((run isValidator events).state.mPhase = .SCP_PHASE_EXTERNALIZE →
            (run isValidator (events ++ later)).state.mCommit = (run isValidator events).state.mCommit ∧
              (run isValidator (events ++ later)).state.mHighBallot =
                (run isValidator events).state.mHighBallot ∧
              (run isValidator (events ++ later)).state.mPhase = .SCP_PHASE_EXTERNALIZE)) := by
  have decidedLength (view : BallotView NodeID Hash Value) (decided : Decided view) :
      view.externalized.length ≤ 1 := by
    by_cases final : view.core.mPhase = .SCP_PHASE_EXTERNALIZE
    · obtain ⟨commit, _, only⟩ := decided.decided final
      simp [only]
    · simp [decided.undecided final]
  constructor
  · rcases runFrom_invariant (P := Decided) (events ++ later) (BallotState.initial isValidator)
        (fun _ _ _ _ from_ before => from_.decided before)
        (fun _ _ _ _ step _ before => step.decided before)
        (BallotState.initial_coherent isValidator)
        ⟨fun _ => rfl, fun final => (by cases final)⟩ with
      ⟨_, _, decided⟩ | ⟨_, _, _, received, _, _, decided, reached, path, _, externalized, _⟩
    · exact decidedLength _ decided
    · rw [run, externalized]
      exact decidedLength _ (path.decided decided)
  · intro completed
    rw [run_append] at completed ⊢
    have running : (run isValidator events).fault = none := by
      by_contra stopped
      rw [runFrom_fault _ _ stopped] at completed
      exact stopped completed
    have coherent := run_coherent isValidator events running
    rw [(run isValidator events).eq_completed running] at completed ⊢
    rcases runFrom_invariant (P := Forward (run isValidator events).state.view) later
        (run isValidator events).state
        (fun _ _ _ _ from_ forward => forward.received from_)
        (fun _ _ _ _ step _ forward => forward.step step)
        coherent ⟨le_refl _, fun _ fixed => fixed, fun _ => ⟨rfl, rfl, rfl⟩⟩ with
      ⟨_, _, forward⟩ | ⟨_, _, _, _, faulted, _⟩
    · refine ⟨forward.phase, fun started => ?_, fun final => ?_⟩
      · obtain ⟨value, fixed⟩ := coherent.fixed started
        exact ⟨value, fixed, forward.value value fixed⟩
      · obtain ⟨commit, high, phase⟩ := forward.final final
        exact ⟨commit, high, phase.trans final⟩
    · rw [completed] at faulted
      cases faulted

def externalizesWithPeers : List (Event Nat Nat Nat) :=
  votesToCommit ++
    [hears 1 (.confirm ⟨1, 1⟩ 1 1 1 0), hears 2 (.confirm ⟨1, 1⟩ 1 1 1 0)]

theorem run_finality_externalizesWithPeers :
    (run true externalizesWithPeers).fault = none ∧
      (run true externalizesWithPeers).state.mPhase = .SCP_PHASE_EXTERNALIZE ∧
      (run true (externalizesWithPeers ++ [hears 3 (.confirm ⟨1, 1⟩ 1 1 1 0)])).state.mCommit =
        (run true externalizesWithPeers).state.mCommit := by
  refine ⟨by decide +kernel, by decide +kernel, ?_⟩
  have completed : (run true (externalizesWithPeers ++
      [hears 3 (.confirm ⟨1, 1⟩ 1 1 1 0)])).fault = none := by decide +kernel
  have final : (run true externalizesWithPeers).state.mPhase = .SCP_PHASE_EXTERNALIZE := by
    decide +kernel
  exact (((run_finality true externalizesWithPeers
    [hears 3 (.confirm ⟨1, 1⟩ 1 1 1 0)]).2 completed).2.2 final).1

end ViiCore.SCP
