import ViiCore.SCP.BallotTransitions

/-!
Every call of the ballot protocol is a path of steps.

Each function of `BallotProtocol.cpp` gets one specification: started in a coherent state
it ends on a path, or fails after one. The functions that emit take the specification of
the nested `advanceSlot` as a hypothesis, and the induction over the nesting depth closes
them together at the end.
-/

namespace ViiCore.SCP

open Execution

variable {NodeID Hash Value : Type}
  [DecidableEq NodeID] [DecidableEq Hash] [LinearOrder Value] [OrderBot Value]
  {slot : SlotContext NodeID Hash Value} {call : Call NodeID Hash Value}
  {α : Type} {s : BallotState NodeID Hash Value} {fault : Fault → BallotState NodeID Hash Value → Prop}

/-! ### Primitive operations -/

section

omit [DecidableEq NodeID] [DecidableEq Hash] [LinearOrder Value] [OrderBot Value]

theorem wp_dbgAssert {post : Unit → BallotState NodeID Hash Value → Prop} (condition : Bool) :
    wp (dbgAssert condition) post fault s ↔
      (condition = true → post () s) ∧ (condition = false → fault .dbgAssert s) := by
  cases condition <;> simp [dbgAssert]

theorem wp_deref {post : α → BallotState NodeID Hash Value → Prop} (pointer : Option α) :
    wp (deref pointer) post fault s ↔
      (∀ target, pointer = some target → post target s) ∧
        (pointer = none → fault .nullDereference s) := by
  cases pointer <;> simp [deref]

theorem wp_orFault {post : α → BallotState NodeID Hash Value → Prop} (result : Except Fault α) :
    wp (orFault result) post fault s ↔
      (∀ value, result = .ok value → post value s) ∧
        (∀ failure, result = .error failure → fault failure s) := by
  cases result <;> simp [orFault]

@[simp] theorem wp_callDriver {post : Unit → BallotState NodeID Hash Value → Prop}
    (effect : Effect NodeID Hash Value) :
    wp (callDriver effect) post fault s ↔
      post () { s with effects := s.effects ++ [effect] } :=
  Iff.rfl

end

omit [OrderBot Value] in
theorem wp_sendLatestEnvelope {post : Unit → BallotState NodeID Hash Value → Prop}
    (silent : ∀ s', s'.view = s.view → post () s')
    (sent : ∀ s' st, s.view.lastEnvelope = some st →
      s'.view = { s.view with emitted := s.view.emitted ++ [st] } → post () s') :
    wp sendLatestEnvelope post fault s := by
  unfold sendLatestEnvelope
  simp only [wp_bind, wp_get]
  split
  · exact silent s rfl
  · rename_i last found
    rw [wp_ite]
    refine ⟨fun _ => ?_, fun _ => silent s rfl⟩
    simp only [wp_bind, wp_set, wp_callDriver]
    refine sent _ last found ?_
    simp [BallotState.view, Effect.emitted?, Effect.externalized?, Effect.confirmation?]

omit [DecidableEq Hash] [LinearOrder Value] [OrderBot Value] in
theorem wp_checkHeardFromQuorum {post : Unit → BallotState NodeID Hash Value → Prop}
    (done : ∀ s', s'.view = s.view → post () s') :
    wp (checkHeardFromQuorum slot) post fault s := by
  unfold checkHeardFromQuorum
  simp only [wp_bind, wp_get]
  split
  · exact done s rfl
  · simp only [wp_ite, wp_bind, wp_set, wp_callDriver, wp_pure]
    refine ⟨fun _ => ⟨fun _ => ⟨fun _ => ⟨fun _ => ?_, fun _ => ?_⟩, fun _ => ⟨fun _ => ?_, fun _ => ?_⟩⟩,
      fun _ => ⟨fun _ => ?_, fun _ => ?_⟩⟩, fun _ => ?_⟩ <;>
    · apply done
      simp [BallotState.view, Effect.emitted?, Effect.externalized?, Effect.confirmation?]

/-! ### Moving the current ballot -/

omit [DecidableEq NodeID] [DecidableEq Hash] [OrderBot Value] in
theorem wp_bumpToBallot {post : Unit → BallotState NodeID Hash Value → Prop}
    (ballot : SCPBallot Value) (check : Bool)
    (running : s.mPhase ≠ .SCP_PHASE_EXTERNALIZE)
    (above : check = true → ∀ current ∈ s.mCurrentBallot, current ≤ ballot)
    (done : ∀ s', s'.view = { s.view with core := s.toBallotCore.bumpTo ballot } → post () s') :
    wp (bumpToBallot ballot check) post fault s := by
  have allowed : check = true → s.mCurrentBallot.all
      (fun current => decide (compareBallots ballot current ≥ 0)) = true := by
    intro checked
    cases found : s.mCurrentBallot with
    | none => rfl
    | some current =>
        simpa [compareBallots_nonneg] using above checked current found
  unfold bumpToBallot
  simp only [wp_bind, wp_get, wp_dbgAssert, wp_ite, wp_modify, wp_callDriver, running,
    ne_eq, not_false_eq_true, decide_true, true_implies, Bool.true_eq_false, false_implies, and_true]
  refine ⟨fun checked => ⟨fun _ => ⟨fun _ => ?_, fun _ => ?_⟩, fun refused => ?_⟩,
    fun _ => ⟨fun _ => ?_, fun _ => ?_⟩⟩
  · apply done
    simp [BallotState.view, BallotCore.bumpTo, Effect.emitted?, Effect.externalized?,
      Effect.confirmation?]
  · apply done
    simp [BallotState.view, BallotCore.bumpTo]
  · rw [allowed checked] at refused
    cases refused
  · apply done
    simp [BallotState.view, BallotCore.bumpTo, Effect.emitted?, Effect.externalized?,
      Effect.confirmation?]
  · apply done
    simp [BallotState.view, BallotCore.bumpTo]

omit [DecidableEq NodeID] [DecidableEq Hash] [OrderBot Value] in
theorem wp_updateCurrentIfNeeded {post : Bool → BallotState NodeID Hash Value → Prop}
    (h : SCPBallot Value) (running : s.mPhase ≠ .SCP_PHASE_EXTERNALIZE)
    (done : ∀ s', s'.view = { s.view with core := s.toBallotCore.raiseCurrent h } →
      post (s.mCurrentBallot.all (fun current => decide (compareBallots current h < 0))) s') :
    wp (updateCurrentIfNeeded h) post fault s := by
  unfold updateCurrentIfNeeded
  simp only [wp_bind, wp_get, wp_ite, wp_pure]
  refine ⟨fun needed => ?_, fun kept => ?_⟩
  · refine wp_bumpToBallot h true running ?_ ?_
    · intro _ current found
      rw [Option.mem_def.mp found] at needed
      exact ((compareBallots_lt_zero _ _).mp (by simpa using needed)).le
    · intro s' view
      have result := done s' (by rw [view, BallotCore.raiseCurrent, if_pos needed])
      rwa [needed] at result
  · have result := done s (by rw [BallotCore.raiseCurrent, if_neg kept]; rfl)
    rwa [Bool.eq_false_iff.mpr kept] at result

/-! ### Processing and emitting statements -/

/-- The tests a statement passes before it is recorded. -/
structure Passes (slot : SlotContext NodeID Hash Value) (core : BallotCore NodeID Hash Value)
    (st : SCPStatement NodeID Hash Value) (isSelf : Bool) : Prop where
  sane : isStatementSane slot st isSelf = true
  newer : isNewerStatement core st.nodeID st = true
  valid : validateValues slot st.pledges ≠ .kInvalidValue
  final : core.mPhase = .SCP_PHASE_EXTERNALIZE →
    ∃ commit ∈ core.mCommit, commit.value = (getWorkingBallot st.pledges).value

def BallotView.record (view : BallotView NodeID Hash Value)
    (st : SCPStatement NodeID Hash Value) : BallotView NodeID Hash Value :=
  { view with
    core := { view.core with mLatestEnvelopes := view.core.mLatestEnvelopes.insert st.nodeID st } }

omit [DecidableEq Hash] [OrderBot Value] in
theorem wp_processEnvelope {post : EnvelopeState → BallotState NodeID Hash Value → Prop}
    {advance : SCPStatement NodeID Hash Value → BallotM NodeID Hash Value Unit}
    (st : SCPStatement NodeID Hash Value) (self : Bool)
    (otherSlot : st.slotIndex ≠ slot.slotIndex → fault .dbgAssert s)
    (uncommitted : s.mPhase = .SCP_PHASE_EXTERNALIZE → s.mCommit = none → fault .nullDereference s)
    (rejected : ¬ Passes slot s.toBallotCore st self → post .INVALID s)
    (advanced : Passes slot s.toBallotCore st self → s.mPhase ≠ .SCP_PHASE_EXTERNALIZE →
      ∀ s', s'.view = s.view.record st → wp (advance st) (fun _ => post .VALID) fault s')
    (recorded : Passes slot s.toBallotCore st self → s.mPhase = .SCP_PHASE_EXTERNALIZE →
      ∀ s', s'.view = s.view.record st → post .VALID s') :
    wp (processEnvelope slot advance st self) post fault s := by
  unfold processEnvelope
  simp only [wp_bind, wp_get, wp_dbgAssert, wp_ite, wp_pure, decide_eq_true_eq, decide_eq_false_iff_not]
  refine ⟨fun _ => ⟨fun insane => ?_, fun sane => ⟨fun stale => ?_, fun newer =>
    ⟨fun invalid => ?_, fun valid => ⟨fun running => ?_, fun final => ?_⟩⟩⟩⟩, otherSlot⟩
  · refine rejected fun passes => ?_
    rw [passes.sane] at insane
    cases insane
  · refine rejected fun passes => ?_
    rw [passes.newer] at stale
    cases stale
  · exact rejected fun passes => passes.valid invalid
  · have passes : Passes slot s.toBallotCore st self :=
      ⟨by simpa using sane, by simpa using newer, valid, fun final => absurd final running⟩
    refine ⟨fun _ => ?_, fun _ => ?_⟩
    · simp only [wp_modify, recordEnvelope]
      exact advanced passes running _ rfl
    · simp only [wp_modify, recordEnvelope]
      exact advanced passes running _ rfl
  · have externalized : s.mPhase = .SCP_PHASE_EXTERNALIZE := not_not.mp final
    simp only [wp_deref, recordEnvelope, wp_modify]
    refine ⟨fun commit found => ⟨fun same => ?_, fun different => ?_⟩, uncommitted externalized⟩
    · have passes : Passes slot s.toBallotCore st self :=
        ⟨by simpa using sane, by simpa using newer, valid, fun _ => ⟨commit, found, same⟩⟩
      exact recorded passes externalized _ rfl
    · refine rejected fun passes => ?_
      obtain ⟨other, otherAt, matched⟩ := passes.final externalized
      rw [Option.some.inj (found.symm.trans otherAt)] at different
      exact different matched

def Advances (slot : SlotContext NodeID Hash Value) (call : Call NodeID Hash Value)
    (advance : SCPStatement NodeID Hash Value → BallotM NodeID Hash Value Unit) : Prop :=
  ∀ (hint : SCPStatement NodeID Hash Value) (s : BallotState NodeID Hash Value),
    Coherent s.toBallotCore → s.mLatestEnvelopes.lookup hint.nodeID = some hint →
      wp (advance hint) (fun _ s' => Path slot call s.view s'.view)
        (fun failure s' => Fails slot call failure s.view s'.view) s

omit [DecidableEq NodeID] [DecidableEq Hash] in
theorem currentStatement_error {core : BallotCore NodeID Hash Value} {failure : Fault}
    (failed : currentStatement slot core = .error failure) :
    failure = .checkInvariants ∧ invariantsHold core = false ∨ failure = .nullDereference := by
  unfold currentStatement createStatement at failed
  cases holds : invariantsHold core with
  | false =>
      simp only [holds, Bool.not_false, if_true, Except.error.injEq] at failed
      exact Or.inl ⟨failed.symm, rfl⟩
  | true =>
      simp only [holds, Bool.not_true, Bool.false_eq_true, if_false] at failed
      right
      split at failed
      · cases failed
      · split at failed
        · cases failed
        · exact (Except.error.inj failed).symm
      · split at failed
        · cases failed
        · exact (Except.error.inj failed).symm

omit [DecidableEq NodeID] [DecidableEq Hash] in
theorem currentStatement_slot {core : BallotCore NodeID Hash Value}
    {st : SCPStatement NodeID Hash Value} (created : currentStatement slot core = .ok st) :
    st.slotIndex = slot.slotIndex := by
  have holds := currentStatement_invariants created
  unfold currentStatement createStatement at created
  simp only [holds, Bool.not_true, Bool.false_eq_true, if_false] at created
  split at created
  · cases created; rfl
  · split at created
    · cases created; rfl
    · cases created
  · split at created
    · cases created; rfl
    · cases created

section

omit [DecidableEq Hash]

theorem Fails.of_path {failure : Fault} {view middle failed : BallotView NodeID Hash Value}
    (path : Path slot call view middle) (fails : Fails slot call failure middle failed) :
    Fails slot call failure view failed := by
  obtain ⟨reached, later, rest⟩ := fails
  exact ⟨reached, path.trans later, rest⟩

theorem Fails.silent {failure : Fault} {view failed : BallotView NodeID Hash Value}
    (emitted : failed.emitted = view.emitted) (externalized : failed.externalized = view.externalized)
    (invariants : failure ≠ .checkInvariants) (badState : failure ≠ .movedToBadState) :
    Fails slot call failure view failed :=
  ⟨view, .refl, emitted, externalized, fun same => absurd same invariants,
    fun same => absurd same badState⟩

theorem Change.values_nil {core changed : BallotCore NodeID Hash Value}
    {confirmations : List (Confirmation Value)} {values : List Value}
    (made : Change slot call core changed confirmations values)
    (running : changed.mPhase ≠ .SCP_PHASE_EXTERNALIZE) : values = [] := by
  cases made with
  | confirmCommit => exact absurd rfl running
  | _ => rfl

end

def BallotView.externalize (view : BallotView NodeID Hash Value) (values : List Value) :
    BallotView NodeID Hash Value :=
  { view with externalized := view.externalized ++ values }

omit [DecidableEq NodeID] [DecidableEq Hash] [LinearOrder Value] [OrderBot Value] in
theorem BallotView.externalize_nil (view : BallotView NodeID Hash Value) :
    view.externalize [] = view := by
  simp [externalize]

def BallotView.changeTo (view : BallotView NodeID Hash Value) (core : BallotCore NodeID Hash Value)
    (confirmations : List (Confirmation Value)) : BallotView NodeID Hash Value :=
  { view with core := core, confirmations := view.confirmations ++ confirmations }

theorem wp_rememberEnvelope {post : Unit → BallotState NodeID Hash Value → Prop}
    {view : BallotView NodeID Hash Value} {st : SCPStatement NodeID Hash Value} {values : List Value}
    (path : Path slot call view (s.view.externalize values)) (own : Own slot s.toBallotCore st)
    (canEmit : Bool)
    (done : ∀ s', Path slot call view (s'.view.externalize values) → post () s') :
    wp (if canEmit && s.mLastEnvelope.all (fun last => isNewerPledges last.pledges st.pledges) then do
        set { s with mLastEnvelope := some st }
        sendLatestEnvelope
      else pure ()) post fault s := by
  rw [wp_ite]
  refine ⟨fun _ => ?_, fun _ => done s path⟩
  simp only [wp_bind, wp_set]
  have remembered : Path slot call view
      ({ s.view with lastEnvelope := some st }.externalize values) :=
    path.tail (Step.remember (s.view.externalize values) st own)
  refine wp_sendLatestEnvelope ?_ ?_
  · intro s' same
    refine done s' ?_
    rw [same]
    exact remembered
  · intro s' sent found same
    refine done s' ?_
    rw [same]
    exact remembered.tail (Step.emit _ sent found)

/-- `emitCurrentStateStatement` announces the state it starts from and may go on from there. -/
def Tells (slot : SlotContext NodeID Hash Value) (call : Call NodeID Hash Value)
    (s : BallotState NodeID Hash Value) (values : List Value)
    (s' : BallotState NodeID Hash Value) : Prop :=
  ∃ announced, Announced slot s.toBallotCore announced ∧
    Path slot call ({ s.view with core := announced }.externalize values) (s'.view.externalize values)

omit [DecidableEq Hash] in
theorem Tells.path {view : BallotView NodeID Hash Value} {s' : BallotState NodeID Hash Value}
    {confirmations : List (Confirmation Value)} {values : List Value}
    (tells : Tells slot call s values s')
    (made : Change slot call view.core s.toBallotCore confirmations values)
    (same : s.view = view.changeTo s.toBallotCore confirmations) :
    Path slot call view (s'.view.externalize values) := by
  obtain ⟨announced, told, later⟩ := tells
  refine Relation.ReflTransGen.head ?_ later
  rw [same]
  exact Step.change view s.toBallotCore announced confirmations values made told

omit [DecidableEq Hash] in
theorem Tells.prepared {s' : BallotState NodeID Hash Value} {values : List Value}
    (tells : Tells slot call s values s') (ballot : SCPBallot Value)
    (below : ∃ prepared ∈ s.mPrepared, ballot ≤ prepared) :
    ∃ prepared ∈ s'.mPrepared, ballot ≤ prepared := by
  obtain ⟨announced, told, later⟩ := tells
  refine later.prepared_mono ballot ?_
  show ∃ prepared ∈ announced.mPrepared, ballot ≤ prepared
  rw [told.frame]
  exact below

theorem wp_emitCurrentStateStatement
    {advance : SCPStatement NodeID Hash Value → BallotM NodeID Hash Value Unit}
    (advances : Advances slot call advance) {view : BallotView NodeID Hash Value}
    {confirmations : List (Confirmation Value)} {values : List Value}
    (coherent : Coherent view.core)
    (made : Change slot call view.core s.toBallotCore confirmations values)
    (same : s.view = view.changeTo s.toBallotCore confirmations) :
    wp (emitCurrentStateStatement slot advance) (fun _ s' => Tells slot call s values s')
      (fun failure s' => Fails slot call failure view s'.view) s := by
  have emitted : s.view.emitted = view.emitted := by rw [same]; rfl
  have externalized : s.view.externalized = view.externalized := by rw [same]; rfl
  have confirmed : s.view.confirmations = view.confirmations ++ confirmations := by rw [same]; rfl
  unfold emitCurrentStateStatement
  simp only [wp_bind, wp_get, wp_orFault]
  refine ⟨fun st created => ?_, fun failure failed => ?_⟩
  · have own : Own slot s.toBallotCore st := currentStatement_own created
    rw [wp_ite]
    refine ⟨fun unknown => ?_, fun known => ?_⟩
    · simp only [wp_bind, wp_ite, wp_throw, wp_get]
      refine wp_processEnvelope st true ?_ ?_ ?_ ?_ ?_
      · intro otherSlot
        exact absurd (currentStatement_slot created) otherSlot
      · intro final uncommitted
        exact Fails.silent emitted externalized (by decide) (by decide)
      · intro refused
        refine ⟨fun impossible => (by cases impossible), fun _ => ?_⟩
        refine ⟨view, .refl, emitted, externalized, fun impossible => (by cases impossible), fun _ => ?_⟩
        refine ⟨confirmations, values, st, made, confirmed, created, unknown, fun accepted => ?_⟩
        exact refused ⟨accepted.sane, own.1 ▸ accepted.newer, accepted.valid, accepted.final⟩
      · intro passes running s₁ recorded
        have told := Announced.record s.toBallotCore st created
          ⟨passes.sane, own.1 ▸ passes.newer, passes.valid, passes.final⟩
        have none : values = [] := made.values_nil running
        subst none
        have view₁ : s₁.view = { s.view with
            core := { s.toBallotCore with
              mLatestEnvelopes := s.mLatestEnvelopes.insert slot.localNodeID st } } := by
          rw [recorded, BallotView.record, own.1]
          rfl
        have core₁ : s₁.toBallotCore = { s.toBallotCore with
            mLatestEnvelopes := s.mLatestEnvelopes.insert slot.localNodeID st } :=
          congrArg BallotView.core view₁
        have toRecorded : Path slot call view s₁.view := by
          refine Relation.ReflTransGen.single ?_
          have step := Step.change view s.toBallotCore _ confirmations [] made told
          rw [view₁, same]
          simpa [BallotView.changeTo] using step
        have coherent₁ : Coherent s₁.toBallotCore := toRecorded.coherent coherent
        have known₁ : s₁.mLatestEnvelopes.lookup st.nodeID = some st := by
          show s₁.toBallotCore.mLatestEnvelopes.lookup st.nodeID = some st
          rw [core₁, own.1]
          exact AList.lookup_insert _
        have own₁ : Own slot s₁.toBallotCore st := by
          rw [core₁]
          exact own
        refine wp_mono (advances st s₁ coherent₁ known₁) ?_ ?_
        · intro _ s₂ path
          refine ⟨fun _ => ?_, fun wrong => absurd rfl wrong⟩
          have finished : Path slot call ({ s.view with
              core := { s.toBallotCore with
                mLatestEnvelopes := s.mLatestEnvelopes.insert slot.localNodeID st } }.externalize [])
              (s₂.view.externalize []) := by
            rw [BallotView.externalize_nil, BallotView.externalize_nil, ← view₁]
            exact path
          have own₂ : Own slot s₂.toBallotCore st := Path.own path coherent₁ own₁
          have result : wp (if s.mCurrentBallot.isSome && s₂.mLastEnvelope.all
                (fun last => isNewerPledges last.pledges st.pledges) then do
              set { s₂ with mLastEnvelope := some st }
              sendLatestEnvelope
            else pure ()) (fun _ s' => Tells slot call s [] s')
              (fun failure s' => Fails slot call failure view s'.view) s₂ :=
            wp_rememberEnvelope finished own₂ s.mCurrentBallot.isSome
              fun s₃ later => ⟨_, told, later⟩
          simpa only [wp_ite, wp_bind, wp_set, wp_pure] using result
        · intro failure s₂ fails
          exact Fails.of_path toRecorded fails
      · intro passes final s₁ recorded
        have told := Announced.record s.toBallotCore st created
          ⟨passes.sane, own.1 ▸ passes.newer, passes.valid, passes.final⟩
        have view₁ : s₁.view = { s.view with
            core := { s.toBallotCore with
              mLatestEnvelopes := s.mLatestEnvelopes.insert slot.localNodeID st } } := by
          rw [recorded, BallotView.record, own.1]
          rfl
        have own₁ : Own slot s₁.toBallotCore st := by
          rw [show s₁.toBallotCore = _ from congrArg BallotView.core view₁]
          exact own
        refine ⟨fun _ => ?_, fun wrong => absurd rfl wrong⟩
        have finished : Path slot call ({ s.view with
            core := { s.toBallotCore with
              mLatestEnvelopes := s.mLatestEnvelopes.insert slot.localNodeID st } }.externalize values)
            (s₁.view.externalize values) := by
          rw [← view₁]
        have result : wp (if s.mCurrentBallot.isSome && s₁.mLastEnvelope.all
              (fun last => isNewerPledges last.pledges st.pledges) then do
            set { s₁ with mLastEnvelope := some st }
            sendLatestEnvelope
          else pure ()) (fun _ s' => Tells slot call s values s')
            (fun failure s' => Fails slot call failure view s'.view) s₁ :=
          wp_rememberEnvelope finished own₁ s.mCurrentBallot.isSome
            fun s₃ later => ⟨_, told, later⟩
        simpa only [wp_ite, wp_bind, wp_set, wp_pure] using result
    · have known' : s.mLatestEnvelopes.lookup slot.localNodeID = some st := not_not.mp known
      exact ⟨s.toBallotCore, Announced.already s.toBallotCore st created known', .refl⟩
  · rcases currentStatement_error failed with ⟨same₁, broken⟩ | same₁
    · refine ⟨view, .refl, emitted, externalized, fun _ => ?_, fun wrong => ?_⟩
      · exact ⟨confirmations, values, made, confirmed, broken⟩
      · rw [same₁] at wrong
        cases wrong
    · rw [same₁]
      exact Fails.silent emitted externalized (by decide) (by decide)

/-! ### Bumping -/

omit [DecidableEq Hash] in
theorem wp_updateCurrentValue {post : Bool → BallotState NodeID Hash Value → Prop}
    (ballot : SCPBallot Value) (coherent : Coherent s.toBallotCore)
    (counter : ballot.counter ≠ 0 ∨ s.mCurrentBallot.isSome ∨ ∃ value, call = .bumpStateTo value 0)
    (value : BumpValue slot call s.toBallotCore ballot.value)
    (unchanged : post false s)
    (bumped : ∀ s', Change slot call s.toBallotCore s'.toBallotCore [] [] →
      s'.view = s.view.changeTo s'.toBallotCore [] → post true s')
    (fails : ∀ failure s', Fails slot call failure s.view s'.view → fault failure s') :
    wp (updateCurrentValue ballot) post fault s := by
  -- A bump is the only change here, whether or not the node already has a ballot.
  have bump (running : s.mPhase ≠ .SCP_PHASE_EXTERNALIZE)
      (above : ∀ current ∈ s.mCurrentBallot, current < ballot)
      (compatible : ∀ commit ∈ s.mCommit, commit.value = ballot.value) :
      wp (bumpToBallot ballot true)
        (fun _ s' => wp checkInvariants (fun _ s'' => post true s'') fault s') fault s := by
    have made : Change slot call s.toBallotCore (s.toBallotCore.bumpTo ballot) [] [] := by
      refine .bump s.toBallotCore ballot running above compatible ?_ value
      by_cases zero : ballot.counter = 0
      · right
        cases found : s.mCurrentBallot with
        | none =>
            refine ⟨rfl, ?_⟩
            rcases counter with nonzero | some | explicit
            · exact absurd zero nonzero
            · rw [found] at some
              cases some
            · exact explicit
        | some current =>
            have positive := coherent.counter current found
            have ordered := SCPBallot.counter_le (above current found).le
            omega
      · exact Or.inl zero
    refine wp_bumpToBallot ballot true running (fun _ current found => (above current found).le) ?_
    intro s' moved
    have core : s'.toBallotCore = s.toBallotCore.bumpTo ballot := congrArg BallotView.core moved
    have made' : Change slot call s.toBallotCore s'.toBallotCore [] [] := core ▸ made
    have view' : s'.view = s.view.changeTo s'.toBallotCore [] := by
      rw [moved, BallotView.changeTo, core]
      simp
    simp only [checkInvariants, wp_bind, wp_get, wp_ite, wp_pure, wp_throw]
    refine ⟨fun _ => bumped s' made' view', fun broken => fails _ _ ?_⟩
    refine ⟨s.view, .refl, ?_, ?_, fun _ => ?_, fun wrong => (by cases wrong)⟩
    · rw [moved]
    · rw [moved]
    · exact ⟨[], [], made', by rw [moved]; simp, by simpa [BallotState.view] using broken⟩
  unfold updateCurrentValue
  simp only [wp_bind, wp_get, wp_ite, wp_pure]
  refine ⟨fun _ => unchanged, fun running => ?_⟩
  split
  · rename_i found
    simp only [wp_bind, wp_pure]
    refine bump running ?_ ?_
    · intro current member
      rw [found] at member
      cases member
    · intro commit member
      obtain ⟨high, highAt, _⟩ := coherent.commit commit member
      obtain ⟨current, currentAt, _⟩ := coherent.high high highAt
      rw [Option.mem_def, found] at currentAt
      cases currentAt
  · rename_i current found
    simp only [wp_bind, wp_dbgAssert, wp_ite, wp_pure]
    refine ⟨fun _ => ⟨fun _ => unchanged, fun compatible => ⟨fun below => ?_, fun _ =>
      ⟨fun _ => unchanged, fun _ => ?_⟩⟩⟩, fun _ => ?_⟩
    · refine bump running ?_ ?_
      · intro other member
        rw [← Option.some.inj (found.symm.trans member)]
        exact (compareBallots_lt_zero _ _).mp below
      · intro commit member
        rw [Option.mem_def.mp member] at compatible
        simpa [areBallotsCompatible] using compatible
    · simp only [checkInvariants, wp_bind, wp_get, wp_ite, wp_pure, wp_throw]
      refine ⟨fun _ => unchanged, fun broken => ?_⟩
      rw [coherent.invariantsHold] at broken
      exact absurd rfl broken
    · exact fails _ _ (Fails.silent rfl rfl (by decide) (by decide))

section Nested

variable {advance : SCPStatement NodeID Hash Value → BallotM NodeID Hash Value Unit}

/-- The shape of every specification below: a path, or a failure after one. -/
abbrev Follows (slot : SlotContext NodeID Hash Value) (call : Call NodeID Hash Value)
    (x : BallotM NodeID Hash Value α) (s : BallotState NodeID Hash Value) : Prop :=
  wp x (fun _ s' => Path slot call s.view s'.view)
    (fun failure s' => Fails slot call failure s.view s'.view) s

theorem bumpStateTo_follows (advances : Advances slot call advance) (value : Value) (n : Nat)
    (coherent : Coherent s.toBallotCore)
    (counter : n ≠ 0 ∨ s.mCurrentBallot.isSome ∨ ∃ value, call = .bumpStateTo value 0)
    (offered : call.offers value ∨ value = slot.latestCompositeCandidate ∧ value ≠ ⊥ ∨
      ∃ current ∈ s.mCurrentBallot, current.value = value) :
    Follows slot call (bumpStateTo slot advance value n) s := by
  have source : BumpValue slot call s.toBallotCore (s.mValueOverride.getD value) := by
    cases found : s.mValueOverride with
    | none => exact Or.inr ⟨found, offered⟩
    | some override => exact Or.inl found
  unfold Follows bumpStateTo
  simp only [wp_bind, wp_get, wp_ite, wp_pure]
  refine ⟨fun _ => .refl, fun _ => ?_⟩
  refine wp_updateCurrentValue ⟨n, s.mValueOverride.getD value⟩ coherent counter source ?_ ?_ ?_
  · exact ⟨fun wrong => (by cases wrong), fun _ => .refl⟩
  · intro s₁ made same
    refine ⟨fun _ => ?_, fun wrong => absurd rfl wrong⟩
    refine wp_mono (wp_emitCurrentStateStatement advances coherent made same) ?_ ?_
    · intro _ s₂ tells
      have path := tells.path made same
      rw [BallotView.externalize_nil] at path
      refine wp_checkHeardFromQuorum ?_
      intro s₃ kept
      rw [kept]
      exact path
    · intro failure s₂ fails
      exact fails
  · intro failure s' fails
    exact fails

theorem bumpState_follows (advances : Advances slot call advance) (value : Value) (force : Bool)
    (coherent : Coherent s.toBallotCore)
    (offered : call.offers value ∨ value = slot.latestCompositeCandidate ∧ value ≠ ⊥ ∨
      ∃ current ∈ s.mCurrentBallot, current.value = value) :
    Follows slot call (bumpState slot advance value force) s := by
  unfold Follows bumpState
  simp only [wp_bind, wp_get, wp_ite, wp_pure]
  refine ⟨fun _ => .refl, fun _ => ?_⟩
  refine bumpStateTo_follows advances value _ coherent ?_ offered
  cases found : s.mCurrentBallot with
  | none => exact Or.inl (by simp)
  | some current => exact Or.inr (Or.inl rfl)

theorem abandonBallot_follows (advances : Advances slot call advance) (n : Nat)
    (coherent : Coherent s.toBallotCore) :
    Follows slot call (abandonBallot slot advance n) s := by
  unfold Follows abandonBallot
  simp only [wp_bind, wp_get, wp_ite, wp_pure]
  refine ⟨fun _ => .refl, fun nonempty => ?_⟩
  have offered : call.offers (if slot.latestCompositeCandidate = ⊥ then
        (s.mCurrentBallot.map SCPBallot.value).getD ⊥ else slot.latestCompositeCandidate) ∨
      (if slot.latestCompositeCandidate = ⊥ then
        (s.mCurrentBallot.map SCPBallot.value).getD ⊥ else slot.latestCompositeCandidate) =
          slot.latestCompositeCandidate ∧
        (if slot.latestCompositeCandidate = ⊥ then
          (s.mCurrentBallot.map SCPBallot.value).getD ⊥ else slot.latestCompositeCandidate) ≠ ⊥ ∨
      ∃ current ∈ s.mCurrentBallot, current.value = (if slot.latestCompositeCandidate = ⊥ then
        (s.mCurrentBallot.map SCPBallot.value).getD ⊥ else slot.latestCompositeCandidate) := by
    right
    by_cases empty : slot.latestCompositeCandidate = ⊥
    · right
      rw [if_pos empty] at nonempty ⊢
      cases found : s.mCurrentBallot with
      | none =>
          rw [found] at nonempty
          exact absurd rfl nonempty
      | some current => exact ⟨current, rfl, rfl⟩
    · left
      rw [if_neg empty]
      exact ⟨rfl, empty⟩
  refine ⟨fun _ => ?_, fun nonzero => ?_⟩
  · exact bumpState_follows advances _ true coherent offered
  · exact bumpStateTo_follows advances _ n coherent (Or.inl nonzero) offered

/-! ### Accepting `prepare` -/

/-- A candidate the scan of `attemptPreparedAccept` goes past while preparing. -/
def PassedOver (slot : SlotContext NodeID Hash Value) (core : BallotCore NodeID Hash Value)
    (ballot : SCPBallot Value) : Prop :=
  (∃ prime ∈ core.mPreparedPrime, ballot ≤ prime) ∨
    (∃ prepared ∈ core.mPrepared, ballot ≤ prepared) ∨
    federatedAccept slot core.mLatestEnvelopes (votedPrepared ballot) (hasPreparedBallot ballot) = false

structure Acceptable (slot : SlotContext NodeID Hash Value) (core : BallotCore NodeID Hash Value)
    (ballot : SCPBallot Value) : Prop where
  confirming : core.mPhase = .SCP_PHASE_CONFIRM →
    (∃ prepared ∈ core.mPrepared, prepared ≤ ballot ∧ prepared.value = ballot.value) ∧
      ∃ commit ∈ core.mCommit, commit.value = ballot.value
  abovePrime : ∀ prime ∈ core.mPreparedPrime, prime < ballot
  unprepared : ∀ prepared ∈ core.mPrepared, ¬ (ballot ≤ prepared ∧ ballot.value = prepared.value)
  accepted : federatedAccept slot core.mLatestEnvelopes (votedPrepared ballot)
    (hasPreparedBallot ballot) = true

inductive ScanResult (slot : SlotContext NodeID Hash Value) (core : BallotCore NodeID Hash Value)
    (candidates : List (SCPBallot Value)) : Except Fault (Option (SCPBallot Value)) → Prop
  | failed (failure : Fault) (invariants : failure ≠ .checkInvariants)
      (badState : failure ≠ .movedToBadState) : ScanResult slot core candidates (.error failure)
  | exhausted (passed : core.mPhase ≠ .SCP_PHASE_CONFIRM →
      ∀ ballot ∈ candidates, PassedOver slot core ballot) :
      ScanResult slot core candidates (.ok none)
  | found (ballot : SCPBallot Value) (member : ballot ∈ candidates)
      (acceptable : Acceptable slot core ballot)
      (passed : core.mPhase ≠ .SCP_PHASE_CONFIRM →
        ∀ other ∈ candidates, other ≤ ballot ∨ PassedOver slot core other) :
      ScanResult slot core candidates (.ok (some ballot))

omit [DecidableEq Hash] [OrderBot Value] in
theorem ScanResult.skip {core : BallotCore NodeID Hash Value} {head : SCPBallot Value}
    {rest : List (SCPBallot Value)} {result : Except Fault (Option (SCPBallot Value))}
    (skipped : core.mPhase ≠ .SCP_PHASE_CONFIRM → PassedOver slot core head)
    (later : ScanResult slot core rest result) : ScanResult slot core (head :: rest) result := by
  cases later with
  | failed failure invariants badState => exact .failed failure invariants badState
  | exhausted passed =>
      refine .exhausted fun preparing ballot member => ?_
      rcases List.mem_cons.mp member with same | inRest
      · exact same ▸ skipped preparing
      · exact passed preparing ballot inRest
  | found ballot member acceptable passed =>
      refine .found ballot (List.mem_cons_of_mem _ member) acceptable fun preparing other present => ?_
      rcases List.mem_cons.mp present with same | inRest
      · exact Or.inr (same ▸ skipped preparing)
      · exact passed preparing other inRest

omit [DecidableEq Hash] [OrderBot Value] in
theorem findPreparedAccept_result (slot : SlotContext NodeID Hash Value)
    (core : BallotCore NodeID Hash Value) (candidates : List (SCPBallot Value)) (descending : candidates.Pairwise (· > ·)) :
    ScanResult slot core candidates (findPreparedAccept slot core candidates) := by
  induction candidates with
  | nil =>
      exact .exhausted fun _ ballot member => (by cases member)
  | cons head rest ih =>
      have parts := List.pairwise_cons.mp descending
      have later := ih parts.2
      -- The three tests after the phase test, common to both phases.
      have consider
          (confirming : core.mPhase = .SCP_PHASE_CONFIRM →
            (∃ prepared ∈ core.mPrepared, prepared ≤ head ∧ prepared.value = head.value) ∧
              ∃ commit ∈ core.mCommit, commit.value = head.value) :
          ScanResult slot core (head :: rest)
            (if core.mPreparedPrime.any (fun prime => decide (compareBallots head prime ≤ 0)) then
              findPreparedAccept slot core rest
            else if core.mPrepared.any (fun prepared => areBallotsLessAndCompatible head prepared) then
              findPreparedAccept slot core rest
            else if federatedAccept slot core.mLatestEnvelopes (votedPrepared head)
                (hasPreparedBallot head) then .ok (some head)
            else findPreparedAccept slot core rest) := by
        split_ifs with belowPrime belowPrepared accepted
        · refine later.skip fun _ => Or.inl ?_
          obtain ⟨prime, member, below⟩ := Option.any_eq_true _ _ |>.mp belowPrime
          exact ⟨prime, member, (compareBallots_le_zero _ _).mp (of_decide_eq_true below)⟩
        · refine later.skip fun _ => Or.inr (Or.inl ?_)
          obtain ⟨prepared, member, below⟩ := Option.any_eq_true _ _ |>.mp belowPrepared
          exact ⟨prepared, member, ((areBallotsLessAndCompatible_iff _ _).mp below).1⟩
        · refine .found head List.mem_cons_self ⟨confirming, ?_, ?_, accepted⟩ ?_
          · intro prime member
            rw [Option.mem_def.mp member] at belowPrime
            simpa [compareBallots_le_zero] using belowPrime
          · intro prepared member below
            rw [Option.mem_def.mp member] at belowPrepared
            exact belowPrepared ((areBallotsLessAndCompatible_iff _ _).mpr below)
          · intro _ other present
            rcases List.mem_cons.mp present with same | inRest
            · exact Or.inl same.le
            · exact Or.inl (parts.1 other inRest).le
        · exact later.skip fun _ => Or.inr (Or.inr (Bool.eq_false_iff.mpr accepted))
      unfold findPreparedAccept
      simp only
      split
      · rename_i confirmPhase
        split
        · exact .failed _ (by decide) (by decide)
        · rename_i prepared preparedAt
          split
          · exact later.skip fun preparing => absurd confirmPhase preparing
          · rename_i above
            simp only [Bool.not_eq_true', Bool.not_eq_false] at above
            split
            · exact .failed _ (by decide) (by decide)
            · rename_i commitBallot commitAt
              split
              · rename_i compatible
                refine consider fun _ => ⟨⟨prepared, preparedAt, ?_⟩, commitBallot, commitAt, ?_⟩
                · exact (areBallotsLessAndCompatible_iff _ _).mp above
                · exact (areBallotsCompatible_iff _ _).mp compatible
              · exact .failed _ (by decide) (by decide)
      · rename_i preparing
        exact consider fun confirming => absurd confirming preparing

theorem setPreparedAccept_follows (advances : Advances slot call advance)
    (hint : SCPStatement NodeID Hash Value) (ballot : SCPBallot Value)
    (coherent : Coherent s.toBallotCore) (running : s.mPhase ≠ .SCP_PHASE_EXTERNALIZE)
    (candidate : ballot ∈ getPrepareCandidates s.toBallotCore hint)
    (acceptable : Acceptable slot s.toBallotCore ballot) :
    wp (setPreparedAccept slot advance ballot)
      (fun _ s' => Path slot call s.view s'.view ∧ ∃ prepared ∈ s'.mPrepared, ballot ≤ prepared)
      (fun failure s' => Fails slot call failure s.view s'.view) s := by
  obtain ⟨prepared, preparedAt, above, _⟩ := setPrepared_prepared s.toBallotCore ballot
  -- Once the state is the accepted core, only the emission is left.
  have announce (s₁ : BallotState NodeID Hash Value)
      (changed : (setPrepared s.toBallotCore ballot).2 = true ∨
        abortsCommit (setPrepared s.toBallotCore ballot).1 = true)
      (aborting : abortsCommit (setPrepared s.toBallotCore ballot).1 = true →
        s.mPhase = .SCP_PHASE_PREPARE)
      (core₁ : s₁.toBallotCore = s.toBallotCore.acceptPrepared ballot)
      (view₁ : s₁.view = s.view.changeTo s₁.toBallotCore []) :
      wp (emitCurrentStateStatement slot advance)
        (fun _ s' => Path slot call s.view s'.view ∧ ∃ prepared ∈ s'.mPrepared, ballot ≤ prepared)
        (fun failure s' => Fails slot call failure s.view s'.view) s₁ := by
    have made : Change slot call s.toBallotCore s₁.toBallotCore [] [] := by
      rw [core₁]
      exact .acceptPrepared s.toBallotCore hint ballot running candidate acceptable.confirming
        acceptable.abovePrime acceptable.unprepared acceptable.accepted changed aborting
    refine wp_mono (wp_emitCurrentStateStatement advances coherent made view₁) ?_ ?_
    · intro _ s₂ tells
      have path := tells.path made view₁
      rw [BallotView.externalize_nil] at path
      refine ⟨path, tells.prepared ballot ⟨prepared, ?_, above⟩⟩
      show prepared ∈ s₁.toBallotCore.mPrepared
      rw [core₁, BallotCore.acceptPrepared_eq]
      exact preparedAt
    · intro failure s₂ fails
      exact fails
  unfold setPreparedAccept
  simp only [wp_bind, wp_get, wp_set, wp_ite, wp_pure, wp_dbgAssert, wp_modify, wp_callDriver]
  refine ⟨fun aborts => ⟨fun preparing => ?_, fun wrong => ?_⟩, fun keeps => ?_⟩
  · refine ⟨fun _ => ?_, fun silent => absurd (by rw [aborts, Bool.or_true]) silent⟩
    refine announce _ (Or.inr aborts) (fun _ => of_decide_eq_true preparing) ?_ ?_
    · rw [BallotCore.acceptPrepared, if_pos aborts]
    · simp [BallotState.view, BallotView.changeTo, Effect.emitted?, Effect.externalized?,
        Effect.confirmation?]
  · exact Fails.silent rfl rfl (by decide) (by decide)
  · refine ⟨fun worked => ?_, fun silent => ⟨?_, prepared, ?_, above⟩⟩
    · have changed : (setPrepared s.toBallotCore ballot).2 = true := by
        rw [Bool.or_eq_true] at worked
        exact worked.resolve_right keeps
      refine announce _ (Or.inl changed) (fun aborts => absurd aborts keeps) ?_ ?_
      · rw [BallotCore.acceptPrepared, if_neg keeps]
      · simp [BallotState.view, BallotView.changeTo, Effect.emitted?, Effect.externalized?,
          Effect.confirmation?]
    · have unchanged : (setPrepared s.toBallotCore ballot).2 = false := by
        cases changed : (setPrepared s.toBallotCore ballot).2 with
        | false => rfl
        | true => exact absurd (by rw [changed, Bool.true_or]) silent
      rw [setPrepared_unchanged _ _ unchanged]
    · exact preparedAt

theorem attemptPreparedAccept_follows (advances : Advances slot call advance)
    (hint : SCPStatement NodeID Hash Value) (coherent : Coherent s.toBallotCore)
    (recorded : s.mLatestEnvelopes.lookup hint.nodeID = some hint) :
    wp (attemptPreparedAccept slot advance hint)
      (fun _ s' => Path slot call s.view s'.view ∧
        (s.mPhase = .SCP_PHASE_PREPARE → Settles slot hint s.toBallotCore s'.toBallotCore))
      (fun failure s' => Fails slot call failure s.view s'.view) s := by
  unfold attemptPreparedAccept
  simp only [wp_bind, wp_get, wp_ite, wp_pure, wp_orFault]
  refine ⟨fun final => ⟨.refl, fun preparing => ?_⟩, fun running => ?_⟩
  · rw [final] at preparing
    cases preparing
  have scan := findPreparedAccept_result slot s.toBallotCore
    (getPrepareCandidates s.toBallotCore hint).reverse
    (OrderedSet.reverse_descending _)
  -- A candidate passed over is either below `p` or cannot be accepted.
  have passedBelow (ballot : SCPBallot Value) (skipped : PassedOver slot s.toBallotCore ballot)
      (accepted : federatedAccept slot s.mLatestEnvelopes (votedPrepared ballot)
        (hasPreparedBallot ballot) = true) : ∃ prepared ∈ s.mPrepared, ballot ≤ prepared := by
    rcases skipped with ⟨prime, primeAt, below⟩ | found | refused
    · obtain ⟨prepared, preparedAt, above, _⟩ := coherent.prime prime primeAt
      exact ⟨prepared, preparedAt, below.trans above⟩
    · exact found
    · rw [accepted] at refused
      cases refused
  refine ⟨fun found result => ?_, fun failure result => ?_⟩
  · rw [result] at scan
    cases scan with
    | exhausted passed =>
        refine ⟨.refl, fun preparing => ⟨recorded, fun _ _ => rfl, ?_⟩⟩
        intro ballot member accepted
        have notConfirming : s.mPhase ≠ .SCP_PHASE_CONFIRM := by
          rw [preparing]
          decide
        exact passedBelow ballot (passed notConfirming ballot (List.mem_reverse.mpr member)) accepted
    | found ballot member acceptable passed =>
        refine wp_mono (setPreparedAccept_follows advances hint ballot coherent running
          (List.mem_reverse.mp member) acceptable) ?_ ?_
        · rintro _ s' ⟨path, reached⟩
          refine ⟨path, fun preparing => ⟨recorded, fun nodeID other => path.others nodeID other, ?_⟩⟩
          intro other otherMember accepted
          have notConfirming : s.mPhase ≠ .SCP_PHASE_CONFIRM := by
            rw [preparing]
            decide
          rcases passed notConfirming other (List.mem_reverse.mpr otherMember) with below | skipped
          · obtain ⟨prepared, preparedAt, above⟩ := reached
            exact ⟨prepared, preparedAt, below.trans above⟩
          · exact path.prepared_mono other (passedBelow other skipped accepted)
        · intro failure s' fails
          exact fails
  · rw [result] at scan
    cases scan with
    | failed _ invariants badState => exact Fails.silent rfl rfl invariants badState

/-! ### Confirming `prepare` -/

omit [DecidableEq Hash] [OrderBot Value] in
theorem findNewH_some {core : BallotCore NodeID Hash Value} {candidates : List (SCPBallot Value)}
    {newH : SCPBallot Value} {cur : List (SCPBallot Value)}
    (found : findNewH slot core candidates = some (newH, cur)) :
    newH ∈ candidates ∧ (∀ high ∈ core.mHighBallot, high < newH) ∧
      federatedRatify slot core.mLatestEnvelopes (hasPreparedBallot newH) = true := by
  induction candidates with
  | nil => cases found
  | cons head rest ih =>
      unfold findNewH at found
      split_ifs at found with reached ratified
      · cases found
        refine ⟨List.mem_cons_self, ?_, ratified⟩
        intro high member
        rw [Option.mem_def.mp member] at reached
        simpa [compareBallots_nonneg] using reached
      · obtain ⟨member, above, ratifies⟩ := ih found
        exact ⟨List.mem_cons_of_mem _ member, above, ratifies⟩

omit [DecidableEq Hash] [OrderBot Value] in
theorem findNewC_below (core : BallotCore NodeID Hash Value) (b newH newC : SCPBallot Value)
    (candidates : List (SCPBallot Value))
    (start : newC.counter ≠ 0 → newC ≤ newH ∧ newC.value = newH.value) :
    (findNewC slot core b newH newC candidates).counter ≠ 0 →
      findNewC slot core b newH newC candidates ≤ newH ∧
        (findNewC slot core b newH newC candidates).value = newH.value := by
  induction candidates generalizing newC with
  | nil => exact start
  | cons head rest ih =>
      unfold findNewC
      split_ifs with below unrelated ratified
      · exact start
      · exact ih newC start
      · refine ih head fun _ => ?_
        simp only [Bool.not_eq_true', Bool.not_eq_false] at unrelated
        exact (areBallotsLessAndCompatible_iff _ _).mp unrelated
      · exact start

theorem setPreparedConfirmed_follows (advances : Advances slot call advance)
    (start : BallotCore NodeID Hash Value) (hint : SCPStatement NodeID Hash Value)
    (newC newH : SCPBallot Value)
    (coherent : Coherent s.toBallotCore) (preparing : s.mPhase = .SCP_PHASE_PREPARE)
    (settled : Settles slot hint start s.toBallotCore)
    (candidate : newH ∈ getPrepareCandidates s.toBallotCore hint)
    (aboveHigh : ∀ high ∈ s.mHighBallot, high < newH)
    (ratified : federatedRatify slot s.mLatestEnvelopes (hasPreparedBallot newH) = true)
    (commitVote : newC.counter ≠ 0 →
      mayVoteCommit s.toBallotCore newH = true ∧ newC ≤ newH ∧ newC.value = newH.value) :
    Follows slot call (setPreparedConfirmed slot advance newC newH) s := by
  have made : Change slot call s.toBallotCore (s.toBallotCore.confirmPrepared newC newH)
      [⟨s.mCurrentBallot, s.mCommit, newH⟩] [] :=
    .confirmPrepared start s.toBallotCore hint newC newH preparing settled candidate aboveHigh
      ratified commitVote
  have running : s.mPhase ≠ .SCP_PHASE_EXTERNALIZE := by
    rw [preparing]
    decide
  have raises : s.mHighBallot.all (fun high => decide (compareBallots newH high > 0)) = true := by
    cases found : s.mHighBallot with
    | none => rfl
    | some high =>
        simpa [compareBallots_pos] using aboveHigh high found
  -- The last part of the function, from the state with `h` and `c` already set.
  have finish (s₁ : BallotState NodeID Hash Value) (worked : Bool)
      (view₁ : s₁.view = s.view.changeTo s₁.toBallotCore [⟨s.mCurrentBallot, s.mCommit, newH⟩])
      (phase₁ : s₁.mPhase = .SCP_PHASE_PREPARE)
      (raised : s₁.toBallotCore.raiseCurrent newH = s.toBallotCore.confirmPrepared newC newH)
      (idle : worked = false →
        s₁.toBallotCore = { s.toBallotCore with mValueOverride := some newH.value }) :
      wp (updateCurrentIfNeeded newH)
        (fun updated s' => ((updated || worked) = true →
          wp (emitCurrentStateStatement slot advance) (fun _ s'' => Path slot call s.view s''.view)
            (fun failure s'' => Fails slot call failure s.view s''.view) s') ∧
          (¬ (updated || worked) = true → Path slot call s.view s'.view))
        (fun failure s' => Fails slot call failure s.view s'.view) s₁ := by
    refine wp_updateCurrentIfNeeded newH (by rw [phase₁]; decide) ?_
    intro s₂ view₂
    have core₂ : s₂.toBallotCore = s.toBallotCore.confirmPrepared newC newH :=
      (congrArg BallotView.core view₂).trans raised
    have view₂' : s₂.view = s.view.changeTo s₂.toBallotCore
        [⟨s.mCurrentBallot, s.mCommit, newH⟩] := by
      rw [view₂, view₁, core₂, ← raised]
      rfl
    have made₂ : Change slot call s.toBallotCore s₂.toBallotCore
        [⟨s.mCurrentBallot, s.mCommit, newH⟩] [] := core₂ ▸ made
    refine ⟨fun _ => ?_, fun silent => ?_⟩
    · refine wp_mono (wp_emitCurrentStateStatement advances coherent made₂ view₂') ?_ ?_
      · intro _ s₃ tells
        have path := tells.path made₂ view₂'
        rwa [BallotView.externalize_nil] at path
      · intro failure s₃ fails
        exact fails
    · rw [Bool.or_eq_true, not_or] at silent
      have core₁ := idle (Bool.eq_false_iff.mpr silent.2)
      have kept : s₂.toBallotCore = { s.toBallotCore with mValueOverride := some newH.value } := by
        rw [core₂, ← raised, BallotCore.raiseCurrent, if_neg silent.1, core₁]
      rw [view₂', kept]
      exact Relation.ReflTransGen.single
        (Step.override s.view newH.value [⟨s.mCurrentBallot, s.mCommit, newH⟩] (kept ▸ made₂))
  unfold Follows setPreparedConfirmed
  simp only [wp_bind, wp_get, wp_callDriver, wp_modify, wp_ite, wp_pure, wp_dbgAssert]
  refine ⟨fun compatible => ⟨fun _ => ⟨fun voting => ⟨fun _ => ⟨fun _ => ?_, fun idle => ?_⟩, fun wrong => ?_⟩,
    fun notVoting => ⟨fun _ => ?_, fun idle => ?_⟩⟩, fun lowered => absurd raises lowered⟩, fun incompatible => ?_⟩
  · refine finish _ _ ?_ preparing ?_ ?_
    · simp [BallotState.view, BallotView.changeTo, Effect.emitted?, Effect.externalized?,
        Effect.confirmation?]
    · rw [BallotCore.confirmPrepared, if_pos compatible, if_pos raises, if_pos voting]
    · intro idle
      rw [raises] at idle
      cases idle
  · rw [raises] at idle
    exact absurd rfl idle
  · have free := (commitVote voting).1
    simp only [mayVoteCommit, Bool.and_eq_true] at free
    rw [free.1.1] at wrong
    cases wrong
  · refine finish _ _ ?_ preparing ?_ ?_
    · simp [BallotState.view, BallotView.changeTo, Effect.emitted?, Effect.externalized?,
        Effect.confirmation?]
    · rw [BallotCore.confirmPrepared, if_pos compatible, if_pos raises, if_neg notVoting]
    · intro idle
      rw [raises] at idle
      cases idle
  · rw [raises] at idle
    exact absurd rfl idle
  · refine finish _ false ?_ preparing ?_ ?_
    · simp [BallotState.view, BallotView.changeTo, Effect.emitted?, Effect.externalized?,
        Effect.confirmation?]
    · rw [BallotCore.confirmPrepared, if_neg incompatible]
    · intro _
      rfl

theorem attemptPreparedConfirmed_follows (advances : Advances slot call advance)
    (hint : SCPStatement NodeID Hash Value) (coherent : Coherent s.toBallotCore)
    (settled : s.mPhase = .SCP_PHASE_PREPARE → ∃ start, Settles slot hint start s.toBallotCore) :
    Follows slot call (attemptPreparedConfirmed slot advance hint) s := by
  unfold Follows attemptPreparedConfirmed
  simp only [wp_bind, wp_get, wp_ite, wp_pure]
  refine ⟨fun _ => .refl, fun notOther => ⟨fun _ => .refl, fun _ => ?_⟩⟩
  have preparing : s.mPhase = .SCP_PHASE_PREPARE := not_not.mp notOther
  split
  · exact .refl
  · rename_i newH cur found
    obtain ⟨start, settles⟩ := settled preparing
    obtain ⟨member, above, ratified⟩ := findNewH_some found
    refine setPreparedConfirmed_follows advances start hint _ newH coherent preparing settles
      (List.mem_reverse.mp member) above ratified ?_
    intro voting
    split_ifs at voting with allowed
    · refine ⟨allowed, ?_⟩
      rw [if_pos allowed]
      exact findNewC_below _ _ _ _ _ (fun nonzero => absurd rfl nonzero) voting
    · exact absurd rfl voting

/-! ### Accepting and confirming `commit` -/

theorem findExtendedInterval_result (pred : Nat × Nat → Bool) (boundaries : List Nat)
    (candidate : Nat × Nat) (valid : candidate.1 ≠ 0 →
      candidate.1 ≤ candidate.2 ∧ pred candidate = true) :
    (findExtendedInterval pred candidate boundaries).1 ≠ 0 →
      (findExtendedInterval pred candidate boundaries).1 ≤
          (findExtendedInterval pred candidate boundaries).2 ∧
        pred (findExtendedInterval pred candidate boundaries) = true ∧
        (candidate.1 = 0 → boundaries ≠ []) := by
  induction boundaries generalizing candidate with
  | nil =>
      intro found
      exact ⟨(valid found).1, (valid found).2, fun zero => absurd zero found⟩
  | cons b rest ih =>
      unfold findExtendedInterval
      split_ifs with fresh single outside extended
      · intro found
        obtain ⟨ordered, holds, _⟩ := ih (b, b) (fun _ => ⟨le_refl _, single⟩) found
        exact ⟨ordered, holds, fun _ => List.cons_ne_nil _ _⟩
      · intro found
        obtain ⟨ordered, holds, _⟩ := ih candidate valid found
        exact ⟨ordered, holds, fun _ => List.cons_ne_nil _ _⟩
      · intro found
        obtain ⟨ordered, holds, _⟩ := ih candidate valid found
        exact ⟨ordered, holds, fun _ => List.cons_ne_nil _ _⟩
      · intro found
        obtain ⟨ordered, holds, _⟩ := ih (b, candidate.2)
          (fun _ => ⟨Nat.le_of_not_lt outside, extended⟩) found
        exact ⟨ordered, holds, fun _ => List.cons_ne_nil _ _⟩
      · intro found
        exact ⟨(valid found).1, (valid found).2, fun _ => List.cons_ne_nil _ _⟩

omit [DecidableEq NodeID] [DecidableEq Hash] [OrderBot Value] in
theorem commitBoundaries_known (core : BallotCore NodeID Hash Value) (ballot : SCPBallot Value)
    (nonempty : getCommitBoundariesFromStatements core ballot ≠ []) :
    ∃ entry ∈ core.mLatestEnvelopes.entries, commitBoundaries ballot entry.2.pledges ≠ [] := by
  obtain ⟨boundary, member⟩ := List.exists_mem_of_ne_nil _ nonempty
  unfold getCommitBoundariesFromStatements at member
  rw [OrderedSet.mem_ofList, List.mem_flatMap] at member
  obtain ⟨entry, present, inside⟩ := member
  exact ⟨entry, present, List.ne_nil_of_mem inside⟩

omit [DecidableEq Hash] [OrderBot Value] in
theorem commitBoundaries_value {left right : SCPBallot Value} (same : left.value = right.value)
    (pledges : SCPPledges Hash Value) :
    commitBoundaries left pledges = commitBoundaries right pledges := by
  cases pledges <;> simp [commitBoundaries, areBallotsCompatible, same]

theorem setAcceptCommit_follows (advances : Advances slot call advance) (c h : SCPBallot Value)
    (coherent : Coherent s.toBallotCore) (running : s.mPhase ≠ .SCP_PHASE_EXTERNALIZE)
    (counter : c.counter ≠ 0) (ordered : c ≤ h) (sameValue : c.value = h.value)
    (known : ∃ entry ∈ s.mLatestEnvelopes.entries, commitBoundaries h entry.2.pledges ≠ [])
    (extending : s.mPhase = .SCP_PHASE_CONFIRM →
      ∃ high ∈ s.mHighBallot, high.value = h.value ∧ high.counter < h.counter) :
    Follows slot call (setAcceptCommit slot advance c h) s := by
  have made : Change slot call s.toBallotCore (s.toBallotCore.acceptCommit c h) [] [] :=
    .acceptCommit s.toBallotCore c h running counter ordered sameValue known extending
  -- From the state in which `c`, `h` and the phase are set.
  have finish (s₁ : BallotState NodeID Hash Value)
      (quiet : ∀ core, { s₁.view with core := core } = { s.view with core := core })
      (phase₁ : s₁.mPhase ≠ .SCP_PHASE_EXTERNALIZE) (high₁ : s₁.mHighBallot = some h)
      (raised : s₁.toBallotCore.raiseCurrent h = s.toBallotCore.acceptCommit c h) :
      (∀ target, s₁.mHighBallot = some target →
        wp (updateCurrentIfNeeded target)
          (fun _ s' => wp (emitCurrentStateStatement slot advance)
            (fun _ s'' => Path slot call s.view s''.view)
            (fun failure s'' => Fails slot call failure s.view s''.view)
            { s' with effects := s'.effects ++ [.acceptedCommit h] })
          (fun failure s' => Fails slot call failure s.view s'.view) s₁) ∧
        (s₁.mHighBallot = none → Fails slot call .nullDereference s.view s₁.view) := by
    refine ⟨fun target found => ?_, fun absent => ?_⟩
    · obtain rfl : h = target := Option.some.inj (high₁.symm.trans found)
      refine wp_updateCurrentIfNeeded h phase₁ ?_
      intro s₂ view₂
      have core₂ : s₂.toBallotCore = s.toBallotCore.acceptCommit c h :=
        (congrArg BallotView.core view₂).trans raised
      have same : ({ s₂ with effects := s₂.effects ++ [.acceptedCommit h] } :
          BallotState NodeID Hash Value).view = s.view.changeTo s₂.toBallotCore [] := by
        have base : s₂.view = s.view.changeTo s₂.toBallotCore [] := by
          rw [view₂, quiet, core₂, ← raised]
          simp [BallotView.changeTo]
        rw [← base]
        simp [BallotState.view, Effect.emitted?, Effect.externalized?, Effect.confirmation?]
      have made₂ : Change slot call s.toBallotCore s₂.toBallotCore [] [] := core₂ ▸ made
      refine wp_mono (wp_emitCurrentStateStatement advances coherent made₂ same) ?_ ?_
      · intro _ s₃ tells
        have path := tells.path made₂ same
        rwa [BallotView.externalize_nil] at path
      · intro failure s₃ fails
        exact fails
    · rw [high₁] at absent
      cases absent
  unfold Follows setAcceptCommit
  simp only [wp_bind, wp_get, wp_modify, wp_ite, wp_pure, wp_deref, wp_callDriver]
  refine ⟨fun raises => ⟨fun preparing => ⟨fun moved => ?_, fun kept => ?_⟩, fun confirming => ?_⟩,
    fun unchanged => ?_⟩
  · refine wp_bumpToBallot h false (by simp) (fun wrong => (by cases wrong)) ?_
    intro s₁ view₁
    refine ⟨fun _ => ?_, fun silent => absurd (Bool.or_eq_true _ _ ▸ Or.inl raises) silent⟩
    have core₁ := congrArg BallotView.core view₁
    refine finish { s₁ with mPreparedPrime := none }
      (fun core => congrArg (fun view => { view with core := core }) view₁) ?_ ?_ ?_
    · rw [show s₁.mPhase = .SCP_PHASE_CONFIRM from congrArg BallotCore.mPhase core₁]
      decide
    · refine (congrArg BallotCore.mHighBallot core₁).trans ?_
      simp [BallotCore.bumpTo, areBallotsCompatible]
    · rw [BallotCore.acceptCommit, if_pos preparing, if_pos moved]
      exact congrArg (fun core => { core with mPreparedPrime := none }.raiseCurrent h) core₁
  · refine ⟨fun _ => ?_, fun silent => absurd (Bool.or_eq_true _ _ ▸ Or.inl raises) silent⟩
    refine finish { s with
        mValueOverride := some h.value, mCommit := some c, mHighBallot := some h
        mPhase := .SCP_PHASE_CONFIRM, mPreparedPrime := none } (fun core => rfl) (by simp) rfl ?_
    rw [BallotCore.acceptCommit, if_pos preparing, if_neg kept]
  · refine ⟨fun _ => ?_, fun silent => absurd (Bool.or_eq_true _ _ ▸ Or.inl raises) silent⟩
    refine finish { s with
        mValueOverride := some h.value, mCommit := some c, mHighBallot := some h }
      (fun core => rfl) running rfl ?_
    rw [BallotCore.acceptCommit, if_neg confirming]
  -- When neither ballot changes, writing them back changes nothing.
  split at unchanged
  case h_2 => exact absurd rfl unchanged
  rename_i high commit highAt commitAt
  simp only [Bool.or_eq_true, decide_eq_true_eq, not_or, not_not] at unchanged
  rw [compareBallots_eq_zero, compareBallots_eq_zero] at unchanged
  rw [unchanged.1] at highAt
  rw [unchanged.2] at commitAt
  refine ⟨fun preparing => ⟨fun moved => ?_, fun kept => ?_⟩, fun confirming => ?_⟩
  · refine wp_bumpToBallot h false (by simp) (fun wrong => (by cases wrong)) ?_
    intro s₁ view₁
    refine ⟨fun _ => ?_, fun silent => absurd (by simp [preparing]) silent⟩
    have core₁ := congrArg BallotView.core view₁
    refine finish { s₁ with mPreparedPrime := none }
      (fun core => congrArg (fun view => { view with core := core }) view₁) ?_ ?_ ?_
    · rw [show s₁.mPhase = .SCP_PHASE_CONFIRM from congrArg BallotCore.mPhase core₁]
      decide
    · refine (congrArg BallotCore.mHighBallot core₁).trans ?_
      simp [BallotCore.bumpTo, areBallotsCompatible, highAt]
    · rw [BallotCore.acceptCommit, if_pos preparing, if_pos moved]
      simp only [← highAt, ← commitAt]
      exact congrArg (fun core => { core with mPreparedPrime := none }.raiseCurrent h) core₁
  · refine ⟨fun _ => ?_, fun silent => absurd (by simp [preparing]) silent⟩
    refine finish { s with
        mValueOverride := some h.value, mPhase := .SCP_PHASE_CONFIRM, mPreparedPrime := none }
      (fun core => rfl) (by simp) highAt ?_
    rw [BallotCore.acceptCommit, if_pos preparing, if_neg kept]
    simp only [← highAt, ← commitAt]
  · -- An extended interval has a higher `h`, so a confirming node always raises.
    have confirmPhase : s.mPhase = .SCP_PHASE_CONFIRM := by
      cases phase : s.mPhase with
      | SCP_PHASE_PREPARE => exact absurd phase confirming
      | SCP_PHASE_CONFIRM => rfl
      | SCP_PHASE_EXTERNALIZE => exact absurd phase running
    obtain ⟨high, member, _, lower⟩ := extending confirmPhase
    rw [Option.some.inj (member.symm.trans highAt)] at lower
    exact absurd lower (lt_irrefl _)

theorem attemptAcceptCommit_follows (advances : Advances slot call advance)
    (hint : SCPStatement NodeID Hash Value) (coherent : Coherent s.toBallotCore) :
    Follows slot call (attemptAcceptCommit slot advance hint) s := by
  unfold Follows attemptAcceptCommit
  simp only [wp_bind, wp_get, wp_ite, wp_pure]
  refine ⟨fun _ => .refl, fun running => ?_⟩
  split
  · exact .refl
  · rename_i ballot offered
    -- The interval and, in CONFIRM, the two tests against `h` are all the change needs.
    have accept (interval : Nat × Nat)
        (computed : interval = findExtendedInterval
          (fun cur => federatedAccept slot s.mLatestEnvelopes (votedCommit ballot cur)
            (commitPredicate ballot cur)) (0, 0)
          (getCommitBoundariesFromStatements s.toBallotCore ballot).reverse)
        (found : interval.1 ≠ 0)
        (extending : s.mPhase = .SCP_PHASE_CONFIRM →
          ∃ high ∈ s.mHighBallot, high.value = ballot.value ∧ high.counter < interval.2) :
        wp (setAcceptCommit slot advance ⟨interval.1, ballot.value⟩ ⟨interval.2, ballot.value⟩)
          (fun _ s' => Path slot call s.view s'.view)
          (fun failure s' => Fails slot call failure s.view s'.view) s := by
      obtain ⟨ordered, _, nonempty⟩ := findExtendedInterval_result _
        (getCommitBoundariesFromStatements s.toBallotCore ballot).reverse (0, 0)
        (fun wrong => absurd rfl wrong) (computed ▸ found)
      obtain ⟨entry, present, bounded⟩ := commitBoundaries_known s.toBallotCore ballot
        (fun empty => nonempty rfl (List.reverse_eq_nil_iff.mpr empty))
      refine setAcceptCommit_follows advances _ _ coherent running found ?_ rfl
        ⟨entry, present, ?_⟩ extending
      · rw [SCPBallot.mk_le_mk]
        exact computed ▸ ordered
      · have boundaries := commitBoundaries_value
          (show (⟨interval.2, ballot.value⟩ : SCPBallot Value).value = ballot.value from rfl)
          entry.2.pledges
        rwa [boundaries]
    simp only [wp_bind, wp_ite, wp_deref, wp_pure]
    refine ⟨fun confirming => ⟨fun high highAt => ⟨fun _ => .refl, fun relevant => ⟨fun _ => .refl,
      fun found => ⟨fun _ => ⟨fun other otherAt => ⟨fun extended => ?_, fun _ => .refl⟩, ?_⟩,
        fun wrong => absurd confirming wrong⟩⟩⟩, fun absent => ?_⟩,
      fun preparing => ⟨fun _ => .refl, fun _ => ⟨fun _ => .refl, fun found =>
        ⟨fun wrong => absurd wrong preparing, fun _ => ⟨fun _ => ?_, fun wrong => absurd trivial wrong⟩⟩⟩⟩⟩
    · refine accept _ rfl found fun _ => ⟨high, highAt, ?_, ?_⟩
      · simp only [Bool.not_eq_true', Bool.not_eq_false] at relevant
        exact ((areBallotsCompatible_iff _ _).mp relevant).symm
      · rw [← Option.some.inj (highAt.symm.trans otherAt)] at extended
        exact of_decide_eq_true extended
    · intro absent
      exact Fails.silent rfl rfl (by decide) (by decide)
    · exact Fails.silent rfl rfl (by decide) (by decide)
    · exact accept _ rfl found fun confirming => absurd confirming preparing

theorem setConfirmCommit_follows (advances : Advances slot call advance) (c h : SCPBallot Value)
    (coherent : Coherent s.toBallotCore) (confirming : s.mPhase = .SCP_PHASE_CONFIRM)
    (counter : c.counter ≠ 0) (ordered : c ≤ h) (sameValue : c.value = h.value)
    (compatible : ∃ commit ∈ s.mCommit, commit.value = c.value)
    (ratified : federatedRatify slot s.mLatestEnvelopes
      (commitPredicate h (c.counter, h.counter)) = true) :
    Follows slot call (setConfirmCommit slot advance c h) s := by
  have made : Change slot call s.toBallotCore (s.toBallotCore.confirmCommit c h) [] [c.value] :=
    .confirmCommit s.toBallotCore c h confirming counter ordered sameValue compatible ratified
  unfold Follows setConfirmCommit
  simp only [wp_bind, wp_get, wp_modify, wp_pure, wp_deref, wp_callDriver]
  refine wp_updateCurrentIfNeeded h ?_ ?_
  · show s.mPhase ≠ .SCP_PHASE_EXTERNALIZE
    rw [confirming]
    decide
  intro s₁ view₁
  have core₁ := congrArg BallotView.core view₁
  have core₂ : { s₁.toBallotCore with mPhase := .SCP_PHASE_EXTERNALIZE } =
      s.toBallotCore.confirmCommit c h :=
    congrArg (fun core : BallotCore NodeID Hash Value =>
      { core with mPhase := .SCP_PHASE_EXTERNALIZE }) core₁
  have same : ({ s₁ with mPhase := .SCP_PHASE_EXTERNALIZE } : BallotState NodeID Hash Value).view =
      s.view.changeTo { s₁.toBallotCore with mPhase := .SCP_PHASE_EXTERNALIZE } [] := by
    have quiet : { s₁.view with core := s.toBallotCore.confirmCommit c h } =
        { s.view with core := s.toBallotCore.confirmCommit c h } :=
      congrArg (fun view : BallotView NodeID Hash Value =>
        { view with core := s.toBallotCore.confirmCommit c h }) view₁
    rw [core₂, BallotView.changeTo, List.append_nil]
    exact quiet
  have made₂ : Change slot call s.view.core
      ({ s₁ with mPhase := .SCP_PHASE_EXTERNALIZE } : BallotState NodeID Hash Value).toBallotCore
      [] [c.value] := core₂ ▸ made
  refine wp_mono (wp_emitCurrentStateStatement advances coherent made₂ same) ?_ ?_
  · intro _ s₃ tells
    have path := tells.path made₂ same
    have committed : s₃.mCommit = some c := by
      obtain ⟨announced, told, later⟩ := tells
      have final : announced.mPhase = .SCP_PHASE_EXTERNALIZE := by
        rw [told.frame]
      have kept : s₃.toBallotCore = announced := (later.externalized final).1
      rw [show s₃.mCommit = announced.mCommit from congrArg BallotCore.mCommit kept, told.frame]
      exact (congrArg BallotCore.mCommit core₂).trans (BallotCore.confirmCommit_commit _ _ _)
    refine ⟨fun commit found => ?_, fun absent => ?_⟩
    · obtain rfl : c = commit := Option.some.inj (committed.symm.trans found)
      have last : ({ s₃ with
          effects := s₃.effects ++ [.stopNomination] ++ [.valueExternalized c.value] } :
          BallotState NodeID Hash Value).view = s₃.view.externalize [c.value] := by
        simp [BallotState.view, BallotView.externalize, List.filterMap_cons, Effect.emitted?,
          Effect.externalized?, Effect.confirmation?]
      rw [last]
      exact path
    · rw [committed] at absent
      cases absent
  · intro failure s₃ fails
    exact fails

theorem attemptConfirmCommit_follows (advances : Advances slot call advance)
    (hint : SCPStatement NodeID Hash Value) (coherent : Coherent s.toBallotCore) :
    Follows slot call (attemptConfirmCommit slot advance hint) s := by
  unfold Follows attemptConfirmCommit
  simp only [wp_bind, wp_get, wp_ite, wp_pure]
  refine ⟨fun _ => .refl, fun notOther => ?_⟩
  have confirming : s.mPhase = .SCP_PHASE_CONFIRM := not_not.mp notOther
  split
  · rename_i high commit ballot highAt commitAt offered
    simp only [wp_ite, wp_pure]
    refine ⟨fun _ => .refl, fun related => ⟨fun _ => .refl, fun found => ?_⟩⟩
    obtain ⟨ordered, ratified, _⟩ := findExtendedInterval_result _
      (getCommitBoundariesFromStatements s.toBallotCore ballot).reverse (0, 0)
      (fun wrong => absurd rfl wrong) found
    simp only [Bool.not_eq_true', Bool.not_eq_false] at related
    refine setConfirmCommit_follows advances _ _ coherent confirming found ?_ rfl
      ⟨commit, commitAt, ((areBallotsCompatible_iff _ _).mp related).symm⟩ ?_
    · rw [SCPBallot.mk_le_mk]
      exact ordered
    · exact ratified
  · exact .refl

/-! ### Bumping and advancing -/

theorem attemptBump_follows (advances : Advances slot call advance)
    (coherent : Coherent s.toBallotCore) : Follows slot call (attemptBump slot advance) s := by
  unfold Follows attemptBump
  simp only [wp_bind, wp_get, wp_ite, wp_pure]
  refine ⟨fun _ => .refl, fun _ => ⟨fun _ => .refl, fun _ => ?_⟩⟩
  split
  · exact .refl
  · exact abandonBallot_follows advances _ coherent

omit [DecidableEq Hash] in
theorem Follows.then {middle : BallotState NodeID Hash Value} {x : BallotM NodeID Hash Value α}
    (path : Path slot call s.view middle.view) (follows : Follows slot call x middle) :
    wp x (fun _ s' => Path slot call s.view s'.view)
      (fun failure s' => Fails slot call failure s.view s'.view) middle :=
  wp_mono follows (fun _ _ later => path.trans later) (fun _ _ fails => Fails.of_path path fails)

theorem bumpLoop_follows (advances : Advances slot call advance) (fuel : Nat) (didWork : Bool)
    (s : BallotState NodeID Hash Value) (coherent : Coherent s.toBallotCore) :
    Follows slot call (bumpLoop slot advance fuel didWork) s := by
  induction fuel generalizing didWork s with
  | zero => exact Fails.silent rfl rfl (by decide) (by decide)
  | succ fuel ih =>
      unfold Follows bumpLoop
      simp only [wp_bind, wp_ite, wp_pure]
      refine wp_mono (attemptBump_follows advances coherent) ?_ ?_
      · intro bumped s₁ path
        refine ⟨fun _ => ?_, fun _ => path⟩
        exact (ih true s₁ (path.coherent coherent)).then path
      · intro failure s₁ fails
        exact fails

end Nested

theorem sendLatestEnvelope_follows {middle : BallotState NodeID Hash Value}
    (path : Path slot call s.view middle.view) :
    wp sendLatestEnvelope (fun _ s' => Path slot call s.view s'.view)
      (fun failure s' => Fails slot call failure s.view s'.view) middle := by
  refine wp_sendLatestEnvelope ?_ ?_
  · intro s' same
    rw [same]
    exact path
  · intro s' st found same
    rw [same]
    exact path.tail (Step.emit _ st found)

theorem advanceSlot_advances (slot : SlotContext NodeID Hash Value)
    (call : Call NodeID Hash Value) (fuel : Nat) : Advances slot call (advanceSlot slot fuel) := by
  -- The nested calls are the same function with less fuel.
  induction fuel with
  | zero =>
      intro hint s _ _
      exact Fails.silent rfl rfl (by decide) (by decide)
  | succ fuel advances =>
      intro hint s coherent recorded
      unfold advanceSlot
      simp only [wp_bind, wp_get, wp_modify, wp_ite, wp_throw, wp_pure]
      refine ⟨fun _ => Fails.silent rfl rfl (by decide) (by decide), fun _ => ?_⟩
      refine wp_mono (attemptPreparedAccept_follows advances hint coherent recorded) ?_ ?_
      · rintro accepted s₁ ⟨path₁, settled⟩
        have coherent₁ : Coherent s₁.toBallotCore := path₁.coherent coherent
        have settled₁ : s₁.mPhase = .SCP_PHASE_PREPARE →
            ∃ start, Settles slot hint start s₁.toBallotCore := by
          intro preparing₁
          refine ⟨s.toBallotCore, settled ?_⟩
          by_contra started
          obtain ⟨value, fixed⟩ := coherent.fixed started
          exact (path₁.fixed fixed).started preparing₁
        refine wp_mono (Follows.then path₁
          (attemptPreparedConfirmed_follows advances hint coherent₁ settled₁)) ?_ ?_
        · intro confirmed s₂ path₂
          have coherent₂ : Coherent s₂.toBallotCore := path₂.coherent coherent
          refine wp_mono (Follows.then path₂
            (attemptAcceptCommit_follows advances hint coherent₂)) ?_ ?_
          · intro committed s₃ path₃
            have coherent₃ : Coherent s₃.toBallotCore := path₃.coherent coherent
            refine wp_mono (Follows.then path₃
              (attemptConfirmCommit_follows advances hint coherent₃)) ?_ ?_
            · intro externalized s₄ path₄
              have coherent₄ : Coherent s₄.toBallotCore := path₄.coherent coherent
              refine ⟨fun _ => ?_, fun _ => ⟨fun _ => sendLatestEnvelope_follows path₄, fun _ => path₄⟩⟩
              refine wp_mono (Follows.then path₄
                (bumpLoop_follows advances _ _ s₄ coherent₄)) ?_ ?_
              · intro worked s₅ path₅
                refine wp_checkHeardFromQuorum ?_
                intro s₆ same
                have path₆ : Path slot call s.view s₆.view := by
                  rw [same]
                  exact path₅
                exact ⟨fun _ => sendLatestEnvelope_follows path₆, fun _ => path₆⟩
              · intro failure s₅ fails
                exact fails
            · intro failure s₄ fails
              exact fails
          · intro failure s₃ fails
            exact fails
        · intro failure s₂ fails
          exact fails
      · intro failure s₁ fails
        exact fails

/-! ### Whole calls -/

/-- What a call starts from: the state as it is or, when the call is a statement that
passes its tests, the state with that statement recorded. -/
def Received (slot : SlotContext NodeID Hash Value) (call : Call NodeID Hash Value)
    (view received : BallotView NodeID Hash Value) : Prop :=
  received = view ∨
    ∃ st, call = .processEnvelope st ∧ Passes slot view.core st false ∧ received = view.record st

theorem Call.perform_follows (slot : SlotContext NodeID Hash Value) (call : Call NodeID Hash Value)
    (s : BallotState NodeID Hash Value) (coherent : Coherent s.toBallotCore) :
    wp (call.perform slot)
      (fun _ s' => ∃ received, Received slot call s.view received ∧ Path slot call received s'.view)
      (fun failure s' => ∃ received, Received slot call s.view received ∧
        Fails slot call failure received s'.view) s := by
  have advances := advanceSlot_advances slot call MAX_ADVANCE_SLOT_RECURSION
  -- The three calls that receive nothing.
  have unreceived {x : BallotM NodeID Hash Value Bool} (follows : Follows slot call x s) :
      wp (do let _ ← x)
        (fun _ s' => ∃ received, Received slot call s.view received ∧ Path slot call received s'.view)
        (fun failure s' => ∃ received, Received slot call s.view received ∧
          Fails slot call failure received s'.view) s := by
    simp only [wp_bind, wp_pure]
    refine wp_mono follows ?_ ?_
    · intro _ s' path
      exact ⟨s.view, Or.inl rfl, path⟩
    · intro failure s' fails
      exact ⟨s.view, Or.inl rfl, fails⟩
  cases call with
  | processEnvelope st =>
      simp only [Call.perform, wp_bind, wp_pure]
      refine wp_processEnvelope st false ?_ ?_ ?_ ?_ ?_
      · intro _
        exact ⟨s.view, Or.inl rfl, Fails.silent rfl rfl (by decide) (by decide)⟩
      · intro _ _
        exact ⟨s.view, Or.inl rfl, Fails.silent rfl rfl (by decide) (by decide)⟩
      · intro _
        exact ⟨s.view, Or.inl rfl, .refl⟩
      · intro passes running s₁ recorded
        have received : Received slot (.processEnvelope st) s.view s₁.view :=
          Or.inr ⟨st, rfl, passes, recorded⟩
        have core₁ : s₁.toBallotCore = { s.toBallotCore with
            mLatestEnvelopes := s.mLatestEnvelopes.insert st.nodeID st } :=
          congrArg BallotView.core recorded
        have coherent₁ : Coherent s₁.toBallotCore := core₁ ▸ coherent.withLatest _
        have known₁ : s₁.mLatestEnvelopes.lookup st.nodeID = some st := by
          rw [core₁]
          exact AList.lookup_insert _
        refine wp_mono (advances st s₁ coherent₁ known₁) ?_ ?_
        · intro _ s' path
          exact ⟨s₁.view, received, path⟩
        · intro failure s' fails
          exact ⟨s₁.view, received, fails⟩
      · intro passes final s₁ recorded
        exact ⟨s₁.view, Or.inr ⟨st, rfl, passes, recorded⟩, .refl⟩
  | bumpState value force =>
      exact unreceived (bumpState_follows advances value force coherent (Or.inl rfl))
  | bumpStateTo value n =>
      refine unreceived (bumpStateTo_follows advances value n coherent ?_ (Or.inl rfl))
      by_cases zero : n = 0
      · exact Or.inr (Or.inr ⟨value, by rw [zero]⟩)
      · exact Or.inl zero
  | abandonBallot n => exact unreceived (abandonBallot_follows advances n coherent)

end ViiCore.SCP
