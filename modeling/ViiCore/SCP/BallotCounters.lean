import ViiCore.SCP.BallotPaths

/-!
Counters fit their 32-bit type, and whatever a node says was made from a state that had passed
`checkInvariants`.

Every function of `BallotProtocol.cpp` keeps both, also where it stops with a fault. The functions
that emit take the same of the nested `advanceSlot`, and the induction over the nesting depth closes
them together.
-/

namespace ViiCore.SCP

open Execution

variable {NodeID Hash Value : Type}

def SCPPledges.Fits : SCPPledges Hash Value → Prop
  | .prepare _ ballot prepared preparedPrime nC nH =>
      ballot.counter ≤ UINT32_MAX ∧ (∀ high ∈ prepared, high.counter ≤ UINT32_MAX) ∧
        (∀ prime ∈ preparedPrime, prime.counter ≤ UINT32_MAX) ∧ nC ≤ UINT32_MAX ∧ nH ≤ UINT32_MAX
  | .confirm ballot nPrepared nCommit nH _ =>
      ballot.counter ≤ UINT32_MAX ∧ nPrepared ≤ UINT32_MAX ∧ nCommit ≤ UINT32_MAX ∧ nH ≤ UINT32_MAX
  | .externalize commit nH _ => commit.counter ≤ UINT32_MAX ∧ nH ≤ UINT32_MAX

structure BallotCore.Fits [DecidableEq NodeID] (core : BallotCore NodeID Hash Value) : Prop where
  current : ∀ current ∈ core.mCurrentBallot, current.counter ≤ UINT32_MAX
  prepared : ∀ prepared ∈ core.mPrepared, prepared.counter ≤ UINT32_MAX
  prime : ∀ prime ∈ core.mPreparedPrime, prime.counter ≤ UINT32_MAX
  high : ∀ high ∈ core.mHighBallot, high.counter ≤ UINT32_MAX
  commit : ∀ commit ∈ core.mCommit, commit.counter ≤ UINT32_MAX
  latest : ∀ nodeID st, core.mLatestEnvelopes.lookup nodeID = some st → st.pledges.Fits

def Call.Fits : Call NodeID Hash Value → Prop
  | .processEnvelope st => st.pledges.Fits
  | .bumpState _ _ => True
  | .bumpStateTo _ n => n ≤ UINT32_MAX
  | .abandonBallot n => n ≤ UINT32_MAX

variable [DecidableEq NodeID] [DecidableEq Hash] [LinearOrder Value] [OrderBot Value]
  {slot : SlotContext NodeID Hash Value} {s : BallotState NodeID Hash Value}
  {core : BallotCore NodeID Hash Value} {α β : Type}

omit [DecidableEq Hash] [LinearOrder Value] [OrderBot Value] in
theorem BallotCore.Fits.entry (fits : core.Fits) {entry : Sigma fun _ : NodeID => SCPStatement NodeID Hash Value}
    (present : entry ∈ core.mLatestEnvelopes.entries) : entry.2.pledges.Fits :=
  fits.latest entry.1 entry.2 (AList.mem_lookup_iff.mpr present)

omit [DecidableEq Hash] [OrderBot Value] in
theorem BallotCore.Fits.bumpTo (fits : core.Fits) {ballot : SCPBallot Value}
    (counter : ballot.counter ≤ UINT32_MAX) : (core.bumpTo ballot).Fits where
  current := by
    intro current isCurrent
    cases isCurrent
    exact counter
  prepared := fits.prepared
  prime := fits.prime
  high := by
    intro high isHigh
    exact fits.high high (Option.mem_filter_iff.mp isHigh).1
  commit := fits.commit
  latest := fits.latest

/-! ### Where counters come from -/

omit [DecidableEq Hash] [LinearOrder Value] [OrderBot Value] in
theorem fits_hintBallots {pledges : SCPPledges Hash Value} (fits : pledges.Fits) :
    ∀ ballot ∈ hintBallots pledges, ballot.counter ≤ UINT32_MAX := by
  intro ballot member
  cases pledges with
  | prepare hash vote prepared preparedPrime nC nH =>
      simp only [hintBallots, List.cons_append, List.mem_cons, List.mem_append,
        Option.mem_toList] at member
      rcases member with same | isPrepared | isPrime
      · rw [same]
        exact fits.1
      · exact fits.2.1 ballot isPrepared
      · exact fits.2.2.1 ballot isPrime
  | confirm vote nPrepared nCommit nH hash =>
      simp only [hintBallots, List.mem_cons, List.not_mem_nil, or_false] at member
      rcases member with same | same
      · rw [same]
        exact fits.2.1
      · rw [same]
  | externalize commit nH hash =>
      rw [List.mem_singleton.mp member]

section

omit [DecidableEq Hash] [OrderBot Value]

theorem fits_candidatesBelow {pledges : SCPPledges Hash Value} (fits : pledges.Fits)
    {topVote : SCPBallot Value} (top : topVote.counter ≤ UINT32_MAX) :
    ∀ ballot ∈ candidatesBelow topVote pledges, ballot.counter ≤ UINT32_MAX := by
  intro ballot member
  cases pledges with
  | prepare hash vote prepared preparedPrime nC nH =>
      simp only [candidatesBelow, List.mem_filter] at member
      exact fits_hintBallots fits ballot member.1
  | confirm vote nPrepared nCommit nH hash =>
      simp only [candidatesBelow] at member
      split at member
      · rcases List.mem_cons.mp member with same | lower
        · rw [same]
          exact top
        · split at lower
          · rw [List.mem_singleton.mp lower]
            exact fits.2.1
          · cases lower
      · cases member
  | externalize commit nH hash =>
      simp only [candidatesBelow] at member
      split at member
      · rw [List.mem_singleton.mp member]
        exact top
      · cases member

theorem BallotCore.Fits.candidates (fits : core.Fits) {hint : SCPStatement NodeID Hash Value}
    (hintFits : hint.pledges.Fits) :
    ∀ ballot ∈ getPrepareCandidates core hint, ballot.counter ≤ UINT32_MAX := by
  intro ballot member
  simp only [getPrepareCandidates, OrderedSet.mem_ofList, List.mem_flatMap, List.mem_reverse] at member
  obtain ⟨topVote, isTop, entry, present, below⟩ := member
  exact fits_candidatesBelow (fits.entry present) (fits_hintBallots hintFits topVote isTop) ballot below

theorem BallotCore.Fits.boundaries (fits : core.Fits) (ballot : SCPBallot Value) :
    ∀ boundary ∈ getCommitBoundariesFromStatements core ballot, boundary ≤ UINT32_MAX := by
  intro boundary member
  simp only [getCommitBoundariesFromStatements, OrderedSet.mem_ofList, List.mem_flatMap] at member
  obtain ⟨entry, present, among⟩ := member
  have entryFits := fits.entry present
  cases pledges : entry.2.pledges with
  | prepare hash vote prepared preparedPrime nC nH =>
      rw [pledges] at among entryFits
      simp only [commitBoundaries] at among
      split at among
      · simp only [List.mem_cons, List.not_mem_nil, or_false] at among
        rcases among with same | same
        · rw [same]
          exact entryFits.2.2.2.1
        · rw [same]
          exact entryFits.2.2.2.2
      · cases among
  | confirm vote nPrepared nCommit nH hash =>
      rw [pledges] at among entryFits
      simp only [commitBoundaries] at among
      split at among
      · simp only [List.mem_cons, List.not_mem_nil, or_false] at among
        rcases among with same | same
        · rw [same]
          exact entryFits.2.2.1
        · rw [same]
          exact entryFits.2.2.2
      · cases among
  | externalize commit nH hash =>
      rw [pledges] at among entryFits
      simp only [commitBoundaries] at among
      split at among
      · simp only [List.mem_cons, List.not_mem_nil, or_false] at among
        rcases among with same | same | same
        · rw [same]
          exact entryFits.1
        · rw [same]
          exact entryFits.2
        · rw [same]
      · cases among

end

theorem fits_findExtendedInterval (pred : Nat × Nat → Bool) {boundaries : List Nat}
    (fits : ∀ boundary ∈ boundaries, boundary ≤ UINT32_MAX) (candidate : Nat × Nat)
    (first : candidate.1 ≤ UINT32_MAX) (second : candidate.2 ≤ UINT32_MAX) :
    (findExtendedInterval pred candidate boundaries).1 ≤ UINT32_MAX ∧
      (findExtendedInterval pred candidate boundaries).2 ≤ UINT32_MAX := by
  induction boundaries generalizing candidate with
  | nil => exact ⟨first, second⟩
  | cons boundary rest ih =>
      obtain ⟨here, later⟩ := List.forall_mem_cons.mp fits
      unfold findExtendedInterval
      split_ifs with fresh single outside extended
      · exact ih later _ here here
      · exact ih later _ first second
      · exact ih later _ first second
      · exact ih later _ here second
      · exact ⟨first, second⟩

omit [DecidableEq Hash] [OrderBot Value] in
theorem findNewH_suffix {candidates : List (SCPBallot Value)} {newH : SCPBallot Value}
    {cur : List (SCPBallot Value)} (found : findNewH slot core candidates = some (newH, cur)) :
    cur <:+ candidates := by
  induction candidates with
  | nil => cases found
  | cons head rest ih =>
      unfold findNewH at found
      split_ifs at found
      · cases found
        exact List.suffix_rfl
      · exact (ih found).trans (List.suffix_cons head rest)

omit [DecidableEq Hash] [OrderBot Value] in
theorem fits_findNewC (b newH : SCPBallot Value) {candidates : List (SCPBallot Value)}
    (fits : ∀ ballot ∈ candidates, ballot.counter ≤ UINT32_MAX) {newC : SCPBallot Value}
    (start : newC.counter ≤ UINT32_MAX) :
    (findNewC slot core b newH newC candidates).counter ≤ UINT32_MAX := by
  induction candidates generalizing newC with
  | nil => exact start
  | cons ballot rest ih =>
      obtain ⟨here, later⟩ := List.forall_mem_cons.mp fits
      unfold findNewC
      split_ifs
      · exact start
      · exact ih later start
      · exact ih later here
      · exact start

/-! ### What is kept -/

/-- A statement made from a state that passed `checkInvariants`, of a node that balloted. -/
def Made (slot : SlotContext NodeID Hash Value) (st : SCPStatement NodeID Hash Value) : Prop :=
  ∃ core : BallotCore NodeID Hash Value, core.Fits ∧ core.mCurrentBallot.isSome ∧
    currentStatement slot core = .ok st

/-- Counters fit their type, and what the node says, or is about to, was made. -/
structure Traceable (slot : SlotContext NodeID Hash Value) (view : BallotView NodeID Hash Value) :
    Prop where
  fits : view.core.Fits
  made : ∀ st, view.lastEnvelope = some st ∨ st ∈ view.emitted → Made slot st

abbrev Keeps (slot : SlotContext NodeID Hash Value) (x : BallotM NodeID Hash Value α)
    (s : BallotState NodeID Hash Value) : Prop :=
  wp x (fun _ s' => Traceable slot s'.view) (fun _ s' => Traceable slot s'.view) s

section

omit [DecidableEq Hash]

theorem Traceable.update {s' : BallotState NodeID Hash Value} (traceable : Traceable slot s.view)
    (fits : s'.toBallotCore.Fits) (last : s'.mLastEnvelope = s.mLastEnvelope)
    (emitted : s'.view.emitted = s.view.emitted) : Traceable slot s'.view where
  fits := fits
  made := by
    intro st said
    apply traceable.made st
    rw [← emitted]
    exact said.imp_left fun isLast => last.symm.trans isLast

theorem Traceable.coreFits (traceable : Traceable slot s.view) : s.toBallotCore.Fits := traceable.fits

theorem Keeps.then {x : BallotM NodeID Hash Value α} {f : α → BallotM NodeID Hash Value β}
    (first : Keeps slot x s)
    (second : ∀ a s', Traceable slot s'.view → Keeps slot (f a) s') : Keeps slot (x >>= f) s := by
  unfold Keeps
  rw [wp_bind]
  exact wp_mono first (fun a s' traceable => second a s' traceable) (fun _ _ traceable => traceable)

theorem checkInvariants_keeps (traceable : Traceable slot s.view) :
    Keeps slot (checkInvariants : BallotM NodeID Hash Value Unit) s := by
  unfold Keeps checkInvariants
  simp only [wp_bind, wp_get, wp_ite, wp_pure, wp_throw]
  exact ⟨fun _ => traceable, fun _ => traceable⟩

end

theorem sendLatestEnvelope_keeps (traceable : Traceable slot s.view) :
    Keeps slot (sendLatestEnvelope : BallotM NodeID Hash Value Unit) s := by
  refine wp_sendLatestEnvelope ?_ ?_
  · intro s' same
    rw [same]
    exact traceable
  · intro s' st isLast same
    rw [same]
    refine ⟨traceable.fits, ?_⟩
    intro other said
    rcases said with last | sent
    · exact traceable.made other (.inl last)
    · rcases List.mem_append.mp sent with earlier | now
      · exact traceable.made other (.inr earlier)
      · rw [List.mem_singleton.mp now]
        exact traceable.made st (.inl isLast)

section

omit [DecidableEq Hash]

theorem checkHeardFromQuorum_keeps (traceable : Traceable slot s.view) :
    Keeps slot (checkHeardFromQuorum slot) s := by
  refine wp_checkHeardFromQuorum ?_
  intro s' same
  rw [same]
  exact traceable

theorem bumpToBallot_keeps {ballot : SCPBallot Value} (check : Bool)
    (counter : ballot.counter ≤ UINT32_MAX) (traceable : Traceable slot s.view) :
    Keeps slot (bumpToBallot ballot check) s := by
  have moved : ∀ s' : BallotState NodeID Hash Value,
      s'.toBallotCore = s.toBallotCore.bumpTo ballot → s'.mLastEnvelope = s.mLastEnvelope →
        s'.view.emitted = s.view.emitted → Traceable slot s'.view := by
    intro s' same last emitted
    apply traceable.update _ last emitted
    rw [same]
    exact traceable.coreFits.bumpTo counter
  unfold Keeps bumpToBallot
  simp only [wp_bind, wp_get, wp_dbgAssert, wp_ite, wp_modify, wp_callDriver]
  refine ⟨fun _ => ⟨fun _ => ⟨fun _ => ⟨fun _ => ?_, fun _ => ?_⟩, fun _ => traceable⟩,
    fun _ => ⟨fun _ => ?_, fun _ => ?_⟩⟩, fun _ => traceable⟩
  · exact moved _ rfl rfl (by simp [BallotState.view, Effect.emitted?])
  · exact moved _ rfl rfl rfl
  · exact moved _ rfl rfl (by simp [BallotState.view, Effect.emitted?])
  · exact moved _ rfl rfl rfl

theorem updateCurrentIfNeeded_keeps {h : SCPBallot Value} (counter : h.counter ≤ UINT32_MAX)
    (traceable : Traceable slot s.view) : Keeps slot (updateCurrentIfNeeded h) s := by
  unfold Keeps updateCurrentIfNeeded
  simp only [wp_bind, wp_get, wp_ite, wp_pure]
  exact ⟨fun _ => bumpToBallot_keeps true counter traceable, fun _ => traceable⟩

theorem updateCurrentValue_keeps {ballot : SCPBallot Value} (counter : ballot.counter ≤ UINT32_MAX)
    (traceable : Traceable slot s.view) : Keeps slot (updateCurrentValue ballot) s := by
  have bump : Keeps slot (do
      bumpToBallot ballot true
      checkInvariants
      return true) s := by
    apply (bumpToBallot_keeps true counter traceable).then
    intro _ s₁ traceable₁
    apply (checkInvariants_keeps traceable₁).then
    intro _ s₂ traceable₂
    exact traceable₂
  unfold Keeps updateCurrentValue
  simp only [wp_bind, wp_get, wp_ite]
  refine ⟨fun _ => traceable, fun _ => ?_⟩
  split
  · exact bump
  · simp only [wp_bind, wp_dbgAssert, wp_ite]
    refine ⟨fun _ => ⟨fun _ => traceable, fun _ => ⟨fun _ => ?_, fun _ => ⟨fun _ => traceable,
      fun _ => ?_⟩⟩⟩, fun _ => traceable⟩
    · simpa only [Keeps, wp_bind] using bump
    · have check := (checkInvariants_keeps traceable).then (f := fun _ => pure false)
        fun _ s₁ traceable₁ => traceable₁
      simpa only [Keeps, wp_bind] using check

end

/-! ### Statements -/

omit [DecidableEq Hash] [LinearOrder Value] [OrderBot Value] in
theorem BallotCore.Fits.record (fits : core.Fits) {st : SCPStatement NodeID Hash Value}
    (stFits : st.pledges.Fits) :
    BallotCore.Fits { core with mLatestEnvelopes := core.mLatestEnvelopes.insert st.nodeID st } where
  current := fits.current
  prepared := fits.prepared
  prime := fits.prime
  high := fits.high
  commit := fits.commit
  latest := by
    intro nodeID other found
    by_cases same : nodeID = st.nodeID
    · rw [same, AList.lookup_insert] at found
      rw [← Option.some.inj found]
      exact stFits
    · rw [AList.lookup_insert_ne same] at found
      exact fits.latest nodeID other found

omit [DecidableEq Hash] in
theorem Traceable.record {view : BallotView NodeID Hash Value} (traceable : Traceable slot view)
    {st : SCPStatement NodeID Hash Value} (stFits : st.pledges.Fits) :
    Traceable slot (view.record st) :=
  ⟨traceable.fits.record stFits, traceable.made⟩

omit [DecidableEq Hash] in
theorem BallotCore.Fits.currentStatement (fits : core.Fits) {st : SCPStatement NodeID Hash Value}
    (created : currentStatement slot core = .ok st) : st.pledges.Fits := by
  have holds := currentStatement_invariants created
  have counterOf : ∀ ballot : Option (SCPBallot Value), (∀ b ∈ ballot, b.counter ≤ UINT32_MAX) →
      (ballot.map SCPBallot.counter).getD 0 ≤ UINT32_MAX := by
    intro ballot within
    cases ballot with
    | none => exact Nat.zero_le _
    | some b => exact within b rfl
  unfold SCP.currentStatement createStatement at created
  simp only [holds, Bool.not_true, Bool.false_eq_true, if_false] at created
  split at created
  · cases created
    refine ⟨?_, fits.prepared, fits.prime, counterOf _ fits.commit, counterOf _ fits.high⟩
    cases found : core.mCurrentBallot with
    | none => exact Nat.zero_le _
    | some current => exact fits.current current found
  · split at created
    · rename_i current prepared commit high isCurrent isPrepared isCommit isHigh
      cases created
      exact ⟨fits.current current isCurrent, fits.prepared prepared isPrepared,
        fits.commit commit isCommit, fits.high high isHigh⟩
    · cases created
  · split at created
    · rename_i commit high isCommit isHigh
      cases created
      exact ⟨fits.commit commit isCommit, fits.high high isHigh⟩
    · cases created

section Nested

variable {advance : SCPStatement NodeID Hash Value → BallotM NodeID Hash Value Unit}

abbrev AdvanceKeeps (slot : SlotContext NodeID Hash Value)
    (advance : SCPStatement NodeID Hash Value → BallotM NodeID Hash Value Unit) : Prop :=
  ∀ (hint : SCPStatement NodeID Hash Value) (s : BallotState NodeID Hash Value),
    hint.pledges.Fits → Traceable slot s.view → Keeps slot (advance hint) s

omit [DecidableEq Hash] in
theorem processEnvelope_keeps (keeps : AdvanceKeeps slot advance)
    {st : SCPStatement NodeID Hash Value} (self : Bool) (stFits : st.pledges.Fits)
    (traceable : Traceable slot s.view) : Keeps slot (processEnvelope slot advance st self) s := by
  refine wp_processEnvelope st self (fun _ => traceable) (fun _ _ => traceable) (fun _ => traceable)
    ?_ ?_
  · intro _ _ s' recorded
    apply keeps st s' stFits
    rw [recorded]
    exact traceable.record stFits
  · intro _ _ s' recorded
    rw [recorded]
    exact traceable.record stFits

theorem emitCurrentStateStatement_keeps (keeps : AdvanceKeeps slot advance)
    (traceable : Traceable slot s.view) : Keeps slot (emitCurrentStateStatement slot advance) s := by
  unfold Keeps emitCurrentStateStatement
  simp only [wp_bind, wp_get, wp_orFault]
  refine ⟨?_, fun _ _ => traceable⟩
  intro st created
  have stFits := traceable.coreFits.currentStatement created
  simp only [wp_ite, wp_bind, wp_pure, wp_throw, wp_get, wp_set]
  refine ⟨fun _ => ?_, fun _ => traceable⟩
  refine wp_mono (processEnvelope_keeps keeps true stFits traceable) ?_ (fun _ _ kept => kept)
  intro res s₁ traceable₁
  refine ⟨fun _ => ⟨fun remembers => ?_, fun _ => traceable₁⟩, fun _ => traceable₁⟩
  apply sendLatestEnvelope_keeps
  refine ⟨traceable₁.fits, ?_⟩
  intro other said
  rcases said with isLast | sent
  · cases isLast
    exact ⟨s.toBallotCore, traceable.coreFits, (Bool.and_eq_true_iff.mp remembers).1, created⟩
  · exact traceable₁.made other (.inr sent)

/-! ### Bumping -/

theorem bumpStateTo_keeps (keeps : AdvanceKeeps slot advance) (value : Value) {n : Nat}
    (counter : n ≤ UINT32_MAX) (traceable : Traceable slot s.view) :
    Keeps slot (bumpStateTo slot advance value n) s := by
  unfold Keeps bumpStateTo
  simp only [wp_bind, wp_get, wp_ite, wp_pure]
  refine ⟨fun _ => traceable, fun _ => ?_⟩
  refine wp_mono (updateCurrentValue_keeps counter traceable) ?_ (fun _ _ kept => kept)
  intro updated s₁ traceable₁
  refine ⟨fun _ => ?_, fun _ => traceable₁⟩
  refine wp_mono (emitCurrentStateStatement_keeps keeps traceable₁) ?_ (fun _ _ kept => kept)
  intro _ s₂ traceable₂
  exact checkHeardFromQuorum_keeps traceable₂

theorem bumpState_keeps (keeps : AdvanceKeeps slot advance) (value : Value) (force : Bool)
    (traceable : Traceable slot s.view) : Keeps slot (bumpState slot advance value force) s := by
  unfold Keeps bumpState
  simp only [wp_bind, wp_get, wp_ite, wp_pure]
  refine ⟨fun _ => traceable, fun _ => ?_⟩
  apply bumpStateTo_keeps keeps value _ traceable
  cases s.mCurrentBallot with
  | none => exact (by decide : 1 ≤ UINT32_MAX)
  | some current => exact Nat.le_of_lt_succ (Nat.mod_lt _ (Nat.succ_pos _))

theorem abandonBallot_keeps (keeps : AdvanceKeeps slot advance) {n : Nat} (counter : n ≤ UINT32_MAX)
    (traceable : Traceable slot s.view) : Keeps slot (abandonBallot slot advance n) s := by
  unfold Keeps abandonBallot
  simp only [wp_bind, wp_get, wp_ite, wp_pure]
  exact ⟨fun _ => traceable, fun _ => ⟨fun _ => bumpState_keeps keeps _ true traceable,
    fun _ => bumpStateTo_keeps keeps _ counter traceable⟩⟩

omit [DecidableEq Hash] [LinearOrder Value] [OrderBot Value] in
theorem fits_statementBallotCounter {pledges : SCPPledges Hash Value} (fits : pledges.Fits) :
    statementBallotCounter pledges ≤ UINT32_MAX := by
  cases pledges with
  | prepare => exact fits.1
  | confirm => exact fits.1
  | externalize => exact le_rfl

theorem attemptBump_keeps (keeps : AdvanceKeeps slot advance) (traceable : Traceable slot s.view) :
    Keeps slot (attemptBump slot advance) s := by
  unfold Keeps attemptBump
  simp only [wp_bind, wp_get, wp_ite, wp_pure]
  refine ⟨fun _ => traceable, fun _ => ⟨fun _ => traceable, fun _ => ?_⟩⟩
  split
  · exact traceable
  · rename_i n found
    apply abandonBallot_keeps keeps _ traceable
    have member := List.mem_of_find?_eq_some found
    rw [OrderedSet.mem_ofList, List.mem_filter, List.mem_map] at member
    obtain ⟨⟨entry, present, same⟩, _⟩ := member
    rw [← same]
    exact fits_statementBallotCounter (traceable.coreFits.entry present)

theorem bumpLoop_keeps (keeps : AdvanceKeeps slot advance) (fuel : Nat) (didWork : Bool)
    (traceable : Traceable slot s.view) : Keeps slot (bumpLoop slot advance fuel didWork) s := by
  induction fuel generalizing didWork s with
  | zero => exact traceable
  | succ fuel ih =>
      unfold bumpLoop
      apply (attemptBump_keeps keeps traceable).then
      intro bumped s₁ traceable₁
      unfold Keeps
      rw [wp_ite]
      exact ⟨fun _ => ih true traceable₁, fun _ => traceable₁⟩

/-! ### Accepting and confirming `prepare` -/

omit [DecidableEq Hash] [OrderBot Value] in
theorem BallotCore.Fits.setPrepared (fits : core.Fits) {ballot : SCPBallot Value}
    (counter : ballot.counter ≤ UINT32_MAX) : (setPrepared core ballot).1.Fits := by
  have isBallot : ∀ b ∈ some ballot, b.counter ≤ UINT32_MAX := by
    intro b same
    cases same
    exact counter
  unfold SCP.setPrepared
  split
  · rename_i prepared isPrepared
    have wasPrepared : ∀ b ∈ some prepared, b.counter ≤ UINT32_MAX := by
      rw [← isPrepared]
      exact fits.prepared
    split_ifs
    · exact ⟨fits.current, isBallot, wasPrepared, fits.high, fits.commit, fits.latest⟩
    · exact ⟨fits.current, isBallot, fits.prime, fits.high, fits.commit, fits.latest⟩
    · exact ⟨fits.current, fits.prepared, isBallot, fits.high, fits.commit, fits.latest⟩
    · exact fits
    · exact fits
  · exact ⟨fits.current, isBallot, fits.prime, fits.high, fits.commit, fits.latest⟩

theorem setPreparedAccept_keeps (keeps : AdvanceKeeps slot advance) {ballot : SCPBallot Value}
    (counter : ballot.counter ≤ UINT32_MAX) (traceable : Traceable slot s.view) :
    Keeps slot (setPreparedAccept slot advance ballot) s := by
  have fits := traceable.coreFits.setPrepared counter
  have aborted : ∀ core : BallotCore NodeID Hash Value, core.Fits →
      BallotCore.Fits { core with mCommit := none } := by
    intro core coreFits
    refine ⟨coreFits.current, coreFits.prepared, coreFits.prime, coreFits.high, ?_, coreFits.latest⟩
    intro commit absent
    cases absent
  unfold Keeps setPreparedAccept
  simp only [wp_bind, wp_get, wp_set, wp_ite, wp_pure, wp_dbgAssert, wp_modify, wp_callDriver]
  refine ⟨fun _ => ⟨fun _ => ⟨fun _ => ?_, fun _ => ?_⟩, fun _ => ?_⟩, fun _ => ⟨fun _ => ?_,
    fun _ => ?_⟩⟩
  · apply emitCurrentStateStatement_keeps keeps
    exact traceable.update (aborted _ fits) rfl (by simp [BallotState.view, Effect.emitted?])
  · exact traceable.update (aborted _ fits) rfl rfl
  · exact traceable.update fits rfl rfl
  · apply emitCurrentStateStatement_keeps keeps
    exact traceable.update fits rfl (by simp [BallotState.view, Effect.emitted?])
  · exact traceable.update fits rfl rfl

theorem attemptPreparedAccept_keeps (keeps : AdvanceKeeps slot advance)
    {hint : SCPStatement NodeID Hash Value} (hintFits : hint.pledges.Fits)
    (traceable : Traceable slot s.view) :
    Keeps slot (attemptPreparedAccept slot advance hint) s := by
  unfold Keeps attemptPreparedAccept
  simp only [wp_bind, wp_get, wp_ite, wp_pure, wp_orFault]
  refine ⟨fun _ => traceable, fun _ => ⟨?_, fun _ _ => traceable⟩⟩
  intro found result
  have scan := findPreparedAccept_result slot s.toBallotCore
    (getPrepareCandidates s.toBallotCore hint).reverse (OrderedSet.reverse_descending _)
  rw [result] at scan
  cases scan with
  | exhausted passed => exact traceable
  | found ballot member acceptable passed =>
      exact setPreparedAccept_keeps keeps
        (traceable.coreFits.candidates hintFits ballot (List.mem_reverse.mp member)) traceable

theorem setPreparedConfirmed_keeps (keeps : AdvanceKeeps slot advance) {newC newH : SCPBallot Value}
    (commitCounter : newC.counter ≤ UINT32_MAX) (counter : newH.counter ≤ UINT32_MAX)
    (traceable : Traceable slot s.view) :
    Keeps slot (setPreparedConfirmed slot advance newC newH) s := by
  have isH : ∀ high ∈ some newH, high.counter ≤ UINT32_MAX := by
    intro high same
    cases same
    exact counter
  have isC : ∀ commit ∈ some newC, commit.counter ≤ UINT32_MAX := by
    intro commit same
    cases same
    exact commitCounter
  have told : ∀ s₁ : BallotState NodeID Hash Value, s₁.toBallotCore.Fits →
      s₁.mLastEnvelope = s.mLastEnvelope → s₁.view.emitted = s.view.emitted → ∀ didWork : Bool,
        wp (updateCurrentIfNeeded newH) (fun updated s₂ =>
            ((updated || didWork) = true → Keeps slot (emitCurrentStateStatement slot advance) s₂) ∧
              (¬ (updated || didWork) = true → Traceable slot s₂.view))
          (fun _ s₂ => Traceable slot s₂.view) s₁ := by
    intro s₁ fits₁ last emitted didWork
    have traceable₁ := traceable.update fits₁ last emitted
    refine wp_mono (updateCurrentIfNeeded_keeps counter traceable₁) ?_ (fun _ _ kept => kept)
    intro updated s₂ traceable₂
    exact ⟨fun _ => emitCurrentStateStatement_keeps keeps traceable₂, fun _ => traceable₂⟩
  -- What the two ballots are compared with does not matter for their counters.
  have fits := traceable.coreFits
  have overridden : BallotCore.Fits { s.toBallotCore with mValueOverride := some newH.value } :=
    ⟨fits.current, fits.prepared, fits.prime, fits.high, fits.commit, fits.latest⟩
  have raised : BallotCore.Fits { s.toBallotCore with
      mValueOverride := some newH.value, mHighBallot := some newH } :=
    ⟨fits.current, fits.prepared, fits.prime, isH, fits.commit, fits.latest⟩
  have voted : BallotCore.Fits { s.toBallotCore with
      mValueOverride := some newH.value, mCommit := some newC } :=
    ⟨fits.current, fits.prepared, fits.prime, fits.high, isC, fits.latest⟩
  have raisedAndVoted : BallotCore.Fits { s.toBallotCore with
      mValueOverride := some newH.value, mHighBallot := some newH, mCommit := some newC } :=
    ⟨fits.current, fits.prepared, fits.prime, isH, isC, fits.latest⟩
  unfold Keeps setPreparedConfirmed
  simp only [wp_bind, wp_get, wp_callDriver, wp_modify, wp_ite, wp_pure, wp_dbgAssert]
  refine ⟨fun _ => ⟨fun _ => ⟨fun _ => ⟨fun _ => ⟨fun _ => ?_, fun _ => ?_⟩, fun _ => ?_⟩,
    fun _ => ⟨fun _ => ?_, fun _ => ?_⟩⟩, fun _ => ⟨fun _ => ⟨fun _ => ⟨fun _ => ?_, fun _ => ?_⟩,
      fun _ => ?_⟩, fun _ => ⟨fun _ => ?_, fun _ => ?_⟩⟩⟩, fun _ => ?_⟩
  · apply told
    · exact raisedAndVoted
    · rfl
    · simp [BallotState.view, Effect.emitted?]
  · apply told
    · exact raisedAndVoted
    · rfl
    · simp [BallotState.view, Effect.emitted?]
  · exact traceable.update raised rfl (by simp [BallotState.view, Effect.emitted?])
  · apply told
    · exact raised
    · rfl
    · simp [BallotState.view, Effect.emitted?]
  · apply told
    · exact raised
    · rfl
    · simp [BallotState.view, Effect.emitted?]
  · apply told
    · exact voted
    · rfl
    · simp [BallotState.view, Effect.emitted?]
  · apply told
    · exact voted
    · rfl
    · simp [BallotState.view, Effect.emitted?]
  · exact traceable.update overridden rfl (by simp [BallotState.view, Effect.emitted?])
  · apply told
    · exact overridden
    · rfl
    · simp [BallotState.view, Effect.emitted?]
  · apply told
    · exact overridden
    · rfl
    · simp [BallotState.view, Effect.emitted?]
  · apply told
    · exact overridden
    · rfl
    · simp [BallotState.view, Effect.emitted?]

theorem attemptPreparedConfirmed_keeps (keeps : AdvanceKeeps slot advance)
    {hint : SCPStatement NodeID Hash Value} (hintFits : hint.pledges.Fits)
    (traceable : Traceable slot s.view) :
    Keeps slot (attemptPreparedConfirmed slot advance hint) s := by
  unfold Keeps attemptPreparedConfirmed
  simp only [wp_bind, wp_get, wp_ite, wp_pure]
  refine ⟨fun _ => traceable, fun _ => ⟨fun _ => traceable, fun _ => ?_⟩⟩
  split
  · exact traceable
  · rename_i newH cur found
    have candidates : ∀ ballot ∈ (getPrepareCandidates s.toBallotCore hint).reverse,
        ballot.counter ≤ UINT32_MAX := by
      intro ballot member
      exact traceable.coreFits.candidates hintFits ballot (List.mem_reverse.mp member)
    have below : ∀ ballot ∈ cur, ballot.counter ≤ UINT32_MAX := by
      intro ballot member
      exact candidates ballot ((findNewH_suffix found).subset member)
    apply setPreparedConfirmed_keeps keeps _ (candidates newH (findNewH_some found).1) traceable
    split
    · exact fits_findNewC _ newH below (Nat.zero_le _)
    · exact Nat.zero_le _

/-! ### Accepting and confirming `commit` -/

theorem setAcceptCommit_keeps (keeps : AdvanceKeeps slot advance) {c h : SCPBallot Value}
    (commitCounter : c.counter ≤ UINT32_MAX) (counter : h.counter ≤ UINT32_MAX)
    (traceable : Traceable slot s.view) : Keeps slot (setAcceptCommit slot advance c h) s := by
  have isH : ∀ high ∈ some h, high.counter ≤ UINT32_MAX := by
    intro high same
    cases same
    exact counter
  have isC : ∀ commit ∈ some c, commit.counter ≤ UINT32_MAX := by
    intro commit same
    cases same
    exact commitCounter
  have noPrime : ∀ prime ∈ (none : Option (SCPBallot Value)), prime.counter ≤ UINT32_MAX := by
    intro prime absent
    cases absent
  -- Once the ballots are set, the current ballot follows and the state is announced.
  have finish : ∀ s₁ : BallotState NodeID Hash Value, Traceable slot s₁.view →
      (∀ target, s₁.mHighBallot = some target →
        wp (updateCurrentIfNeeded target)
          (fun _ s₂ => Keeps slot (emitCurrentStateStatement slot advance)
            { s₂ with effects := s₂.effects ++ [.acceptedCommit h] })
          (fun _ s₂ => Traceable slot s₂.view) s₁) ∧
        (s₁.mHighBallot = none → Traceable slot s₁.view) := by
    intro s₁ traceable₁
    refine ⟨?_, fun _ => traceable₁⟩
    intro target isHigh
    refine wp_mono (updateCurrentIfNeeded_keeps (traceable₁.coreFits.high target isHigh) traceable₁)
      ?_ (fun _ _ kept => kept)
    intro _ s₂ traceable₂
    apply emitCurrentStateStatement_keeps keeps
    exact traceable₂.update traceable₂.fits rfl (by simp [BallotState.view, Effect.emitted?])
  have bumped : ∀ s₁ : BallotState NodeID Hash Value, Traceable slot s₁.view →
      wp (bumpToBallot h false)
        (fun _ s₂ => Traceable slot ({ s₂ with mPreparedPrime := none } : BallotState NodeID Hash Value).view)
        (fun _ s₂ => Traceable slot s₂.view) s₁ := by
    intro s₁ traceable₁
    refine wp_mono (bumpToBallot_keeps false counter traceable₁) ?_ (fun _ _ kept => kept)
    intro _ s₂ traceable₂
    have fits₂ := traceable₂.coreFits
    exact traceable₂.update ⟨fits₂.current, fits₂.prepared, noPrime, fits₂.high, fits₂.commit,
      fits₂.latest⟩ rfl rfl
  have fits := traceable.coreFits
  unfold Keeps setAcceptCommit
  simp only [wp_bind, wp_get, wp_modify, wp_ite, wp_pure, wp_deref, wp_callDriver]
  refine ⟨fun _ => ⟨fun _ => ⟨fun _ => ?_, fun _ => ?_⟩, fun _ => ?_⟩,
    fun _ => ⟨fun _ => ⟨fun _ => ?_, fun _ => ?_⟩, fun _ => ?_⟩⟩
  · refine wp_mono (bumped _ (traceable.update ?_ rfl rfl)) ?_ (fun _ _ kept => kept)
    · exact ⟨fits.current, fits.prepared, fits.prime, isH, isC, fits.latest⟩
    · intro _ s₂ traceable₂
      exact ⟨fun _ => finish _ traceable₂, fun _ => traceable₂⟩
  · have set : Traceable slot ({ s with
        mValueOverride := some h.value, mCommit := some c, mHighBallot := some h,
        mPhase := .SCP_PHASE_CONFIRM, mPreparedPrime := none } :
        BallotState NodeID Hash Value).view :=
      traceable.update ⟨fits.current, fits.prepared, noPrime, isH, isC, fits.latest⟩ rfl rfl
    exact ⟨fun _ => finish _ set, fun _ => set⟩
  · have set : Traceable slot ({ s with
        mValueOverride := some h.value, mCommit := some c, mHighBallot := some h } :
        BallotState NodeID Hash Value).view :=
      traceable.update ⟨fits.current, fits.prepared, fits.prime, isH, isC, fits.latest⟩ rfl rfl
    exact ⟨fun _ => finish _ set, fun _ => set⟩
  · refine wp_mono (bumped _ (traceable.update ?_ rfl rfl)) ?_ (fun _ _ kept => kept)
    · exact ⟨fits.current, fits.prepared, fits.prime, fits.high, fits.commit, fits.latest⟩
    · intro _ s₂ traceable₂
      exact ⟨fun _ => finish _ traceable₂, fun _ => traceable₂⟩
  · have set : Traceable slot ({ s with
        mValueOverride := some h.value, mPhase := .SCP_PHASE_CONFIRM, mPreparedPrime := none } :
        BallotState NodeID Hash Value).view :=
      traceable.update ⟨fits.current, fits.prepared, noPrime, fits.high, fits.commit, fits.latest⟩ rfl rfl
    exact ⟨fun _ => finish _ set, fun _ => set⟩
  · have set : Traceable slot ({ s with mValueOverride := some h.value } :
        BallotState NodeID Hash Value).view :=
      traceable.update ⟨fits.current, fits.prepared, fits.prime, fits.high, fits.commit, fits.latest⟩ rfl rfl
    exact ⟨fun _ => finish _ set, fun _ => set⟩

theorem attemptAcceptCommit_keeps (keeps : AdvanceKeeps slot advance)
    (hint : SCPStatement NodeID Hash Value) (traceable : Traceable slot s.view) :
    Keeps slot (attemptAcceptCommit slot advance hint) s := by
  unfold Keeps attemptAcceptCommit
  simp only [wp_bind, wp_get, wp_ite, wp_pure]
  refine ⟨fun _ => traceable, fun _ => ?_⟩
  split
  · exact traceable
  · rename_i ballot offered
    have accept : Keeps slot (setAcceptCommit slot advance
        ⟨(findExtendedInterval (fun cur => federatedAccept slot s.mLatestEnvelopes
          (votedCommit ballot cur) (commitPredicate ballot cur)) (0, 0)
          (getCommitBoundariesFromStatements s.toBallotCore ballot).reverse).1, ballot.value⟩
        ⟨(findExtendedInterval (fun cur => federatedAccept slot s.mLatestEnvelopes
          (votedCommit ballot cur) (commitPredicate ballot cur)) (0, 0)
          (getCommitBoundariesFromStatements s.toBallotCore ballot).reverse).2, ballot.value⟩) s := by
      obtain ⟨low, high⟩ := fits_findExtendedInterval
        (fun cur => federatedAccept slot s.mLatestEnvelopes (votedCommit ballot cur)
          (commitPredicate ballot cur))
        (fun boundary member => traceable.coreFits.boundaries ballot boundary
          (List.mem_reverse.mp member)) (0, 0) (Nat.zero_le _) (Nat.zero_le _)
      exact setAcceptCommit_keeps keeps low high traceable
    simp only [wp_bind, wp_ite, wp_deref, wp_pure]
    exact ⟨fun _ => ⟨fun _ _ => ⟨fun _ => traceable, fun _ => ⟨fun _ => traceable,
      fun _ => ⟨fun _ => ⟨fun _ _ => ⟨fun _ => accept, fun _ => traceable⟩, fun _ => traceable⟩,
        fun _ => ⟨fun _ => accept, fun _ => traceable⟩⟩⟩⟩, fun _ => traceable⟩,
      fun _ => ⟨fun _ => traceable, fun _ => ⟨fun _ => traceable, fun _ =>
        ⟨fun _ => ⟨fun _ _ => ⟨fun _ => accept, fun _ => traceable⟩, fun _ => traceable⟩,
          fun _ => ⟨fun _ => accept, fun _ => traceable⟩⟩⟩⟩⟩

theorem setConfirmCommit_keeps (keeps : AdvanceKeeps slot advance) {c h : SCPBallot Value}
    (commitCounter : c.counter ≤ UINT32_MAX) (counter : h.counter ≤ UINT32_MAX)
    (traceable : Traceable slot s.view) : Keeps slot (setConfirmCommit slot advance c h) s := by
  have fits := traceable.coreFits
  have set : Traceable slot ({ s with mCommit := some c, mHighBallot := some h } :
      BallotState NodeID Hash Value).view := by
    refine traceable.update ⟨fits.current, fits.prepared, fits.prime, ?_, ?_, fits.latest⟩ rfl rfl
    · intro high same
      cases same
      exact counter
    · intro commit same
      cases same
      exact commitCounter
  unfold Keeps setConfirmCommit
  simp only [wp_bind, wp_get, wp_modify, wp_pure, wp_deref, wp_callDriver]
  refine wp_mono (updateCurrentIfNeeded_keeps counter set) ?_ (fun _ _ kept => kept)
  intro _ s₁ traceable₁
  have fits₁ := traceable₁.coreFits
  have final : Traceable slot ({ s₁ with mPhase := .SCP_PHASE_EXTERNALIZE } :
      BallotState NodeID Hash Value).view :=
    traceable₁.update ⟨fits₁.current, fits₁.prepared, fits₁.prime, fits₁.high, fits₁.commit,
      fits₁.latest⟩ rfl rfl
  refine wp_mono (emitCurrentStateStatement_keeps keeps final) ?_ (fun _ _ kept => kept)
  intro _ s₂ traceable₂
  refine ⟨fun commit _ => ?_, fun _ => ?_⟩
  · exact traceable₂.update traceable₂.fits rfl
      (by simp [BallotState.view, List.filterMap_cons, Effect.emitted?])
  · exact traceable₂.update traceable₂.fits rfl (by simp [BallotState.view, Effect.emitted?])

theorem attemptConfirmCommit_keeps (keeps : AdvanceKeeps slot advance)
    (hint : SCPStatement NodeID Hash Value) (traceable : Traceable slot s.view) :
    Keeps slot (attemptConfirmCommit slot advance hint) s := by
  unfold Keeps attemptConfirmCommit
  simp only [wp_bind, wp_get, wp_ite, wp_pure]
  refine ⟨fun _ => traceable, fun _ => ?_⟩
  split
  · rename_i high commit ballot _ _ _
    simp only [wp_ite, wp_pure]
    refine ⟨fun _ => traceable, fun _ => ⟨fun _ => traceable, fun _ => ?_⟩⟩
    obtain ⟨low, high⟩ := fits_findExtendedInterval
      (fun cur => federatedRatify slot s.mLatestEnvelopes (commitPredicate ballot cur))
      (fun boundary member => traceable.coreFits.boundaries ballot boundary
        (List.mem_reverse.mp member)) (0, 0) (Nat.zero_le _) (Nat.zero_le _)
    exact setConfirmCommit_keeps keeps low high traceable
  · exact traceable

end Nested

/-! ### Whole calls -/

theorem advanceSlot_keeps (slot : SlotContext NodeID Hash Value) (fuel : Nat) :
    AdvanceKeeps slot (advanceSlot slot fuel) := by
  -- The nested calls are the same function with less fuel.
  induction fuel with
  | zero =>
      intro hint s _ traceable
      exact traceable
  | succ fuel keeps =>
      intro hint s hintFits traceable
      have entered : Traceable slot ({ s with mCurrentMessageLevel := s.mCurrentMessageLevel + 1 } :
          BallotState NodeID Hash Value).view := traceable
      unfold Keeps advanceSlot
      simp only [wp_bind, wp_get, wp_modify, wp_ite, wp_throw, wp_pure]
      refine ⟨fun _ => entered, fun _ => ?_⟩
      refine wp_mono (attemptPreparedAccept_keeps keeps hintFits entered) ?_ (fun _ _ kept => kept)
      intro accepted s₁ traceable₁
      refine wp_mono (attemptPreparedConfirmed_keeps keeps hintFits traceable₁) ?_
        (fun _ _ kept => kept)
      intro confirmed s₂ traceable₂
      refine wp_mono (attemptAcceptCommit_keeps keeps hint traceable₂) ?_ (fun _ _ kept => kept)
      intro committed s₃ traceable₃
      refine wp_mono (attemptConfirmCommit_keeps keeps hint traceable₃) ?_ (fun _ _ kept => kept)
      intro externalized s₄ traceable₄
      refine ⟨fun _ => ?_, fun _ => ⟨fun _ => sendLatestEnvelope_keeps traceable₄,
        fun _ => traceable₄⟩⟩
      refine wp_mono (bumpLoop_keeps keeps _ _ traceable₄) ?_ (fun _ _ kept => kept)
      intro worked s₅ traceable₅
      refine wp_mono (checkHeardFromQuorum_keeps traceable₅) ?_ (fun _ _ kept => kept)
      intro _ s₆ traceable₆
      exact ⟨fun _ => sendLatestEnvelope_keeps traceable₆, fun _ => traceable₆⟩

theorem Call.perform_keeps {call : Call NodeID Hash Value} (fits : call.Fits)
    (traceable : Traceable slot s.view) : Keeps slot (call.perform slot) s := by
  have keeps := advanceSlot_keeps slot MAX_ADVANCE_SLOT_RECURSION
  cases call with
  | processEnvelope st =>
      apply (processEnvelope_keeps keeps false fits traceable).then
      intro _ s₁ traceable₁
      exact traceable₁
  | bumpState value force =>
      apply (bumpState_keeps keeps value force traceable).then
      intro _ s₁ traceable₁
      exact traceable₁
  | bumpStateTo value n =>
      apply (bumpStateTo_keeps keeps value fits traceable).then
      intro _ s₁ traceable₁
      exact traceable₁
  | abandonBallot n =>
      apply (abandonBallot_keeps keeps fits traceable).then
      intro _ s₁ traceable₁
      exact traceable₁

end ViiCore.SCP
