import Mathlib.Order.WithBot
import ViiCore.SCP.BallotRestart
import ViiCore.SCP.CommitIntervals

/-!
What a node says of itself in the ballot protocol.

The statement that a node has recorded of itself is always that of its state. The order of
`isNewerStatement` is the order of `b`, `p`, `p'` and `h` one after the other, and each change that
is announced raises the first of them that it changes; `c` is not part of the order, so what matters
is that `c` never changes alone. So a node never refuses a statement of its own as old, and none of
them is malformed.
-/

namespace ViiCore.SCP

variable {NodeID Hash Value : Type}

/-! ### The order of statements -/

section Progress

variable [LinearOrder Value] [OrderBot Value]

def orBot : Option (SCPBallot Value) → WithBot (SCPBallot Value)
  | none => ⊥
  | some ballot => ballot

omit [OrderBot Value] in
theorem compareOptionalBallots_lt_zero (left right : Option (SCPBallot Value)) :
    compareOptionalBallots left right < 0 ↔ orBot left < orBot right := by
  cases left <;> cases right <;> simp [compareOptionalBallots, orBot, compareBallots_lt_zero]

omit [OrderBot Value] in
theorem compareOptionalBallots_eq_zero (left right : Option (SCPBallot Value)) :
    compareOptionalBallots left right = 0 ↔ orBot left = orBot right := by
  cases left <;> cases right <;> simp [compareOptionalBallots, orBot, compareBallots_eq_zero]

def SCPPledges.progress : SCPPledges Hash Value →
    Nat ×ₗ SCPBallot Value ×ₗ WithBot (SCPBallot Value) ×ₗ WithBot (SCPBallot Value) ×ₗ Nat ×ₗ Nat
  | .prepare _ ballot prepared preparedPrime _ nH =>
      toLex (0, toLex (ballot, toLex (orBot prepared, toLex (orBot preparedPrime, toLex (0, nH)))))
  | .confirm ballot nPrepared _ nH _ =>
      toLex (1, toLex (ballot, toLex (⊥, toLex (⊥, toLex (nPrepared, nH)))))
  | .externalize .. => toLex (2, toLex (⟨0, ⊥⟩, toLex (⊥, toLex (⊥, toLex (0, 0)))))

theorem isNewerPledges_iff (old new : SCPPledges Hash Value) :
    isNewerPledges old new = true ↔ old.progress < new.progress := by
  cases old <;> cases new <;> simp only [isNewerPledges, SCPPledges.progress,
    Prod.Lex.toLex_lt_toLex, compareOptionalBallots_lt_zero, compareOptionalBallots_eq_zero,
    compareBallots_lt_zero, compareBallots_eq_zero, SCPPledges.type, SCPStatementType.toNat]
  all_goals grind

end Progress

/-! ### The statement of a state -/

section Statement

variable [DecidableEq NodeID] [DecidableEq Hash] [LinearOrder Value] [OrderBot Value]

def counterOf (ballot : Option (SCPBallot Value)) : Nat := (ballot.map SCPBallot.counter).getD 0

def BallotCore.pledges (hash : Hash) (core : BallotCore NodeID Hash Value) : SCPPledges Hash Value :=
  match core.mPhase with
  | .SCP_PHASE_PREPARE =>
      .prepare hash (core.mCurrentBallot.getD ⟨0, ⊥⟩) core.mPrepared core.mPreparedPrime
        (counterOf core.mCommit) (counterOf core.mHighBallot)
  | .SCP_PHASE_CONFIRM =>
      .confirm (core.mCurrentBallot.getD ⟨0, ⊥⟩) (counterOf core.mPrepared)
        (counterOf core.mCommit) (counterOf core.mHighBallot) hash
  | .SCP_PHASE_EXTERNALIZE =>
      .externalize (core.mCommit.getD ⟨0, ⊥⟩) (counterOf core.mHighBallot) hash

variable {slot : SlotContext NodeID Hash Value} {call : Call NodeID Hash Value}
  {core changed announced : BallotCore NodeID Hash Value} {st : SCPStatement NodeID Hash Value}
  {confirmations : List (Confirmation Value)} {values : List Value}

omit [DecidableEq NodeID] [DecidableEq Hash] in
theorem currentStatement_pledges (created : currentStatement slot core = .ok st) :
    st = ⟨slot.localNodeID, slot.slotIndex, core.pledges slot.quorumSetHash⟩ := by
  rw [currentStatement_checked
    (PassesCheck.of_invariantsHold (currentStatement_invariants created))] at created
  unfold BallotCore.pledges
  cases phase : core.mPhase with
  | SCP_PHASE_PREPARE =>
      rw [phase] at created
      exact (Except.ok.inj created).symm
  | SCP_PHASE_CONFIRM =>
      simp only [phase] at created
      split at created
      · rename_i current prepared commit high
        rw [current, prepared, commit, high]
        exact (Except.ok.inj created).symm
      · cases created
  | SCP_PHASE_EXTERNALIZE =>
      simp only [phase] at created
      split at created
      · rename_i commit high
        rw [commit, high]
        exact (Except.ok.inj created).symm
      · cases created

/-! ### Changes move forward -/

/-- No accepted ballot on another value is at or above `h` while there is a commit ballot. -/
def Unaborted (core : BallotCore NodeID Hash Value) : Prop :=
  core.mPhase = .SCP_PHASE_PREPARE → abortsCommit core = false

omit [DecidableEq NodeID] [DecidableEq Hash] in
theorem currentBallot_lt {ballot : SCPBallot Value}
    (above : ∀ current ∈ core.mCurrentBallot, current < ballot) (counter : ballot.counter ≠ 0) :
    core.mCurrentBallot.getD ⟨0, ⊥⟩ < ballot := by
  cases found : core.mCurrentBallot with
  | none => exact SCPBallot.lt_iff.mpr (.inl (Nat.pos_of_ne_zero counter))
  | some current => exact above current found

omit [DecidableEq NodeID] [DecidableEq Hash] in
theorem BallotCore.raiseCurrent_cases (h : SCPBallot Value)
    (counter : ∀ current ∈ (core.raiseCurrent h).mCurrentBallot, current.counter ≠ 0) :
    core.raiseCurrent h = core ∨
      core.raiseCurrent h = core.bumpTo h ∧ core.mCurrentBallot.getD ⟨0, ⊥⟩ < h := by
  by_cases below : core.mCurrentBallot.all (fun current => decide (compareBallots current h < 0)) = true
  · have raised : core.raiseCurrent h = core.bumpTo h := if_pos below
    refine .inr ⟨raised, currentBallot_lt ?_ (counter h (by rw [raised]; rfl))⟩
    intro current member
    rw [Option.mem_def.mp member] at below
    exact (compareBallots_lt_zero _ _).mp (of_decide_eq_true below)
  · exact .inl (if_neg below)

omit [DecidableEq NodeID] [DecidableEq Hash] [OrderBot Value] in
theorem setPrepared_rises {ballot : SCPBallot Value} (changes : (setPrepared core ballot).2 = true)
    (abovePrime : ∀ prime ∈ core.mPreparedPrime, prime < ballot) :
    orBot core.mPrepared < orBot (setPrepared core ballot).1.mPrepared ∨
      core.mPrepared = (setPrepared core ballot).1.mPrepared ∧
        orBot core.mPreparedPrime < orBot (setPrepared core ballot).1.mPreparedPrime := by
  unfold setPrepared at changes ⊢
  cases found : core.mPrepared with
  | none => exact .inl (WithBot.bot_lt_coe _)
  | some prepared =>
      simp only [found] at changes ⊢
      by_cases below : compareBallots prepared ballot < 0
      · rw [if_pos below]
        exact .inl (WithBot.coe_lt_coe.mpr ((compareBallots_lt_zero _ _).mp below))
      · rw [if_neg below] at changes ⊢
        split_ifs at changes ⊢
        refine .inr ⟨rfl, ?_⟩
        cases prime : core.mPreparedPrime with
        | none => exact WithBot.bot_lt_coe _
        | some old => exact WithBot.coe_lt_coe.mpr (abovePrime old prime)

omit [DecidableEq NodeID] [DecidableEq Hash] [OrderBot Value] in
theorem BallotCore.confirmPrepared_cases (newC newH : SCPBallot Value)
    (aboveHigh : ∀ high ∈ core.mHighBallot, high < newH) :
    ∃ voted : BallotCore NodeID Hash Value,
      core.confirmPrepared newC newH = voted.raiseCurrent newH ∧
      ((∀ current ∈ core.mCurrentBallot, current.value = newH.value) ∧
          voted = { core with
            mValueOverride := some newH.value
            mHighBallot := some newH
            mCommit := if newC.counter ≠ 0 then some newC else core.mCommit } ∨
        voted = { core with mValueOverride := some newH.value }) := by
  have raises : core.mHighBallot.all (fun high => decide (compareBallots newH high > 0)) = true := by
    cases found : core.mHighBallot with
    | none => rfl
    | some high => simpa [compareBallots_pos] using aboveHigh high found
  unfold confirmPrepared
  refine ⟨_, rfl, ?_⟩
  by_cases compatible : core.mCurrentBallot.all (fun current => areBallotsCompatible current newH) = true
  · rw [if_pos compatible, if_pos raises]
    refine .inl ⟨?_, rfl⟩
    intro current member
    rw [Option.mem_def.mp member] at compatible
    exact (areBallotsCompatible_iff _ _).mp compatible
  · rw [if_neg compatible]
    exact .inr rfl

section

omit [DecidableEq NodeID] [DecidableEq Hash]

theorem progress_of_current (hash : Hash) (same : changed.mPhase = core.mPhase)
    (running : core.mPhase ≠ .SCP_PHASE_EXTERNALIZE)
    (moved : core.mCurrentBallot.getD ⟨0, ⊥⟩ < changed.mCurrentBallot.getD ⟨0, ⊥⟩) :
    (core.pledges hash).progress < (changed.pledges hash).progress := by
  unfold BallotCore.pledges
  rw [same]
  cases phase : core.mPhase with
  | SCP_PHASE_EXTERNALIZE => exact absurd phase running
  | SCP_PHASE_PREPARE =>
      exact Prod.Lex.toLex_lt_toLex.mpr (.inr ⟨rfl, Prod.Lex.toLex_lt_toLex.mpr (.inl moved)⟩)
  | SCP_PHASE_CONFIRM =>
      exact Prod.Lex.toLex_lt_toLex.mpr (.inr ⟨rfl, Prod.Lex.toLex_lt_toLex.mpr (.inl moved)⟩)

theorem progress_of_phase (hash : Hash) (raised : core.mPhase.rank < changed.mPhase.rank) :
    (core.pledges hash).progress < (changed.pledges hash).progress := by
  have first (core : BallotCore NodeID Hash Value) :
      (ofLex (core.pledges hash).progress).1 = core.mPhase.rank := by
    unfold BallotCore.pledges
    cases core.mPhase <;> rfl
  refine Prod.Lex.lt_iff.mpr (.inl ?_)
  rw [first, first]
  exact raised

/-- A confirmed ballot on the node's own value raises `h`; where that is not seen, nothing is. -/
theorem confirmed_progress (coherent : Coherent core) (hash : Hash) {newC newH : SCPBallot Value}
    (preparing : core.mPhase = .SCP_PHASE_PREPARE)
    (aboveHigh : ∀ high ∈ core.mHighBallot, high < newH)
    (compatible : ∀ current ∈ core.mCurrentBallot, current.value = newH.value)
    (below : newC.counter ≠ 0 → newC ≤ newH) {voted : BallotCore NodeID Hash Value}
    (votes : voted = { core with
      mValueOverride := some newH.value
      mHighBallot := some newH
      mCommit := if newC.counter ≠ 0 then some newC else core.mCommit }) :
    core.pledges hash = voted.pledges hash ∨
      (core.pledges hash).progress < (voted.pledges hash).progress := by
  subst votes
  simp only [BallotCore.pledges, preparing]
  by_cases rises : counterOf core.mHighBallot < newH.counter
  · right
    simp only [SCPPledges.progress, Prod.Lex.toLex_lt_toLex, lt_irrefl, true_and, false_or]
    exact rises
  · left
    -- A ballot above `h` on the same value has a larger counter, so there is no `h` and no `c` yet.
    cases found : core.mHighBallot with
    | some high =>
        obtain ⟨current, member, -, same⟩ := coherent.high high found
        have sameValue := same.trans (compatible current member)
        rcases SCPBallot.lt_iff.mp (aboveHigh high found) with larger | ⟨-, larger⟩
        · exact absurd (by rw [found]; exact larger) rises
        · exact absurd sameValue larger.ne
    | none =>
        have uncommitted : core.mCommit = none := by
          cases committed : core.mCommit with
          | none => rfl
          | some commit =>
              obtain ⟨high, member, -⟩ := coherent.commit commit committed
              rw [found] at member
              cases member
        have zero : newH.counter = 0 := by
          rw [found] at rises
          exact Nat.eq_zero_of_not_pos rises
        have unvoted : newC.counter = 0 := by
          by_contra votes
          have := SCPBallot.counter_le (below votes)
          omega
        rw [uncommitted, if_neg (not_not.mpr unvoted)]
        simp [counterOf, zero]

end

omit [DecidableEq Hash] in
theorem Change.progress (made : Change slot call core changed confirmations values)
    (coherent : Coherent core) (later : Coherent changed) (unaborted : Unaborted core) (hash : Hash) :
    core.pledges hash = changed.pledges hash ∨
      (core.pledges hash).progress < (changed.pledges hash).progress := by
  cases made with
  | bump _ ballot running above _ _ _ =>
      exact .inr (progress_of_current hash rfl running
        (currentBallot_lt above (later.counter ballot rfl)))
  | acceptPrepared _ hint ballot running _ confirming abovePrime unprepared _ changes _ =>
      right
      have frame := core.acceptPrepared_eq ballot
      rw [frame]
      unfold BallotCore.pledges
      cases phase : core.mPhase with
      | SCP_PHASE_EXTERNALIZE => exact absurd phase running
      | SCP_PHASE_PREPARE =>
          have changes : (setPrepared core ballot).2 = true := by
            rcases changes with changes | aborts
            · exact changes
            · by_contra unchanged
              rw [setPrepared_unchanged core ballot (by simpa using unchanged), unaborted phase]
                at aborts
              cases aborts
          simp only [SCPPledges.progress, Prod.Lex.toLex_lt_toLex, lt_irrefl, true_and, false_or]
          rcases setPrepared_rises changes abovePrime with higher | ⟨same, higher⟩
          · exact .inl higher
          · exact .inr ⟨congrArg orBot same, .inl higher⟩
      | SCP_PHASE_CONFIRM =>
          obtain ⟨⟨prepared, member, ordered, sameValue⟩, -⟩ := confirming phase
          have larger : prepared.counter < ballot.counter := by
            by_contra small
            have sameBallot := (SCPBallot.le_iff_counter sameValue.symm).mpr (Nat.le_of_not_lt small)
            exact unprepared prepared member ⟨sameBallot, sameValue.symm⟩
          obtain ⟨raised, isRaised, above, -⟩ := setPrepared_prepared core ballot
          simp only [SCPPledges.progress, Prod.Lex.toLex_lt_toLex, lt_irrefl, true_and, false_or]
          left
          rw [Option.mem_def.mp member, isRaised]
          exact larger.trans_le (SCPBallot.counter_le above)
  | confirmPrepared start _ hint newC newH preparing _ _ aboveHigh _ commitVote =>
      obtain ⟨voted, isRaised, votes⟩ := core.confirmPrepared_cases newC newH aboveHigh
      rw [isRaised] at later ⊢
      rcases voted.raiseCurrent_cases newH later.counter with kept | ⟨raised, moved⟩
      · rw [kept]
        rcases votes with ⟨compatible, votes⟩ | votes
        · exact confirmed_progress coherent hash preparing aboveHigh compatible
            (fun counted => (commitVote counted).2.1) votes
        · exact .inl (by rw [votes]; rfl)
      · right
        rw [raised]
        have framed : voted.mCurrentBallot = core.mCurrentBallot ∧ voted.mPhase = core.mPhase := by
          rcases votes with ⟨-, votes⟩ | votes <;> rw [votes] <;> exact ⟨rfl, rfl⟩
        rw [framed.1] at moved
        exact progress_of_current hash framed.2 (by rw [preparing]; decide) moved
  | acceptCommit _ c h running _ _ _ _ extending =>
      right
      cases phase : core.mPhase with
      | SCP_PHASE_EXTERNALIZE => exact absurd phase running
      | SCP_PHASE_PREPARE =>
          apply progress_of_phase
          rw [BallotCore.acceptCommit_phase, if_pos phase, phase]
          decide
      | SCP_PHASE_CONFIRM =>
          obtain ⟨high, member, -, larger⟩ := extending phase
          unfold BallotCore.acceptCommit at later ⊢
          simp only at later ⊢
          rw [if_neg (by rw [phase]; decide)] at later ⊢
          rcases BallotCore.raiseCurrent_cases h later.counter with kept | ⟨raised, moved⟩
          · rw [kept]
            simp only [BallotCore.pledges, phase, SCPPledges.progress, Prod.Lex.toLex_lt_toLex,
              lt_irrefl, true_and, false_or]
            rw [Option.mem_def.mp member]
            exact larger
          · rw [raised]
            exact progress_of_current hash rfl running moved
  | confirmCommit _ c h confirming =>
      refine .inr (progress_of_phase hash ?_)
      rw [confirming]
      exact Nat.lt_succ_self 1

/-! ### What is said is well formed -/

def Bounded (core : BallotCore NodeID Hash Value) : Prop :=
  core.mPhase = .SCP_PHASE_PREPARE →
    ∀ high ∈ core.mHighBallot, ∃ prepared ∈ core.mPrepared, high ≤ prepared

omit [DecidableEq Hash] in
theorem Change.committed (made : Change slot call core changed confirmations values)
    (final : changed.mPhase = .SCP_PHASE_EXTERNALIZE) : counterOf changed.mCommit ≠ 0 := by
  cases made with
  | bump _ _ running => exact absurd final running
  | acceptPrepared _ _ ballot running =>
      rw [core.acceptPrepared_eq] at final
      exact absurd final running
  | confirmPrepared _ _ _ newC newH preparing =>
      rw [BallotCore.confirmPrepared_phase, preparing] at final
      cases final
  | acceptCommit _ c h running =>
      rw [BallotCore.acceptCommit_phase] at final
      split at final
      · cases final
      · exact absurd final running
  | confirmCommit _ c h _ counter =>
      rw [BallotCore.confirmCommit_commit]
      exact counter

omit [DecidableEq NodeID] [DecidableEq Hash] in
theorem Coherent.counters (coherent : Coherent core) :
    (counterOf core.mCommit ≠ 0 → counterOf core.mCommit ≤ counterOf core.mHighBallot) ∧
      (counterOf core.mHighBallot ≤ (core.mCurrentBallot.getD ⟨0, ⊥⟩).counter) := by
  constructor
  · intro counted
    cases found : core.mCommit with
    | none => exact Nat.zero_le _
    | some commit =>
        obtain ⟨high, member, below, -⟩ := coherent.commit commit found
        rw [Option.mem_def.mp member]
        exact SCPBallot.counter_le below
  · cases found : core.mHighBallot with
    | none => exact Nat.zero_le _
    | some high =>
        obtain ⟨current, member, below, -⟩ := coherent.high high found
        rw [Option.mem_def.mp member]
        exact SCPBallot.counter_le below

omit [DecidableEq NodeID] [DecidableEq Hash] in
theorem Coherent.pledgesSane (coherent : Coherent core) (bounded : Bounded core)
    (committed : core.mPhase = .SCP_PHASE_EXTERNALIZE → counterOf core.mCommit ≠ 0) (hash : Hash) :
    arePledgesSane true (core.pledges hash) = true := by
  obtain ⟨low, high⟩ := coherent.counters
  unfold BallotCore.pledges
  have started (running : core.mPhase ≠ .SCP_PHASE_PREPARE) : ∃ commit ∈ core.mCommit,
      ∃ current ∈ core.mCurrentBallot, counterOf core.mCommit ≤ counterOf core.mHighBallot := by
    obtain ⟨commit, found⟩ := Option.isSome_iff_exists.mp (coherent.phase running)
    obtain ⟨top, isTop, below, -⟩ := coherent.commit commit found
    obtain ⟨current, member, -⟩ := coherent.high top isTop
    refine ⟨commit, found, current, member, ?_⟩
    rw [found, Option.mem_def.mp isTop]
    exact SCPBallot.counter_le below
  cases phase : core.mPhase with
  | SCP_PHASE_PREPARE =>
      simp only [arePledgesSane, Bool.true_or, Bool.true_and, Bool.and_eq_true]
      refine ⟨⟨?_, ?_⟩, ?_⟩
      · split
        · rename_i prime prepared isPrime isPrepared
          obtain ⟨other, isOther, below⟩ := coherent.prime prime isPrime
          obtain rfl : prepared = other := Option.some.inj (isPrepared.symm.trans isOther)
          exact (areBallotsLessAndIncompatible_iff _ _).mpr below
        · rfl
      · cases found : core.mHighBallot with
        | none => rfl
        | some top =>
            obtain ⟨prepared, member, below⟩ := bounded phase top found
            rw [Option.mem_def.mp member, Option.any_some, Bool.or_eq_true]
            exact .inr (decide_eq_true (SCPBallot.counter_le below))
      · by_cases counted : counterOf core.mCommit = 0
        · rw [decide_eq_true counted, Bool.true_or]
        · have := low counted
          rw [Bool.or_eq_true]
          exact .inr (decide_eq_true ⟨by omega, high, this⟩)
  | SCP_PHASE_CONFIRM =>
      obtain ⟨commit, -, current, member, ordered⟩ := started (by rw [phase]; decide)
      have positive := coherent.counter current member
      simp only [arePledgesSane, Bool.and_eq_true, decide_eq_true_eq]
      refine ⟨⟨?_, high⟩, ordered⟩
      rw [Option.mem_def.mp member]
      exact Nat.pos_of_ne_zero positive
  | SCP_PHASE_EXTERNALIZE =>
      obtain ⟨commit, member, current, -, ordered⟩ := started (by rw [phase]; decide)
      have positive := committed phase
      rw [Option.mem_def.mp member] at ordered positive ⊢
      simp only [arePledgesSane, Bool.and_eq_true, decide_eq_true_eq]
      exact ⟨Nat.pos_of_ne_zero positive, ordered⟩

/-! ### What is confirmed was accepted -/

section

omit [DecidableEq Hash] [OrderBot Value]

theorem hasPreparedBallot_prepare {hash : Hash} {current ballot : SCPBallot Value}
    {p prime : Option (SCPBallot Value)} {nC nH : Nat} :
    hasPreparedBallot ballot (.prepare hash current p prime nC nH) = true ↔
      ∃ held ∈ p.toList ++ prime.toList, ballot ≤ held ∧ ballot.value = held.value := by
  simp [hasPreparedBallot, Option.any_eq_true, areBallotsLessAndCompatible_iff, or_and_right,
    exists_or]

theorem hasPreparedBallot_below {low high : SCPBallot Value} {pledges : SCPPledges Hash Value}
    (ordered : low ≤ high) (same : low.value = high.value)
    (prepared : hasPreparedBallot high pledges = true) : hasPreparedBallot low pledges = true := by
  cases pledges with
  | prepare =>
      rw [hasPreparedBallot_prepare] at prepared ⊢
      obtain ⟨held, member, above, sameHeld⟩ := prepared
      exact ⟨held, member, ordered.trans above, same.trans sameHeld⟩
  | confirm ballot nPrepared =>
      simp only [hasPreparedBallot, areBallotsLessAndCompatible_iff] at prepared ⊢
      exact ⟨ordered.trans prepared.1, same.trans prepared.2⟩
  | externalize commit =>
      simp only [hasPreparedBallot, areBallotsCompatible_iff] at prepared ⊢
      exact same.trans prepared

theorem top_mem_candidatesBelow {topVote : SCPBallot Value} {pledges : SCPPledges Hash Value}
    (top : topVote ∈ hintBallots pledges) : topVote ∈ candidatesBelow topVote pledges := by
  cases pledges with
  | prepare _ ballot p prime _ _ =>
      exact List.mem_filter.mpr ⟨top, (areBallotsLessAndCompatible_iff _ _).mpr ⟨le_rfl, rfl⟩⟩
  | confirm ballot nPrepared _ _ _ =>
      have same : areBallotsCompatible topVote ballot = true := by
        simp only [hintBallots, List.mem_cons, List.not_mem_nil, or_false] at top
        rcases top with rfl | rfl <;> exact (areBallotsCompatible_iff _ _).mpr rfl
      rw [candidatesBelow, if_pos same]
      exact List.mem_cons_self
  | externalize commit _ _ =>
      rw [hintBallots, List.mem_singleton] at top
      subst top
      simp [candidatesBelow, areBallotsCompatible]

theorem candidatesBelow_below {topVote ballot : SCPBallot Value} {pledges : SCPPledges Hash Value}
    (member : ballot ∈ candidatesBelow topVote pledges) :
    ballot ≤ topVote ∧ ballot.value = topVote.value := by
  cases pledges with
  | prepare => exact (areBallotsLessAndCompatible_iff _ _).mp (List.mem_filter.mp member).2
  | confirm stBallot nPrepared =>
      simp only [candidatesBelow] at member
      split at member
      · rcases List.mem_cons.mp member with rfl | lower
        · exact ⟨le_rfl, rfl⟩
        · split at lower
          · rename_i below
            rw [List.mem_singleton.mp lower]
            exact ⟨SCPBallot.le_iff.mpr (.inl below), rfl⟩
          · cases lower
      · cases member
  | externalize commit =>
      simp only [candidatesBelow] at member
      split at member
      · rw [List.mem_singleton.mp member]
        exact ⟨le_rfl, rfl⟩
      · cases member

/-- A node that has prepared `ballot` has prepared the candidate `top`, or names a lower candidate
that it has prepared. -/
theorem hasPreparedBallot_or_candidate {topVote ballot top : SCPBallot Value}
    {pledges : SCPPledges Hash Value} (prepared : hasPreparedBallot ballot pledges = true)
    (below : top ≤ topVote ∧ top.value = topVote.value) (same : ballot.value = top.value) :
    hasPreparedBallot top pledges = true ∨
      ∃ candidate ∈ candidatesBelow topVote pledges, ballot ≤ candidate ∧
        candidate.value = top.value ∧ candidate ≤ top ∧ hasPreparedBallot candidate pledges = true := by
  -- What the node has prepared is above `top`, or is a candidate.
  have decides (held : SCPBallot Value) (above : ballot ≤ held ∧ ballot.value = held.value) :
      areBallotsLessAndCompatible top held = true ∨
        areBallotsLessAndCompatible held topVote = true ∧ held ≤ top ∧ held.value = top.value := by
    have sameTop := above.2.symm.trans same
    rcases le_total top held with lower | lower
    · exact .inl ((areBallotsLessAndCompatible_iff _ _).mpr ⟨lower, sameTop.symm⟩)
    · exact .inr ⟨(areBallotsLessAndCompatible_iff _ _).mpr
        ⟨lower.trans below.1, sameTop.trans below.2⟩, lower, sameTop⟩
  cases pledges with
  | prepare _ stBallot p prime _ _ =>
      rw [hasPreparedBallot_prepare] at prepared ⊢
      obtain ⟨held, member, above⟩ := prepared
      rcases decides held above with higher | ⟨candidate, lower, sameTop⟩
      · exact .inl ⟨held, member, (areBallotsLessAndCompatible_iff _ _).mp higher⟩
      · exact .inr ⟨held, List.mem_filter.mpr ⟨List.mem_cons_of_mem _ member, candidate⟩, above.1,
          sameTop, lower, hasPreparedBallot_prepare.mpr ⟨held, member, le_rfl, rfl⟩⟩
  | confirm stBallot nPrepared _ _ _ =>
      have above := (areBallotsLessAndCompatible_iff _ _).mp prepared
      by_cases higher : areBallotsLessAndCompatible top ⟨nPrepared, stBallot.value⟩ = true
      · exact .inl higher
      · right
        rcases decides _ above with impossible | ⟨-, lower, sameTop⟩
        · exact absurd impossible higher
        have sameVote : topVote.value = stBallot.value := below.2.symm.trans sameTop.symm
        have fewer : nPrepared < topVote.counter := by
          refine Nat.lt_of_not_le fun many => higher ?_
          rw [areBallotsLessAndCompatible_iff, SCPBallot.le_iff_counter sameTop.symm]
          exact ⟨(SCPBallot.counter_le below.1).trans many, sameTop.symm⟩
        refine ⟨⟨nPrepared, topVote.value⟩, ?_, ?_, below.2.symm, ?_, ?_⟩
        · rw [candidatesBelow, if_pos ((areBallotsCompatible_iff _ _).mpr sameVote), if_pos fewer]
          exact List.mem_cons_of_mem _ (List.mem_singleton_self _)
        · rw [sameVote]
          exact above.1
        · rw [sameVote]
          exact lower
        · exact (areBallotsLessAndCompatible_iff _ _).mpr ⟨(sameVote ▸ le_rfl), sameVote⟩
  | externalize commit _ _ =>
      left
      simp only [hasPreparedBallot, areBallotsCompatible_iff] at prepared ⊢
      exact same.symm.trans prepared

theorem candidate_of_prepared {start : BallotCore NodeID Hash Value}
    {hint : SCPStatement NodeID Hash Value} {topVote ballot : SCPBallot Value}
    (top : topVote ∈ hintBallots hint.pledges)
    (recorded : start.mLatestEnvelopes.lookup hint.nodeID = some hint)
    (below : ballot ≤ topVote) (same : ballot.value = topVote.value) (nodes : List NodeID)
    (prepared : ∀ nodeID ∈ nodes, ∃ st, start.mLatestEnvelopes.lookup nodeID = some st ∧
      hasPreparedBallot ballot st.pledges = true) :
    ∃ candidate ∈ getPrepareCandidates start hint, ballot ≤ candidate ∧
      (candidate ≤ topVote ∧ candidate.value = topVote.value) ∧
      ∀ nodeID ∈ nodes, ∃ st, start.mLatestEnvelopes.lookup nodeID = some st ∧
        hasPreparedBallot candidate st.pledges = true := by
  have named {nodeID : NodeID} {st : SCPStatement NodeID Hash Value} {candidate : SCPBallot Value}
      (found : start.mLatestEnvelopes.lookup nodeID = some st)
      (member : candidate ∈ candidatesBelow topVote st.pledges) :
      candidate ∈ getPrepareCandidates start hint := by
    simp only [getPrepareCandidates, OrderedSet.mem_ofList, List.mem_flatMap, List.mem_reverse]
    exact ⟨topVote, top, ⟨nodeID, st⟩, AList.mem_lookup_iff.mp found, member⟩
  induction nodes with
  | nil =>
      exact ⟨topVote, named recorded (top_mem_candidatesBelow top), below, ⟨le_rfl, rfl⟩,
        fun _ absent => absurd absent List.not_mem_nil⟩
  | cons nodeID rest ih =>
      obtain ⟨candidate, isCandidate, above, under, all⟩ :=
        ih fun other member => prepared other (List.mem_cons_of_mem _ member)
      obtain ⟨st, found, has⟩ := prepared nodeID List.mem_cons_self
      rcases hasPreparedBallot_or_candidate has under (same.trans under.2.symm) with
        higher | ⟨lower, isLower, aboveLower, sameLower, ordered, hasLower⟩
      · exact ⟨candidate, isCandidate, above, under, List.forall_mem_cons.mpr ⟨⟨st, found, higher⟩, all⟩⟩
      · refine ⟨lower, named found isLower, aboveLower, candidatesBelow_below isLower,
          List.forall_mem_cons.mpr ⟨⟨st, found, hasLower⟩, ?_⟩⟩
        intro other member
        obtain ⟨said, isSaid, hasCandidate⟩ := all other member
        exact ⟨said, isSaid, hasPreparedBallot_below ordered sameLower hasCandidate⟩

end

def Told (slot : SlotContext NodeID Hash Value) (core : BallotCore NodeID Hash Value) : Prop :=
  ∀ st, core.mLatestEnvelopes.lookup slot.localNodeID = some st → currentStatement slot core = .ok st

omit [DecidableEq Hash] in
/-- A ballot that is confirmed prepared is not above `p`: it was accepted just before. -/
theorem confirmed_bounded (told : Told slot core) (coherent : Coherent core)
    {start : BallotCore NodeID Hash Value} {hint : SCPStatement NodeID Hash Value}
    {newH : SCPBallot Value} (preparing : core.mPhase = .SCP_PHASE_PREPARE)
    (settled : Settles slot hint start core) (member : newH ∈ getPrepareCandidates core hint)
    (ratified : federatedRatify slot core.mLatestEnvelopes (hasPreparedBallot newH) = true) :
    ∃ prepared ∈ core.mPrepared, newH ≤ prepared := by
  obtain ⟨nodes, supported, slice⟩ := LocalNode.isQuorum_supported ratified
  by_cases own : slot.localNodeID ∈ nodes
  · -- The node itself says that it has prepared the ballot.
    obtain ⟨st, found, has, -⟩ := supported _ own
    rw [currentStatement_pledges (told st found)] at has
    simp only [BallotCore.pledges, preparing, hasPreparedBallot, Bool.or_eq_true,
      Option.any_eq_true, areBallotsLessAndCompatible_iff] at has
    rcases has with ⟨prepared, isPrepared, above, -⟩ | ⟨prime, isPrime, above, -⟩
    · exact ⟨prepared, isPrepared, above⟩
    · obtain ⟨prepared, isPrepared, higher, -⟩ := coherent.prime prime isPrime
      exact ⟨prepared, isPrepared, above.trans higher⟩
  · -- The others said it before, so that a candidate not below the ballot was accepted.
    simp only [getPrepareCandidates, OrderedSet.mem_ofList, List.mem_flatMap, List.mem_reverse]
      at member
    obtain ⟨topVote, top, entry, -, isBelow⟩ := member
    have below := candidatesBelow_below isBelow
    have before (nodeID : NodeID) (inside : nodeID ∈ nodes) :
        start.mLatestEnvelopes.lookup nodeID = core.mLatestEnvelopes.lookup nodeID :=
      (settled.others nodeID fun same => own (same ▸ inside)).symm
    have prepared : ∀ nodeID ∈ nodes, ∃ st, start.mLatestEnvelopes.lookup nodeID = some st ∧
        hasPreparedBallot newH st.pledges = true := by
      intro nodeID inside
      obtain ⟨st, found, has, -⟩ := supported nodeID inside
      exact ⟨st, (before nodeID inside).trans found, has⟩
    obtain ⟨candidate, isCandidate, above, -, all⟩ :=
      candidate_of_prepared top settled.recorded below.1 below.2 nodes prepared
    obtain ⟨held, isHeld, higher⟩ := settled.dominated candidate isCandidate (by
      rw [federatedAccept, Bool.or_eq_true]
      right
      apply LocalNode.isQuorum_of_supported _ slice
      intro nodeID inside
      obtain ⟨st, found, -, resolved⟩ := supported nodeID inside
      obtain ⟨said, isSaid, has⟩ := all nodeID inside
      obtain rfl : st = said :=
        Option.some.inj (found.symm.trans ((before nodeID inside).symm.trans isSaid))
      exact ⟨st, isSaid, by simp only [has, Bool.true_or], resolved⟩)
    exact ⟨held, isHeld, above.trans higher⟩

/-! ### Steps -/

section

omit [DecidableEq NodeID] [DecidableEq Hash] [OrderBot Value]

theorem abortsCommit_eq_false :
    abortsCommit core = false ↔ ∀ commit ∈ core.mCommit, ∀ high ∈ core.mHighBallot,
      (∀ prepared ∈ core.mPrepared, high ≤ prepared → high.value = prepared.value) ∧
      ∀ prime ∈ core.mPreparedPrime, high ≤ prime → high.value = prime.value := by
  unfold abortsCommit
  cases core.mCommit <;> cases core.mHighBallot <;>
    simp [Option.any_eq_false, areBallotsLessAndIncompatible, areBallotsCompatible,
      compareBallots_le_zero]

/-- With `c` and `h` from before, and the same `p` and `p'`, a commit stays unaborted. -/
theorem Unaborted.frame (unaborted : Unaborted core) (phase : changed.mPhase = core.mPhase)
    (prepared : changed.mPrepared = core.mPrepared)
    (prime : changed.mPreparedPrime = core.mPreparedPrime) (commit : changed.mCommit = core.mCommit)
    (high : ∀ high ∈ changed.mHighBallot, high ∈ core.mHighBallot) : Unaborted changed := by
  intro preparing
  have quiet := abortsCommit_eq_false.mp (unaborted (phase ▸ preparing))
  rw [abortsCommit_eq_false, prepared, prime, commit]
  exact fun held isHeld top isTop => quiet held isHeld top (high top isTop)

theorem bumpTo_high {ballot high : SCPBallot Value} (member : high ∈ (core.bumpTo ballot).mHighBallot) :
    high ∈ core.mHighBallot :=
  (Option.filter_eq_some_iff.mp member).1

theorem raiseCurrent_highBallot {h high : SCPBallot Value}
    (member : high ∈ (core.raiseCurrent h).mHighBallot) : high ∈ core.mHighBallot := by
  unfold BallotCore.raiseCurrent at member
  split at member
  · exact bumpTo_high member
  · exact member

theorem acceptCommit_prepares {c h : SCPBallot Value} :
    (core.acceptCommit c h).mPhase ≠ .SCP_PHASE_PREPARE := by
  rw [BallotCore.acceptCommit_phase]
  split
  · exact SCPPhase.noConfusion
  · assumption

end

section

omit [DecidableEq Hash]

theorem Change.unaborted (made : Change slot call core changed confirmations values)
    (coherent : Coherent core) (unaborted : Unaborted core) : Unaborted changed := by
  cases made with
  | bump _ ballot => exact unaborted.frame rfl rfl rfl rfl fun high member => bumpTo_high member
  | acceptPrepared _ hint ballot =>
      intro _
      unfold BallotCore.acceptPrepared
      dsimp only
      split
      · unfold abortsCommit
        rfl
      · rename_i stays
        simpa using stays
  | confirmPrepared _ _ _ newC newH preparing _ _ aboveHigh _ commitVote =>
      obtain ⟨voted, isRaised, votes⟩ := core.confirmPrepared_cases newC newH aboveHigh
      rw [isRaised]
      suffices quiet : Unaborted voted from
        quiet.frame (by simp) (by simp) (by simp) (by simp) fun high => raiseCurrent_highBallot
      rcases votes with ⟨compatible, rfl⟩ | rfl
      · intro _
        rw [abortsCommit_eq_false]
        intro commit member high isHigh
        cases isHigh
        dsimp only at member ⊢
        split at member
        · -- The node votes for `newC` only where no such ballot is accepted.
          rename_i votes
          obtain ⟨may, -⟩ := commitVote votes
          unfold mayVoteCommit at may
          simp only [Bool.and_eq_true, Option.all_eq_true, Bool.not_eq_true'] at may
          have settles {ballot : SCPBallot Value}
              (stays : areBallotsLessAndIncompatible newH ballot = false) (below : newH ≤ ballot) :
              newH.value = ballot.value := by
            by_contra different
            rw [(areBallotsLessAndIncompatible_iff _ _).mpr ⟨below, different⟩] at stays
            cases stays
          exact ⟨fun prepared isPrepared => settles (may.1.2 prepared isPrepared),
            fun prime isPrime => settles (may.2 prime isPrime)⟩
        · -- `newH` is above `h` on the same value.
          obtain ⟨high, isHigh, -⟩ := coherent.commit commit member
          obtain ⟨current, isCurrent, -, same⟩ := coherent.high high isHigh
          have sameValue : high.value = newH.value := same.trans (compatible current isCurrent)
          have lower := (aboveHigh high isHigh).le
          obtain ⟨prepared, prime⟩ :=
            abortsCommit_eq_false.mp (unaborted preparing) commit member high isHigh
          rw [sameValue] at prepared prime
          exact ⟨fun ballot isBallot below => prepared ballot isBallot (lower.trans below),
            fun ballot isBallot below => prime ballot isBallot (lower.trans below)⟩
      · exact unaborted.frame rfl rfl rfl rfl fun high member => member
  | acceptCommit => exact fun preparing => absurd preparing acceptCommit_prepares
  | confirmCommit =>
      intro preparing
      cases preparing

theorem Change.bounded (made : Change slot call core changed confirmations values)
    (told : Told slot core) (coherent : Coherent core) (bounded : Bounded core) : Bounded changed := by
  cases made with
  | bump _ ballot => exact fun preparing high member => bounded preparing high (bumpTo_high member)
  | acceptPrepared _ hint ballot =>
      rw [core.acceptPrepared_eq]
      intro preparing high member
      obtain ⟨prepared, isPrepared, below⟩ := bounded preparing high member
      obtain ⟨raised, isRaised, -, above⟩ := setPrepared_prepared core ballot
      exact ⟨raised, isRaised, below.trans (above prepared isPrepared)⟩
  | confirmPrepared start _ hint newC newH preparing settled candidate aboveHigh ratified =>
      obtain ⟨voted, isRaised, votes⟩ := core.confirmPrepared_cases newC newH aboveHigh
      rw [isRaised]
      intro _ high member
      rw [BallotCore.raiseCurrent_prepared]
      have isHigh := raiseCurrent_highBallot member
      rcases votes with ⟨-, rfl⟩ | rfl
      · cases isHigh
        exact confirmed_bounded told coherent preparing settled candidate ratified
      · exact bounded preparing high isHigh
  | acceptCommit => exact fun preparing => absurd preparing acceptCommit_prepares
  | confirmCommit =>
      intro preparing
      cases preparing

structure Voiced (slot : SlotContext NodeID Hash Value) (core : BallotCore NodeID Hash Value) :
    Prop where
  told : Told slot core
  unaborted : Unaborted core
  bounded : Bounded core

/-- A statement on the current state is newer than the one the node has recorded of itself, and it
is well formed. -/
structure Speaks (slot : SlotContext NodeID Hash Value) (core : BallotCore NodeID Hash Value)
    (st : SCPStatement NodeID Hash Value) : Prop where
  sane : ∀ qSet, slot.getQSet slot.quorumSetHash = some qSet → isQuorumSetSane qSet false = true →
    isStatementSane slot st true = true
  known : ∀ old, core.mLatestEnvelopes.lookup slot.localNodeID = some old →
    old = st ∨ isNewerPledges old.pledges st.pledges = true

theorem Change.speaks (made : Change slot call core changed confirmations values)
    (coherent : Coherent core) (voiced : Voiced slot core)
    (created : currentStatement slot changed = .ok st) : Speaks slot changed st := by
  have later := Coherent.of_invariantsHold (currentStatement_invariants created)
    (made.primed coherent)
  have said := currentStatement_pledges created
  constructor
  · intro qSet resolved setSane
    have pledgesSane := later.pledgesSane (made.bounded voiced.told coherent voiced.bounded)
      made.committed slot.quorumSetHash
    have resolves : ∃ set, getQuorumSetFromStatement slot st = some set ∧
        isQuorumSetSane set false = true := by
      rw [said]
      unfold getQuorumSetFromStatement BallotCore.pledges
      cases changed.mPhase with
      | SCP_PHASE_EXTERNALIZE => exact ⟨_, rfl, buildSingletonQSet_sane _⟩
      | _ => exact ⟨qSet, resolved, setSane⟩
    obtain ⟨set, found, isSane⟩ := resolves
    unfold isStatementSane
    rw [found]
    dsimp only
    rw [isSane, said, pledgesSane]
    rfl
  · intro old recorded
    rw [made.latest] at recorded
    rw [currentStatement_pledges (voiced.told old recorded), said, isNewerPledges_iff]
    rcases made.progress coherent later voiced.unaborted slot.quorumSetHash with same | further
    · exact .inl (by rw [same])
    · exact .inr further

end

variable {view next : BallotView NodeID Hash Value}

omit [DecidableEq Hash] in
theorem Step.voiced (step : Step slot call view next) (coherent : Coherent view.core)
    (voiced : Voiced slot view.core) : Voiced slot next.core := by
  cases step with
  | change changed announced _ _ made told =>
      have unaborted := made.unaborted coherent voiced.unaborted
      have bounded := made.bounded voiced.told coherent voiced.bounded
      cases told with
      | already st created known =>
          refine ⟨fun other found => ?_, unaborted, bounded⟩
          rw [← Option.some.inj (known.symm.trans found)]
          exact created
      | record st created accepted =>
          refine ⟨fun other found => ?_, unaborted, bounded⟩
          rw [AList.lookup_insert] at found
          rw [← Option.some.inj found]
          exact created
  | override => exact ⟨voiced.told, voiced.unaborted, voiced.bounded⟩
  | remember => exact voiced
  | emit => exact voiced

/-! ### Runs -/

variable {node : SlotContext NodeID Hash Value} {event : Event NodeID Hash Value}

/-- A call on the same slot of the same node, which knows its own quorum set. A statement of the
node itself is not received: `recvSCPEnvelope` skips those. -/
structure Belongs (node : SlotContext NodeID Hash Value) (event : Event NodeID Hash Value) : Prop where
  same : SameNode node event.slot
  resolved : ∃ qSet, event.slot.getQSet event.slot.quorumSetHash = some qSet ∧
    isQuorumSetSane qSet false = true
  foreign : ∀ st, event.call = .processEnvelope st → st.nodeID ≠ node.localNodeID

omit [DecidableEq Hash] in
theorem SameNode.voiced_iff (same : SameNode node slot) : Voiced slot core ↔ Voiced node core := by
  have told : Told slot core ↔ Told node core := by
    unfold Told currentStatement
    rw [same.localNodeID]
    simp only [same.createStatement]
  exact ⟨fun voiced => ⟨told.mp voiced.told, voiced.unaborted, voiced.bounded⟩,
    fun voiced => ⟨told.mpr voiced.told, voiced.unaborted, voiced.bounded⟩⟩

omit [DecidableEq Hash] [OrderBot Value] in
theorem Belongs.received (belongs : Belongs node event) {received : BallotView NodeID Hash Value}
    (from_ : Received event.slot event.call view received) :
    ∃ latest, received.core = { view.core with mLatestEnvelopes := latest } ∧
      latest.lookup node.localNodeID = view.core.mLatestEnvelopes.lookup node.localNodeID := by
  rcases from_ with rfl | ⟨st, isCall, -, rfl⟩
  · exact ⟨_, rfl, rfl⟩
  · exact ⟨_, rfl, AList.lookup_insert_ne (belongs.foreign st isCall).symm⟩

section

omit [DecidableEq Hash]

theorem Belongs.received_voiced (belongs : Belongs node event)
    {received : BallotView NodeID Hash Value}
    (from_ : Received event.slot event.call view received) (voiced : Voiced node view.core) :
    Voiced node received.core := by
  obtain ⟨latest, same, own⟩ := belongs.received from_
  rw [same]
  refine ⟨fun st found => voiced.told st ?_, voiced.unaborted, voiced.bounded⟩
  rw [← own]
  exact found

theorem Belongs.step_voiced (belongs : Belongs node event)
    (step : Step event.slot event.call view next) (coherent : Coherent view.core)
    (voiced : Voiced node view.core) : Voiced node next.core :=
  belongs.same.voiced_iff.mp (step.voiced coherent (belongs.same.voiced_iff.mpr voiced))

theorem initial_voiced (isValidator : Bool) :
    Voiced node (BallotState.initial isValidator : BallotState NodeID Hash Value).view.core where
  told _ found := by cases found
  unaborted _ := rfl
  bounded _ _ member := by cases member

end

theorem run_voiced (isValidator : Bool) (events : List (Event NodeID Hash Value))
    (belongs : ∀ event ∈ events, Belongs node event) :
    ((run isValidator events).fault = none ∧
        Voiced node (run isValidator events).state.toBallotCore) ∨
      ∃ event ∈ events, ∃ failure received, (run isValidator events).fault = some failure ∧
        Coherent received.core ∧ Voiced node received.core ∧
        Fails event.slot event.call failure received (run isValidator events).state.view := by
  rcases runFrom_invariant (P := fun view => Voiced node view.core) events
      (BallotState.initial isValidator)
      (fun event member _ _ from_ voiced => (belongs event member).received_voiced from_ voiced)
      (fun event member _ _ step coherent voiced =>
        (belongs event member).step_voiced step coherent voiced)
      (BallotState.initial_coherent isValidator) (initial_voiced isValidator) with
    ⟨completed, -, voiced⟩ | stopped
  · exact .inl ⟨completed, voiced⟩
  · exact .inr stopped

/-- In every run what the node has recorded of itself is the statement of its state; and where it
does not take its own statement, that statement was well formed and newer, but the driver calls one
of its values invalid. -/
theorem run_speaks (node : SlotContext NodeID Hash Value) (isValidator : Bool)
    (events : List (Event NodeID Hash Value)) (belongs : ∀ event ∈ events, Belongs node event) :
    ((run isValidator events).fault = none → Told node (run isValidator events).state.toBallotCore) ∧
    ((run isValidator events).fault = some .movedToBadState → ∃ event ∈ events, ∃ st,
      currentStatement event.slot (run isValidator events).state.toBallotCore = .ok st ∧
      isStatementSane event.slot st true = true ∧
      isNewerStatement (run isValidator events).state.toBallotCore node.localNodeID st = true ∧
      validateValues event.slot st.pledges = .kInvalidValue) := by
  rcases run_voiced isValidator events belongs with
    ⟨completed, voiced⟩ | ⟨event, member, failure, received, faulted, coherent, voiced, fails⟩
  · refine ⟨fun _ => voiced.told, fun refused => ?_⟩
    rw [completed] at refused
    cases refused
  · constructor
    · intro completed
      rw [faulted] at completed
      cases completed
    · intro refused
      rw [faulted] at refused
      obtain ⟨reached, path, -, -, -, moved⟩ := fails
      obtain ⟨confirmations, values, st, made, -, created, unknown, rejected⟩ :=
        moved (Option.some.inj refused)
      have ofEvent := belongs event member
      obtain ⟨qSet, resolved, setSane⟩ := ofEvent.resolved
      have before : Coherent reached.core ∧ Voiced node reached.core := by
        clear made moved unknown rejected created
        induction path with
        | refl => exact ⟨coherent, voiced⟩
        | tail _ step ih => exact ⟨step.coherent ih.1, ofEvent.step_voiced step ih.1 ih.2⟩
      have speaks := made.speaks before.1 (ofEvent.same.voiced_iff.mpr before.2) created
      have sane := speaks.sane qSet resolved setSane
      have newer : isNewerStatement (run isValidator events).state.toBallotCore
          event.slot.localNodeID st = true := by
        unfold isNewerStatement
        split
        · rfl
        · rename_i old recorded
          exact (speaks.known old recorded).resolve_left fun same => unknown (same ▸ recorded)
      refine ⟨event, member, st, created, sane, ofEvent.same.localNodeID ▸ newer, ?_⟩
      by_contra valid
      refine rejected ⟨sane, newer, valid, fun final => ?_⟩
      -- An EXTERNALIZE statement names the commit ballot.
      have final' : (run isValidator events).state.mPhase = .SCP_PHASE_EXTERNALIZE := final
      have later := Coherent.of_invariantsHold (currentStatement_invariants created)
        (made.primed before.1)
      obtain ⟨commit, isCommit⟩ := Option.isSome_iff_exists.mp (later.phase (by rw [final]; decide))
      refine ⟨commit, isCommit, ?_⟩
      rw [currentStatement_pledges created]
      unfold BallotCore.pledges
      rw [final, isCommit]
      rfl

theorem belongs_externalizesWithPeers : ∀ event ∈ externalizesWithPeers,
    Belongs threePeerSlot event := by
  have sane : ∃ qSet, threePeerSlot.getQSet threePeerSlot.quorumSetHash = some qSet ∧
      isQuorumSetSane qSet false = true := ⟨threePeers, rfl, by decide⟩
  intro event member
  simp only [externalizesWithPeers, votesToCommit, hears, List.cons_append, List.nil_append,
    List.mem_cons, List.not_mem_nil, or_false] at member
  rcases member with rfl | rfl | rfl | rfl | rfl <;>
    refine ⟨⟨rfl, rfl, rfl⟩, sane, fun st isCall => ?_⟩ <;> cases isCall <;> decide

theorem run_speaks_externalizesWithPeers :
    (∃ st, (run true externalizesWithPeers).state.mLatestEnvelopes.lookup 0 = some st) ∧
      Told threePeerSlot (run true externalizesWithPeers).state.toBallotCore := by
  refine ⟨Option.isSome_iff_exists.mp (by decide +kernel), ?_⟩
  exact (run_speaks threePeerSlot true externalizesWithPeers belongs_externalizesWithPeers).1
    (by decide +kernel)

end Statement

end ViiCore.SCP
