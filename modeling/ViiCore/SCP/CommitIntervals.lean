import Mathlib.Data.Finset.Max
import ViiCore.SCP.BallotProtocol
import ViiCore.SCP.Blocking

/-!
The search for an interval of counters to commit (`findExtendedInterval`) is exact.

A statement backs an interval from its lower end on, and up to its upper end where it has one. So a
counter that enough statements back can be moved down to the greatest of their lower ends, which is
one of the boundaries that the search tries. The search takes 0 for "nothing found"; statements that
say nothing of a counter 0 are what makes it exact.
-/

namespace ViiCore.SCP

/-! ### The scan over the boundaries -/

section Scan

def ClosedUnderSubIntervals (pred : Nat × Nat → Bool) : Prop :=
  ∀ low high inner outer, low ≤ inner → inner ≤ outer → outer ≤ high →
    pred (low, high) = true → pred (inner, outer) = true

/-- The greatest boundary that passes alone, and the least one from which all up to there passes. -/
structure Extended (pred : Nat × Nat → Bool) (boundaries : List Nat) (found : Nat × Nat) : Prop where
  upper : found.2 ∈ boundaries ∧ pred (found.2, found.2) = true
  greatest : ∀ b ∈ boundaries, pred (b, b) = true → b ≤ found.2
  lower : found.1 ∈ boundaries ∧ pred (found.1, found.2) = true
  least : ∀ b ∈ boundaries, pred (b, found.2) = true → found.1 ≤ b

variable {pred : Nat × Nat → Bool} (closed : ClosedUnderSubIntervals pred)
  (positive : ∀ high, pred (0, high) = false)

include closed positive in
theorem findExtendedInterval_lower (candidate : Nat × Nat) {rest : List Nat}
    (descending : rest.Pairwise (· > ·)) (below : ∀ b ∈ rest, b < candidate.1)
    (ordered : candidate.1 ≤ candidate.2) (passes : pred candidate = true) :
    (findExtendedInterval pred candidate rest).2 = candidate.2 ∧
      pred (findExtendedInterval pred candidate rest) = true ∧
      ((findExtendedInterval pred candidate rest).1 = candidate.1 ∨
        (findExtendedInterval pred candidate rest).1 ∈ rest) ∧
      (findExtendedInterval pred candidate rest).1 ≤ candidate.1 ∧
      ∀ b ∈ rest, pred (b, candidate.2) = true →
        (findExtendedInterval pred candidate rest).1 ≤ b := by
  induction rest generalizing candidate with
  | nil =>
      refine ⟨rfl, passes, .inl rfl, le_rfl, ?_⟩
      intro b absent
      cases absent
  | cons b rest ih =>
      obtain ⟨first, later⟩ := List.pairwise_cons.mp descending
      have nonzero : candidate.1 ≠ 0 := by
        intro zero
        have refused := positive candidate.2
        rw [← zero, passes] at refused
        cases refused
      have under := below b List.mem_cons_self
      rw [findExtendedInterval, if_neg nonzero, if_neg (by omega)]
      by_cases extends_ : pred (b, candidate.2) = true
      · rw [if_pos extends_]
        obtain ⟨upper, holds, place, bound, least⟩ :=
          ih (b, candidate.2) later (fun other member => first other member) (by simp only; omega)
            extends_
        refine ⟨upper, holds, ?_, ?_, ?_⟩
        · rcases place with same | member
          · exact .inr (same ▸ List.mem_cons_self)
          · exact .inr (List.mem_cons_of_mem b member)
        · simp only at bound
          omega
        · intro other member holdsThere
          rcases List.mem_cons.mp member with rfl | inRest
          · exact bound
          · exact least other inRest holdsThere
      · rw [if_neg extends_]
        refine ⟨rfl, passes, .inl rfl, le_rfl, ?_⟩
        intro other member holdsThere
        -- What fails at a boundary fails from any lower one on.
        rcases List.mem_cons.mp member with rfl | inRest
        · exact absurd holdsThere extends_
        · have lower := first other inRest
          exact absurd (closed other candidate.2 b candidate.2 (by omega) (by omega) le_rfl
            holdsThere) extends_

include closed positive in
theorem findExtendedInterval_extended {boundaries : List Nat}
    (descending : boundaries.Pairwise (· > ·))
    (some_ : ∃ b ∈ boundaries, pred (b, b) = true) :
    Extended pred boundaries (findExtendedInterval pred (0, 0) boundaries) := by
  induction boundaries with
  | nil =>
      obtain ⟨b, absent, -⟩ := some_
      cases absent
  | cons b rest ih =>
      obtain ⟨first, later⟩ := List.pairwise_cons.mp descending
      rw [findExtendedInterval, if_pos rfl]
      by_cases single : pred (b, b) = true
      · rw [if_pos single]
        obtain ⟨upper, holds, place, bound, least⟩ :=
          findExtendedInterval_lower closed positive (b, b) later first le_rfl single
        generalize findExtendedInterval pred (b, b) rest = found at *
        obtain ⟨low, high⟩ := found
        simp only at upper place bound least
        subst high
        refine ⟨⟨List.mem_cons_self, single⟩, ?_, ⟨?_, holds⟩, ?_⟩
        · intro other member _
          rcases List.mem_cons.mp member with rfl | inRest
          · exact le_rfl
          · exact (first other inRest).le
        · rcases place with same | member
          · exact same ▸ List.mem_cons_self
          · exact List.mem_cons_of_mem b member
        · intro other member holdsThere
          rcases List.mem_cons.mp member with rfl | inRest
          · exact bound
          · exact least other inRest holdsThere
      · rw [if_neg single]
        have there : ∃ other ∈ rest, pred (other, other) = true := by
          obtain ⟨other, member, holds⟩ := some_
          rcases List.mem_cons.mp member with rfl | inRest
          · exact absurd holds single
          · exact ⟨other, inRest, holds⟩
        obtain ⟨upper, greatest, lower, least⟩ := ih later there
        refine ⟨⟨List.mem_cons_of_mem b upper.1, upper.2⟩, ?_,
          ⟨List.mem_cons_of_mem b lower.1, lower.2⟩, ?_⟩
        · intro other member holds
          rcases List.mem_cons.mp member with rfl | inRest
          · exact absurd holds single
          · exact greatest other inRest holds
        · intro other member holds
          rcases List.mem_cons.mp member with rfl | inRest
          · exact (first _ lower.1).le
          · exact least other inRest holds

omit closed positive in
theorem findExtendedInterval_none {boundaries : List Nat}
    (none_ : ∀ b ∈ boundaries, pred (b, b) = false) :
    findExtendedInterval pred (0, 0) boundaries = (0, 0) := by
  induction boundaries with
  | nil => rfl
  | cons b rest ih =>
      rw [findExtendedInterval, if_pos rfl, none_ b List.mem_cons_self]
      exact ih fun other member => none_ other (List.mem_cons_of_mem b member)

end Scan

variable {NodeID Hash Value : Type} [LinearOrder Value]

/-! ### Statements that back an interval -/

def commitFrom (ballot : SCPBallot Value) : SCPPledges Hash Value → Option Nat
  | .prepare _ stBallot _ _ nC _ =>
      if areBallotsCompatible ballot stBallot && decide (nC ≠ 0) then some nC else none
  | .confirm stBallot _ nCommit _ _ =>
      if areBallotsCompatible ballot stBallot then some nCommit else none
  | .externalize commit .. =>
      if areBallotsCompatible ballot commit then some commit.counter else none

theorem commitFrom_boundary {ballot : SCPBallot Value} {pledges : SCPPledges Hash Value}
    {low : Nat} (starts : commitFrom ballot pledges = some low) :
    low ∈ commitBoundaries ballot pledges := by
  cases pledges with
  | prepare quorumSetHash stBallot prepared prime nC nH =>
      obtain ⟨holds, same⟩ := Option.ite_none_right_eq_some.mp starts
      cases same
      rw [commitBoundaries, if_pos holds]
      exact List.mem_cons_self
  | confirm stBallot nPrepared nCommit nH quorumSetHash =>
      obtain ⟨holds, same⟩ := Option.ite_none_right_eq_some.mp starts
      cases same
      rw [commitBoundaries, if_pos holds]
      exact List.mem_cons_self
  | externalize commit nH quorumSetHash =>
      obtain ⟨holds, same⟩ := Option.ite_none_right_eq_some.mp starts
      cases same
      rw [commitBoundaries, if_pos holds]
      exact List.mem_cons_self

/-- A test of statements that asks for intervals from the lower end on. -/
structure Backs (ballot : SCPBallot Value) (test : Nat × Nat → SCPPledges Hash Value → Bool) :
    Prop where
  starts : ∀ low high pledges, test (low, high) pledges = true →
    ∃ start, commitFrom ballot pledges = some start ∧ start ≤ low
  narrows : ∀ low high inner outer pledges start, test (low, high) pledges = true →
    commitFrom ballot pledges = some start → start ≤ inner → outer ≤ high →
      test (inner, outer) pledges = true

theorem commitPredicate_backs (ballot : SCPBallot Value) :
    Backs ballot (commitPredicate ballot : Nat × Nat → SCPPledges Hash Value → Bool) where
  starts low high pledges holds := by
    cases pledges with
    | prepare quorumSetHash stBallot prepared prime nC nH => cases holds
    | confirm stBallot nPrepared nCommit nH quorumSetHash =>
        simp only [commitPredicate, Bool.and_eq_true, decide_eq_true_eq] at holds
        exact ⟨nCommit, if_pos holds.1, holds.2.1⟩
    | externalize commit nH quorumSetHash =>
        simp only [commitPredicate, Bool.and_eq_true, decide_eq_true_eq] at holds
        exact ⟨commit.counter, if_pos holds.1, holds.2⟩
  narrows low high inner outer pledges start holds starts above under := by
    cases pledges with
    | prepare quorumSetHash stBallot prepared prime nC nH => cases holds
    | confirm stBallot nPrepared nCommit nH quorumSetHash =>
        simp only [commitPredicate, Bool.and_eq_true, decide_eq_true_eq] at holds ⊢
        simp only [commitFrom, if_pos holds.1, Option.some.injEq] at starts
        refine ⟨holds.1, ?_, ?_⟩ <;> omega
    | externalize commit nH quorumSetHash =>
        simp only [commitPredicate, Bool.and_eq_true, decide_eq_true_eq] at holds ⊢
        simp only [commitFrom, if_pos holds.1, Option.some.injEq] at starts
        refine ⟨holds.1, ?_⟩
        omega

theorem votedCommit_backs (ballot : SCPBallot Value) :
    Backs ballot (votedCommit ballot : Nat × Nat → SCPPledges Hash Value → Bool) where
  starts low high pledges holds := by
    cases pledges with
    | prepare quorumSetHash stBallot prepared prime nC nH =>
        simp only [votedCommit, Bool.and_eq_true] at holds
        have within := of_decide_eq_true holds.2
        exact ⟨nC, if_pos (Bool.and_eq_true_iff.mpr holds.1), within.1⟩
    | confirm stBallot nPrepared nCommit nH quorumSetHash =>
        simp only [votedCommit, Bool.and_eq_true, decide_eq_true_eq] at holds
        exact ⟨nCommit, if_pos holds.1, holds.2⟩
    | externalize commit nH quorumSetHash =>
        simp only [votedCommit, Bool.and_eq_true, decide_eq_true_eq] at holds
        exact ⟨commit.counter, if_pos holds.1, holds.2⟩
  narrows low high inner outer pledges start holds starts above under := by
    cases pledges with
    | prepare quorumSetHash stBallot prepared prime nC nH =>
        simp only [votedCommit, Bool.and_eq_true] at holds ⊢
        have within : nC ≤ low ∧ high ≤ nH := of_decide_eq_true holds.2
        simp only [commitFrom, if_pos (Bool.and_eq_true_iff.mpr holds.1),
          Option.some.injEq] at starts
        exact ⟨holds.1, decide_eq_true ⟨by omega, by omega⟩⟩
    | confirm stBallot nPrepared nCommit nH quorumSetHash =>
        simp only [votedCommit, Bool.and_eq_true, decide_eq_true_eq] at holds ⊢
        simp only [commitFrom, if_pos holds.1, Option.some.injEq] at starts
        refine ⟨holds.1, ?_⟩
        omega
    | externalize commit nH quorumSetHash =>
        simp only [votedCommit, Bool.and_eq_true, decide_eq_true_eq] at holds ⊢
        simp only [commitFrom, if_pos holds.1, Option.some.injEq] at starts
        refine ⟨holds.1, ?_⟩
        omega

/-! ### Federated voting on intervals -/

section Voting

variable [DecidableEq NodeID] {slot : SlotContext NodeID Hash Value}
  {envs : EnvelopeMap NodeID Hash Value} {ballot : SCPBallot Value}

section

omit [LinearOrder Value]

theorem federatedRatify_mono {voted voted' : SCPPledges Hash Value → Bool}
    (implies : ∀ nodeID st, envs.lookup nodeID = some st → voted st.pledges = true →
      voted' st.pledges = true) (ratified : federatedRatify slot envs voted = true) :
    federatedRatify slot envs voted' = true := by
  obtain ⟨nodes, supported, slice⟩ := LocalNode.isQuorum_supported ratified
  apply LocalNode.isQuorum_of_supported _ slice
  intro nodeID member
  obtain ⟨st, found, passes, own⟩ := supported nodeID member
  exact ⟨st, found, implies nodeID st found passes, own⟩

theorem federatedRatify_some {voted : SCPPledges Hash Value → Bool}
    (ratified : federatedRatify slot envs voted = true) :
    ∃ nodeID st, envs.lookup nodeID = some st ∧ voted st.pledges = true := by
  obtain ⟨nodes, supported, slice⟩ := LocalNode.isQuorum_supported ratified
  cases nodes with
  | nil =>
      rw [isQuorumSlice_nil] at slice
      cases slice
  | cons nodeID rest =>
      obtain ⟨st, found, passes, -⟩ := supported nodeID List.mem_cons_self
      exact ⟨nodeID, st, found, passes⟩

theorem federatedAccept_mono {voted voted' accepted accepted' : SCPPledges Hash Value → Bool}
    (votes : ∀ nodeID st, envs.lookup nodeID = some st → voted st.pledges = true →
      voted' st.pledges = true)
    (accepts : ∀ nodeID st, envs.lookup nodeID = some st → accepted st.pledges = true →
      accepted' st.pledges = true) (holds : federatedAccept slot envs voted accepted = true) :
    federatedAccept slot envs voted' accepted' = true := by
  unfold federatedAccept at holds ⊢
  rw [Bool.or_eq_true] at holds ⊢
  rcases holds with blocks | ratified
  · left
    apply isVBlocking_mono _ _ blocks
    intro nodeID member
    obtain ⟨st, found, passes⟩ := LocalNode.mem_filterNodes.mp member
    exact LocalNode.mem_filterNodes.mpr ⟨st, found, accepts nodeID st found passes⟩
  · right
    apply federatedRatify_mono _ ratified
    intro nodeID st found passes
    rw [Bool.or_eq_true] at passes ⊢
    exact passes.imp (accepts nodeID st found) (votes nodeID st found)

theorem federatedAccept_some {voted accepted : SCPPledges Hash Value → Bool}
    (holds : federatedAccept slot envs voted accepted = true) :
    ∃ nodeID st, envs.lookup nodeID = some st ∧
      (accepted st.pledges = true ∨ voted st.pledges = true) := by
  unfold federatedAccept at holds
  rw [Bool.or_eq_true] at holds
  rcases holds with blocks | ratified
  · cases nodes : filterNodes envs accepted with
    | nil =>
        rw [nodes, isVBlocking_nil] at blocks
        cases blocks
    | cons nodeID rest =>
        have member : nodeID ∈ filterNodes envs accepted := by
          rw [nodes]
          exact List.mem_cons_self
        obtain ⟨st, found, passes⟩ := LocalNode.mem_filterNodes.mp member
        exact ⟨nodeID, st, found, .inl passes⟩
  · obtain ⟨nodeID, st, found, passes⟩ := federatedRatify_some ratified
    exact ⟨nodeID, st, found, Bool.or_eq_true_iff.mp passes⟩

end

def acceptsCommit (slot : SlotContext NodeID Hash Value) (envs : EnvelopeMap NodeID Hash Value)
    (ballot : SCPBallot Value) (cur : Nat × Nat) : Bool :=
  federatedAccept slot envs (votedCommit ballot cur) (commitPredicate ballot cur)

def confirmsCommit (slot : SlotContext NodeID Hash Value) (envs : EnvelopeMap NodeID Hash Value)
    (ballot : SCPBallot Value) (cur : Nat × Nat) : Bool :=
  federatedRatify slot envs (commitPredicate ballot cur)

structure Voted (ballot : SCPBallot Value) (envs : EnvelopeMap NodeID Hash Value)
    (pred : Nat × Nat → Bool) : Prop where
  starts : ∀ low high, pred (low, high) = true → ∃ nodeID st start,
    envs.lookup nodeID = some st ∧ commitFrom ballot st.pledges = some start ∧ start ≤ low
  narrows : ∀ low high inner outer, pred (low, high) = true →
    (∀ nodeID st start, envs.lookup nodeID = some st →
      commitFrom ballot st.pledges = some start → start ≤ low → start ≤ inner) →
    outer ≤ high → pred (inner, outer) = true

theorem confirmsCommit_voted : Voted ballot envs (confirmsCommit slot envs ballot) where
  starts low high holds := by
    obtain ⟨nodeID, st, found, passes⟩ := federatedRatify_some holds
    obtain ⟨start, starts, below⟩ := (commitPredicate_backs ballot).starts low high st.pledges passes
    exact ⟨nodeID, st, start, found, starts, below⟩
  narrows low high inner outer holds reach under := by
    apply federatedRatify_mono _ holds
    intro nodeID st found passes
    obtain ⟨start, starts, below⟩ := (commitPredicate_backs ballot).starts low high st.pledges passes
    exact (commitPredicate_backs ballot).narrows low high inner outer st.pledges start passes starts
      (reach nodeID st start found starts below) under

theorem acceptsCommit_voted : Voted ballot envs (acceptsCommit slot envs ballot) where
  starts low high holds := by
    obtain ⟨nodeID, st, found, accepted | voted⟩ := federatedAccept_some holds
    · obtain ⟨start, starts, below⟩ :=
        (commitPredicate_backs ballot).starts low high st.pledges accepted
      exact ⟨nodeID, st, start, found, starts, below⟩
    · obtain ⟨start, starts, below⟩ := (votedCommit_backs ballot).starts low high st.pledges voted
      exact ⟨nodeID, st, start, found, starts, below⟩
  narrows low high inner outer holds reach under := by
    apply federatedAccept_mono _ _ holds
    · intro nodeID st found voted
      obtain ⟨start, starts, below⟩ := (votedCommit_backs ballot).starts low high st.pledges voted
      exact (votedCommit_backs ballot).narrows low high inner outer st.pledges start voted starts
        (reach nodeID st start found starts below) under
    · intro nodeID st found accepted
      obtain ⟨start, starts, below⟩ :=
        (commitPredicate_backs ballot).starts low high st.pledges accepted
      exact (commitPredicate_backs ballot).narrows low high inner outer st.pledges start accepted
        starts (reach nodeID st start found starts below) under

theorem Voted.closed {pred : Nat × Nat → Bool} (voted : Voted ballot envs pred) :
    ClosedUnderSubIntervals pred := by
  intro low high inner outer above _ under holds
  apply voted.narrows low high inner outer holds _ under
  intro nodeID st start _ _ below
  omega

/-- The statements about a ballot that are sent from a commit on name a counter. -/
def NamesCounter (ballot : SCPBallot Value) : SCPPledges Hash Value → Prop
  | .prepare .. => True
  | .confirm stBallot _ nCommit _ _ => areBallotsCompatible ballot stBallot = true → 1 ≤ nCommit
  | .externalize commit .. => areBallotsCompatible ballot commit = true → 1 ≤ commit.counter

theorem NamesCounter.positive {pledges : SCPPledges Hash Value} (names : NamesCounter ballot pledges)
    {start : Nat} (starts : commitFrom ballot pledges = some start) : 1 ≤ start := by
  cases pledges with
  | prepare quorumSetHash stBallot prepared prime nC nH =>
      obtain ⟨holds, same⟩ := Option.ite_none_right_eq_some.mp starts
      cases same
      have nonzero := of_decide_eq_true (Bool.and_eq_true_iff.mp holds).2
      omega
  | confirm stBallot nPrepared nCommit nH quorumSetHash =>
      obtain ⟨holds, same⟩ := Option.ite_none_right_eq_some.mp starts
      cases same
      exact names holds
  | externalize commit nH quorumSetHash =>
      obtain ⟨holds, same⟩ := Option.ite_none_right_eq_some.mp starts
      cases same
      exact names holds

theorem Voted.positive {pred : Nat × Nat → Bool} (voted : Voted ballot envs pred)
    (names : ∀ nodeID st, envs.lookup nodeID = some st → NamesCounter ballot st.pledges)
    (high : Nat) : pred (0, high) = false := by
  by_contra holds
  rw [Bool.not_eq_false] at holds
  obtain ⟨nodeID, st, start, found, starts, below⟩ := voted.starts 0 high holds
  have positive := (names nodeID st found).positive starts
  omega

end Voting

/-! ### The search is exact -/

section Exact

variable [DecidableEq NodeID] {core : BallotCore NodeID Hash Value} {ballot : SCPBallot Value}

theorem commitFrom_mem_boundaries {nodeID : NodeID} {st : SCPStatement NodeID Hash Value}
    (found : core.mLatestEnvelopes.lookup nodeID = some st) {start : Nat}
    (starts : commitFrom ballot st.pledges = some start) :
    start ∈ getCommitBoundariesFromStatements core ballot := by
  unfold getCommitBoundariesFromStatements
  rw [OrderedSet.mem_ofList, List.mem_flatMap]
  exact ⟨⟨nodeID, st⟩, AList.mem_lookup_iff.mp found, commitFrom_boundary starts⟩

theorem Voted.boundary {pred : Nat × Nat → Bool} (voted : Voted ballot core.mLatestEnvelopes pred)
    {counter : Nat} (holds : pred (counter, counter) = true) :
    ∃ b ∈ getCommitBoundariesFromStatements core ballot, pred (b, b) = true := by
  obtain ⟨nodeID, st, start, found, starts, below⟩ := voted.starts counter counter holds
  -- The greatest boundary up to the counter is above every lower end that is.
  let candidates := ((getCommitBoundariesFromStatements core ballot).filter
    fun b => b ≤ counter).toFinset
  have reach {nodeID : NodeID} {st : SCPStatement NodeID Hash Value} {start : Nat}
      (found : core.mLatestEnvelopes.lookup nodeID = some st)
      (starts : commitFrom ballot st.pledges = some start) (below : start ≤ counter) :
      start ∈ candidates := by
    rw [List.mem_toFinset, List.mem_filter]
    exact ⟨commitFrom_mem_boundaries found starts, decide_eq_true below⟩
  obtain ⟨b, member, greatest⟩ := candidates.exists_max_image id ⟨start, reach found starts below⟩
  rw [List.mem_toFinset, List.mem_filter] at member
  refine ⟨b, member.1, voted.narrows counter counter b b holds ?_ (of_decide_eq_true member.2)⟩
  intro nodeID st start found starts below
  exact greatest start (reach found starts below)

theorem Voted.exact {pred : Nat × Nat → Bool} (voted : Voted ballot core.mLatestEnvelopes pred)
    (names : ∀ nodeID st, core.mLatestEnvelopes.lookup nodeID = some st →
      NamesCounter ballot st.pledges) :
    ClosedUnderSubIntervals pred ∧
    ((findExtendedInterval pred (0, 0)
        (getCommitBoundariesFromStatements core ballot).reverse).1 ≠ 0 ↔
      ∃ counter, 1 ≤ counter ∧ pred (counter, counter) = true) ∧
    ((∃ counter, 1 ≤ counter ∧ pred (counter, counter) = true) →
      Extended pred (getCommitBoundariesFromStatements core ballot)
        (findExtendedInterval pred (0, 0)
          (getCommitBoundariesFromStatements core ballot).reverse)) := by
  have positive := voted.positive names
  have extended (some_ : ∃ counter, 1 ≤ counter ∧ pred (counter, counter) = true) :
      Extended pred (getCommitBoundariesFromStatements core ballot)
        (findExtendedInterval pred (0, 0)
          (getCommitBoundariesFromStatements core ballot).reverse) := by
    obtain ⟨counter, -, holds⟩ := some_
    obtain ⟨b, member, passes⟩ := voted.boundary holds
    obtain ⟨upper, greatest, lower, least⟩ := findExtendedInterval_extended voted.closed positive
      (OrderedSet.reverse_descending _) ⟨b, List.mem_reverse.mpr member, passes⟩
    exact ⟨⟨List.mem_reverse.mp upper.1, upper.2⟩,
      fun b member => greatest b (List.mem_reverse.mpr member),
      ⟨List.mem_reverse.mp lower.1, lower.2⟩,
      fun b member => least b (List.mem_reverse.mpr member)⟩
  refine ⟨voted.closed, ⟨?_, ?_⟩, extended⟩
  · intro found
    by_contra nothing
    apply found
    rw [findExtendedInterval_none]
    intro b _
    by_contra passes
    rw [Bool.not_eq_false] at passes
    cases b with
    | zero =>
        rw [positive] at passes
        cases passes
    | succ b => exact nothing ⟨b + 1, by omega, passes⟩
  · intro some_ zero
    have lower := (extended some_).lower.2
    rw [zero, positive] at lower
    cases lower

/-- The search of `attemptAcceptCommit` and `attemptConfirmCommit` is exact where the statements
sent from a commit on name a counter: an interval is found exactly where some counter passes, from
the greatest boundary that passes alone down to the least from which all up to it pass. -/
theorem commitInterval_exact (slot : SlotContext NodeID Hash Value)
    (core : BallotCore NodeID Hash Value) (ballot : SCPBallot Value)
    (names : ∀ nodeID st, core.mLatestEnvelopes.lookup nodeID = some st →
      NamesCounter ballot st.pledges)
    (pred : Nat × Nat → Bool)
    (search : pred = acceptsCommit slot core.mLatestEnvelopes ballot ∨
      pred = confirmsCommit slot core.mLatestEnvelopes ballot) :
    ClosedUnderSubIntervals pred ∧
    ((findExtendedInterval pred (0, 0)
        (getCommitBoundariesFromStatements core ballot).reverse).1 ≠ 0 ↔
      ∃ counter, 1 ≤ counter ∧ pred (counter, counter) = true) ∧
    ((∃ counter, 1 ≤ counter ∧ pred (counter, counter) = true) →
      Extended pred (getCommitBoundariesFromStatements core ballot)
        (findExtendedInterval pred (0, 0)
          (getCommitBoundariesFromStatements core ballot).reverse)) := by
  rcases search with rfl | rfl
  · exact acceptsCommit_voted.exact names
  · exact confirmsCommit_voted.exact names

def heardOne (pledges : SCPPledges Unit Nat) : BallotCore Nat Unit Nat where
  mCurrentBallot := none
  mPrepared := none
  mPreparedPrime := none
  mHighBallot := none
  mCommit := none
  mLatestEnvelopes := (∅ : EnvelopeMap Nat Unit Nat).insert 2 ⟨2, 1, pledges⟩
  mPhase := .SCP_PHASE_PREPARE
  mValueOverride := none

def trustingSlot : SlotContext Nat Unit Nat where
  slotIndex := 1
  localNodeID := 1
  quorumSet := .mk 1 [2] []
  quorumSetHash := ()
  getQSet _ := some (.mk 1 [2] [])
  validateValue _ := .kFullyValidatedValue
  latestCompositeCandidate := 0

/-- The node 2 has accepted a commit from 3 to 5. -/
theorem commitInterval_exact_confirmed :
    Extended (acceptsCommit trustingSlot
        (heardOne (.confirm ⟨7, 4⟩ 6 3 5 ())).mLatestEnvelopes ⟨5, 4⟩)
      (getCommitBoundariesFromStatements (heardOne (.confirm ⟨7, 4⟩ 6 3 5 ())) ⟨5, 4⟩) (3, 5) := by
  obtain ⟨-, -, extended⟩ := commitInterval_exact trustingSlot (heardOne (.confirm ⟨7, 4⟩ 6 3 5 ()))
    ⟨5, 4⟩ (by
      intro nodeID st found
      by_cases same : nodeID = 2
      · rw [same] at found
        cases found
        exact fun _ => by decide
      · rw [heardOne, AList.lookup_insert_ne same] at found
        cases found)
    _ (.inl rfl)
  exact extended ⟨3, by decide, by decide⟩

/-- A statement that is sane and confirms from the counter 0 on votes for every counter, and no
boundary but 0 is tried. -/
theorem commitInterval_misses_zero :
    isStatementSane trustingSlot ⟨2, 1, .confirm ⟨1, 4⟩ 1 0 0 ()⟩ false = true ∧
      acceptsCommit trustingSlot (heardOne (.confirm ⟨1, 4⟩ 1 0 0 ())).mLatestEnvelopes ⟨0, 4⟩
        (1, 1) = true ∧
      (findExtendedInterval (acceptsCommit trustingSlot
          (heardOne (.confirm ⟨1, 4⟩ 1 0 0 ())).mLatestEnvelopes ⟨0, 4⟩) (0, 0)
        (getCommitBoundariesFromStatements (heardOne (.confirm ⟨1, 4⟩ 1 0 0 ()))
          ⟨0, 4⟩).reverse).1 = 0 := by
  refine ⟨by decide, by decide, by decide⟩

end Exact

end ViiCore.SCP
