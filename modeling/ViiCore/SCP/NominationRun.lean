import Mathlib.Data.List.Sort
import Mathlib.Order.Basic
import Mathlib.Order.Lattice.Nat
import ViiCore.SCP.NominationProtocol

/-!
What every run of the nomination protocol keeps.

A statement pledges two sets of values, what it votes for and what it accepts, and one statement
is newer than another exactly when it pledges strictly more. What a node makes of itself is ahead of
all it made before, however often its own statement makes its sets grow again. The statement that is
recorded for the node pledges the sets it holds as long as nobody else sends one in its name.
-/

namespace ViiCore.SCP.Nomination

open ViiCore.Execution

variable {NodeID Hash Value : Type} [LinearOrder Value]

/-! ### Statements as sets -/

def pledge (nom : SCPNomination Hash Value) : Finset Value × Finset Value :=
  (nom.votes.toFinset, nom.accepted.toFinset)

theorem pledge_le_iff (oldst st : SCPNomination Hash Value) :
    pledge oldst ≤ pledge st ↔ oldst.votes ⊆ st.votes ∧ oldst.accepted ⊆ st.accepted := by
  unfold pledge
  rw [Prod.mk_le_mk]
  simp only [Finset.subset_iff, List.mem_toFinset, List.subset_def]

theorem includes_iff : (v p : List Value) → v.Pairwise (· < ·) → p.Pairwise (· < ·) →
    (includes v p = true ↔ p ⊆ v)
  | v, [], _, _ => by simp [includes]
  | [], wanted :: p, _, _ => by simp [includes]
  | first :: v, wanted :: p, vSorted, pSorted => by
      have vRest := List.pairwise_cons.mp vSorted
      have pRest := List.pairwise_cons.mp pSorted
      unfold includes
      split
      · rename_i smaller
        constructor
        · intro absurd
          cases absurd
        · intro contained
          rcases List.mem_cons.mp (contained List.mem_cons_self) with same | later
          · exact absurd same smaller.ne
          · exact absurd (vRest.1 wanted later) smaller.asymm
      · rename_i notSmaller
        split
        · rename_i larger
          rw [includes_iff v (wanted :: p) vRest.2 pSorted]
          constructor
          · intro contained
            exact List.subset_cons_of_subset first contained
          · intro contained value member
            rcases List.mem_cons.mp (contained member) with same | later
            · rcases List.mem_cons.mp member with atHead | inTail
              · exact absurd (same.symm.trans atHead) larger.ne
              · exact absurd (pRest.1 value inTail) (same ▸ larger.asymm)
            · exact later
        · rename_i notLarger
          have same : wanted = first := le_antisymm (not_lt.mp notLarger) (not_lt.mp notSmaller)
          subst same
          rw [includes_iff v p vRest.2 pRest.2, List.cons_subset]
          constructor
          · intro contained
            exact ⟨List.mem_cons_self, List.subset_cons_of_subset wanted contained⟩
          · intro contained value member
            rcases List.mem_cons.mp (contained.2 member) with same | later
            · exact absurd (pRest.1 value member) (same ▸ lt_irrefl value)
            · exact later

theorem isAscending_iff : (values : List Value) → (isAscending values = true ↔ values.Pairwise (· < ·))
  | [] => by simp [isAscending]
  | [value] => by simp [isAscending]
  | left :: right :: rest => by
      have tail := isAscending_iff (right :: rest)
      rw [← List.isChain_iff_pairwise] at tail ⊢
      rw [isAscending, Bool.and_eq_true, decide_eq_true_eq, List.isChain_cons_cons, tail]

theorem isSubsetHelper_eq {p v : List Value} (pSorted : p.Pairwise (· < ·))
    (vSorted : v.Pairwise (· < ·)) :
    isSubsetHelper p v = (decide (p.toFinset ⊆ v.toFinset), decide (p.toFinset ≠ v.toFinset)) := by
  have pSize : p.toFinset.card = p.length := List.toFinset_card_of_nodup pSorted.nodup
  have vSize : v.toFinset.card = v.length := List.toFinset_card_of_nodup vSorted.nodup
  have contained : includes v p = true ↔ p.toFinset ⊆ v.toFinset := by
    rw [includes_iff v p vSorted pSorted]
    constructor
    · intro sub value member
      exact List.mem_toFinset.mpr (sub (List.mem_toFinset.mp member))
    · intro sub value member
      exact List.mem_toFinset.mp (sub (List.mem_toFinset.mpr member))
  by_cases sub : p.toFinset ⊆ v.toFinset
  · have short : p.length ≤ v.length := by
      rw [← pSize, ← vSize]
      exact Finset.card_le_card sub
    have differ : p.length ≠ v.length ↔ p.toFinset ≠ v.toFinset := by
      rw [not_iff_not, ← pSize, ← vSize]
      constructor
      · intro sizes
        exact Finset.eq_of_subset_of_card_le sub sizes.ge
      · intro same
        rw [same]
    simp [isSubsetHelper, short, contained.mpr sub, sub, differ]
  · have differ : p.toFinset ≠ v.toFinset := fun same => sub same.subset
    have missing : includes v p = false := by
      rw [Bool.eq_false_iff]
      exact fun included => sub (contained.mp included)
    unfold isSubsetHelper
    split <;> simp [missing, sub, differ]

structure Sane (nom : SCPNomination Hash Value) : Prop where
  speaks : pledge nom ≠ ⊥
  votes : nom.votes.Pairwise (· < ·)
  accepted : nom.accepted.Pairwise (· < ·)

theorem isSane_iff (nom : SCPNomination Hash Value) : isSane nom = true ↔ Sane nom := by
  have silent : nom.votes.length + nom.accepted.length = 0 ↔ pledge nom = ⊥ := by
    unfold pledge
    rw [Prod.ext_iff]
    simp
  constructor
  · intro sane
    simp only [isSane, Bool.and_eq_true, decide_eq_true_eq, isAscending_iff] at sane
    exact ⟨fun bottom => sane.1.1 (silent.mpr bottom), sane.1.2, sane.2⟩
  · intro sane
    simp only [isSane, Bool.and_eq_true, decide_eq_true_eq, isAscending_iff]
    exact ⟨⟨fun zero => sane.speaks (silent.mp zero), sane.votes⟩, sane.accepted⟩

theorem isNewerNomination_iff {oldst st : SCPNomination Hash Value} (old : Sane oldst)
    (new : Sane st) : isNewerNomination oldst st = true ↔ pledge oldst < pledge st := by
  unfold isNewerNomination
  rw [isSubsetHelper_eq old.votes new.votes, isSubsetHelper_eq old.accepted new.accepted,
    lt_iff_le_and_ne]
  simp only [Bool.and_eq_true, Bool.or_eq_true, decide_eq_true_eq, pledge, Prod.mk_le_mk,
    ne_eq, Prod.mk.injEq, not_and_or]

theorem pledge_ownNomination (driver : NominationDriver NodeID Hash Value)
    (state : NominationState NodeID Hash Value) :
    pledge (ownNomination driver state) = (state.mVotes, state.mAccepted) := by
  simp [pledge, ownNomination]

theorem sane_ownNomination (driver : NominationDriver NodeID Hash Value)
    {state : NominationState NodeID Hash Value} (speaks : (state.mVotes, state.mAccepted) ≠ ⊥) :
    Sane (ownNomination driver state) := by
  constructor
  · rw [pledge_ownNomination]
    exact speaks
  · exact (Finset.sortedLT_sort state.mVotes).pairwise
  · exact (Finset.sortedLT_sort state.mAccepted).pairwise

/-! ### The invariant -/

def held (state : NominationState NodeID Hash Value) : Finset Value × Finset Value :=
  (state.mVotes, state.mAccepted)

variable [LinearOrder NodeID]

def said (localNodeID : NodeID) (state : NominationState NodeID Hash Value) :
    Finset Value × Finset Value :=
  match state.mLatestNominations.lookup localNodeID with
  | none => ⊥
  | some own => pledge own

structure Coherent (state : NominationState NodeID Hash Value) : Prop where
  candidates : state.mCandidates ⊆ state.mAccepted
  accepted : state.mAccepted ⊆ state.mVotes
  recorded : ∀ nodeID nom, state.mLatestNominations.lookup nodeID = some nom → isSane nom = true
  createdSane : ∀ nom ∈ state.created, isSane nom = true
  createdNewer : state.created.Pairwise fun oldst st => isNewerNomination oldst st = true
  createdHeld : ∀ nom ∈ state.created, pledge nom ≤ held state
  lastCreated : ∀ last ∈ state.mLastEnvelope, last ∈ state.created
  emittedCreated : ∀ nom ∈ state.emitted, nom ∈ state.created
  emittedNewer : state.emitted.Pairwise fun oldst st => isNewerNomination oldst st = true
  emittedLast : ∀ nom ∈ state.emitted, ∃ last ∈ state.mLastEnvelope, pledge nom ≤ pledge last

/-- What never shrinks: the sets, the statement of each node, and what has been said. -/
structure Grows (before after : NominationState NodeID Hash Value) : Prop where
  votes : before.mVotes ⊆ after.mVotes
  accepted : before.mAccepted ⊆ after.mAccepted
  candidates : before.mCandidates ⊆ after.mCandidates
  recorded : ∀ nodeID oldst, before.mLatestNominations.lookup nodeID = some oldst →
    ∃ st, after.mLatestNominations.lookup nodeID = some st ∧
      oldst.votes ⊆ st.votes ∧ oldst.accepted ⊆ st.accepted
  created : before.created <+: after.created
  emitted : before.emitted <+: after.emitted

omit [LinearOrder Value] in
theorem Grows.refl (state : NominationState NodeID Hash Value) : Grows state state where
  votes := Finset.Subset.refl _
  accepted := Finset.Subset.refl _
  candidates := Finset.Subset.refl _
  recorded := fun _ oldst known => ⟨oldst, known, List.Subset.refl _, List.Subset.refl _⟩
  created := List.prefix_rfl
  emitted := List.prefix_rfl

omit [LinearOrder Value] in
theorem Grows.trans {first second third : NominationState NodeID Hash Value}
    (early : Grows first second) (late : Grows second third) : Grows first third where
  votes := early.votes.trans late.votes
  accepted := early.accepted.trans late.accepted
  candidates := early.candidates.trans late.candidates
  recorded := by
    intro nodeID oldst known
    obtain ⟨st, between, votes, accepted⟩ := early.recorded nodeID oldst known
    obtain ⟨newest, known', votes', accepted'⟩ := late.recorded nodeID st between
    exact ⟨newest, known', List.Subset.trans votes votes', List.Subset.trans accepted accepted'⟩
  created := early.created.trans late.created
  emitted := early.emitted.trans late.emitted

section Frame

variable {state : NominationState NodeID Hash Value} {roundNumber : Nat}
  {leaders : Finset NodeID} {started : Bool} {composite previous : Value}

theorem Coherent.frame (coherent : Coherent state) :
    Coherent { state with
      mRoundNumber := roundNumber
      mRoundLeaders := leaders
      mNominationStarted := started
      mLatestCompositeCandidate := composite
      mPreviousValue := previous } where
  candidates := coherent.candidates
  accepted := coherent.accepted
  recorded := coherent.recorded
  createdSane := coherent.createdSane
  createdNewer := coherent.createdNewer
  createdHeld := coherent.createdHeld
  lastCreated := coherent.lastCreated
  emittedCreated := coherent.emittedCreated
  emittedNewer := coherent.emittedNewer
  emittedLast := coherent.emittedLast

omit [LinearOrder Value] in
theorem Grows.frame : Grows state { state with
    mRoundNumber := roundNumber
    mRoundLeaders := leaders
    mNominationStarted := started
    mLatestCompositeCandidate := composite
    mPreviousValue := previous } :=
  { Grows.refl state with }

end Frame

/-! ### Voting -/

/-- What has become of a state whose sets have grown: nothing else has changed, and the flag says
whether the votes or the accepted values have. -/
structure Voted (start after : NominationState NodeID Hash Value) (modified : Bool) : Prop where
  recorded : after.mLatestNominations = start.mLatestNominations
  last : after.mLastEnvelope = start.mLastEnvelope
  created : after.created = start.created
  emitted : after.emitted = start.emitted
  candidates : start.mCandidates ⊆ after.mCandidates
  ratified : after.mCandidates ⊆ after.mAccepted
  accepted : after.mAccepted ⊆ after.mVotes
  changed : if modified then held start < held after else held after = held start

theorem Voted.start {state : NominationState NodeID Hash Value}
    (coherent : Coherent state) : Voted state state false where
  recorded := rfl
  last := rfl
  created := rfl
  emitted := rfl
  candidates := Finset.Subset.refl _
  ratified := coherent.candidates
  accepted := coherent.accepted
  changed := by simp

section Voted

variable {localNodeID : NodeID} {start after : NominationState NodeID Hash Value} {modified : Bool}

omit [LinearOrder Value] [LinearOrder NodeID] in
theorem Voted.held_le (voted : Voted start after modified) : held start ≤ held after := by
  have changed := voted.changed
  cases modified with
  | false => exact changed.ge
  | true => exact changed.le

omit [LinearOrder Value] [LinearOrder NodeID] in
theorem Voted.vote (voted : Voted start after modified) {votes accepted : Finset Value}
    (more : held after < (votes, accepted)) (among : accepted ⊆ votes) :
    Voted start { after with mVotes := votes, mAccepted := accepted } true where
  recorded := voted.recorded
  last := voted.last
  created := voted.created
  emitted := voted.emitted
  candidates := voted.candidates
  ratified := voted.ratified.trans more.le.2
  accepted := among
  changed := lt_of_le_of_lt voted.held_le more

section

omit [LinearOrder NodeID]

theorem Voted.insertVote (voted : Voted start after modified) {value : Value}
    (fresh : value ∉ after.mVotes) :
    Voted start { after with mVotes := insert value after.mVotes } true := by
  have more : held after < (insert value after.mVotes, after.mAccepted) :=
    Prod.mk_lt_mk.mpr (Or.inl ⟨Finset.ssubset_insert fresh, le_refl _⟩)
  exact voted.vote more (voted.accepted.trans (Finset.subset_insert value after.mVotes))

theorem Voted.accept (voted : Voted start after modified) {value : Value}
    (fresh : value ∉ after.mAccepted) :
    Voted start
      { after with
        mAccepted := insert value after.mAccepted
        mVotes := insert value after.mVotes } true := by
  have more : held after < (insert value after.mVotes, insert value after.mAccepted) :=
    Prod.mk_lt_mk.mpr
      (Or.inr ⟨Finset.subset_insert value after.mVotes, Finset.ssubset_insert fresh⟩)
  exact voted.vote more (Finset.insert_subset_insert value voted.accepted)

theorem Voted.ratify (voted : Voted start after modified) {values : Finset Value}
    (among : values ⊆ after.mAccepted) :
    Voted start { after with mCandidates := after.mCandidates ∪ values } modified :=
  { voted with
    candidates := voted.candidates.trans Finset.subset_union_left
    ratified := Finset.union_subset voted.ratified among }

end

theorem said_of_voted (voted : Voted start after modified) :
    said localNodeID after = said localNodeID start := by
  unfold said
  rw [voted.recorded]

theorem Coherent.voted (coherent : Coherent start)
    (voted : Voted start after modified) : Coherent after where
  candidates := voted.ratified
  accepted := voted.accepted
  recorded := by
    rw [voted.recorded]
    exact coherent.recorded
  createdSane := by
    rw [voted.created]
    exact coherent.createdSane
  createdNewer := by
    rw [voted.created]
    exact coherent.createdNewer
  createdHeld := by
    rw [voted.created]
    exact fun nom member => (coherent.createdHeld nom member).trans voted.held_le
  lastCreated := by
    rw [voted.last, voted.created]
    exact coherent.lastCreated
  emittedCreated := by
    rw [voted.emitted, voted.created]
    exact coherent.emittedCreated
  emittedNewer := by
    rw [voted.emitted]
    exact coherent.emittedNewer
  emittedLast := by
    rw [voted.emitted, voted.last]
    exact coherent.emittedLast

omit [LinearOrder Value] in
theorem Voted.grows (voted : Voted start after modified) : Grows start after where
  votes := voted.held_le.1
  accepted := voted.held_le.2
  candidates := voted.candidates
  recorded := by
    rw [voted.recorded]
    exact (Grows.refl start).recorded
  created := by
    rw [voted.created]
  emitted := by
    rw [voted.emitted]

end Voted

variable [OrderBot Value] (driver : NominationDriver NodeID Hash Value)

theorem considerVote_voted {start : NominationState NodeID Hash Value}
    {found : NominationState NodeID Hash Value × Bool} (voted : Voted start found.1 found.2)
    (v : Value) :
    Voted start (considerVote driver found v).1 (considerVote driver found v).2 := by
  obtain ⟨state, modified⟩ := found
  unfold considerVote
  dsimp only
  split
  · exact voted
  · rename_i fresh
    split
    · split
      · exact voted.accept fresh
      · split
        · rename_i extracted
          exact voted.insertVote extracted.2
        · exact voted
    · exact voted

theorem considerVotes_voted {start : NominationState NodeID Hash Value} (votes : List Value)
    (found : NominationState NodeID Hash Value × Bool) (voted : Voted start found.1 found.2) :
    Voted start (votes.foldl (considerVote driver) found).1
      (votes.foldl (considerVote driver) found).2 := by
  induction votes generalizing found with
  | nil => exact voted
  | cons v votes ih => exact ih _ (considerVote_voted driver voted v)

omit [LinearOrder NodeID] in
theorem considerValue_fresh {state : NominationState NodeID Hash Value} {found result : Value × Nat}
    {value : Value} (fresh : found.1 ≠ ⊥ → found.1 ∉ state.mVotes)
    (ran : considerValue driver state found value = .ok result) :
    result.1 ≠ ⊥ → result.1 ∉ state.mVotes := by
  unfold considerValue at ran
  generalize (if driver.validateValue value = .kFullyValidatedValue then value
    else driver.extractValidValue value) = valueToNominate at ran
  dsimp only at ran
  split at ran
  · rename_i usable
    obtain ⟨curHash, _, kept⟩ := except_bind_ok.mp ran
    split at kept
    · cases kept
      exact fun _ => usable.2
    · cases kept
      exact fresh
  · cases ran
    exact fresh

omit [LinearOrder NodeID] in
theorem getNewValueFromNomination_fresh {state : NominationState NodeID Hash Value}
    {nom : SCPNomination Hash Value} {value : Value}
    (ran : getNewValueFromNomination driver state nom = .ok value) :
    value ≠ ⊥ → value ∉ state.mVotes := by
  have folded : ∀ (values : List Value) (found result : Value × Nat),
      (found.1 ≠ ⊥ → found.1 ∉ state.mVotes) →
      values.foldlM (considerValue driver state) found = .ok result →
      (result.1 ≠ ⊥ → result.1 ∉ state.mVotes) := by
    intro values
    induction values with
    | nil =>
        intro found result fresh ran
        cases ran
        exact fresh
    | cons head values ih =>
        intro found result fresh ran
        rw [List.foldlM_cons] at ran
        obtain ⟨next, step, rest⟩ := except_bind_ok.mp ran
        exact ih next result (considerValue_fresh driver fresh step) rest
  unfold getNewValueFromNomination at ran
  obtain ⟨result, fold, returned⟩ := except_bind_ok.mp ran
  cases returned
  exact folded _ _ _ (fun proper => (proper rfl).elim) fold

theorem followLeader_voted {start : NominationState NodeID Hash Value} {nodeID : NodeID}
    {nom : SCPNomination Hash Value} {found result : NominationState NodeID Hash Value × Bool}
    (voted : Voted start found.1 found.2)
    (ran : followLeader driver nodeID nom found = .ok result) : Voted start result.1 result.2 := by
  obtain ⟨state, modified⟩ := found
  unfold followLeader at ran
  dsimp only at ran
  split at ran
  · obtain ⟨newVote, picked, returned⟩ := except_bind_ok.mp ran
    split at returned
    · rename_i proper
      cases returned
      exact voted.insertVote (getNewValueFromNomination_fresh driver picked proper)
    · cases returned
      exact voted
  · cases ran
    exact voted

theorem considerNomination_voted {nodeID : NodeID} {nom : SCPNomination Hash Value}
    {start after : NominationState NodeID Hash Value} {modified newCandidates : Bool}
    (coherent : Coherent start)
    (ran : considerNomination driver nodeID nom start = .ok (after, modified, newCandidates)) :
    Voted start after modified := by
  unfold considerNomination at ran
  have voted := considerVotes_voted driver nom.votes (start, false) (Voted.start coherent)
  generalize nom.votes.foldl (considerVote driver) (start, false) = counted at ran voted
  have ratified := voted.ratify (Finset.filter_subset _ _ : Nomination.newCandidates driver counted.1 ⊆ _)
  obtain ⟨result, followed, returned⟩ := except_bind_ok.mp ran
  cases returned
  exact followLeader_voted driver ratified followed

theorem followLeaders_voted {start : NominationState NodeID Hash Value} :
    (leaders : List NodeID) → {found result : NominationState NodeID Hash Value × Bool} →
    Voted start found.1 found.2 → followLeaders driver leaders found = .ok result →
    Voted start result.1 result.2
  | [], _, _, voted, ran => by
      cases ran
      exact voted
  | leader :: rest, (state, updated), result, voted, ran => by
      unfold followLeaders at ran
      split at ran
      · exact followLeaders_voted rest voted ran
      · rename_i nom known
        obtain ⟨nominatingValue, picked, next⟩ := except_bind_ok.mp ran
        split at next
        · rename_i proper
          have fresh := getNewValueFromNomination_fresh driver picked proper
          exact followLeaders_voted rest (voted.insertVote fresh) next
        · exact followLeaders_voted rest voted next

/-! ### Speaking -/

/-- Running `x` keeps the invariant. Where nobody speaks in its name the node has spoken for all it
holds, or has met a fault other than a bad state. -/
def Settles {α : Type} (trusted : Prop) (localNodeID : NodeID) (x : NominationM NodeID Hash Value α)
    (state : NominationState NodeID Hash Value) : Prop :=
  wp x
    (fun _ after => Coherent after ∧ (trusted → said localNodeID after = held after) ∧
      Grows state after)
    (fun fault after => (trusted → fault ≠ .movedToBadState) ∧ Coherent after ∧ Grows state after)
    state

/-- The node holds more than it ever made a statement of. -/
structure Ahead (trusted : Prop) (localNodeID : NodeID) (state : NominationState NodeID Hash Value) :
    Prop where
  speaks : held state ≠ ⊥
  created : ∀ nom ∈ state.created, pledge nom < held state
  beyond : trusted → said localNodeID state < held state

section Settles

variable {α β : Type} {trusted : Prop} {localNodeID : NodeID}
  {state : NominationState NodeID Hash Value}

section

omit [OrderBot Value]

theorem Ahead.of_voted {after : NominationState NodeID Hash Value} (coherent : Coherent state)
    (spoken : trusted → said localNodeID state = held state) (voted : Voted state after true) :
    Ahead trusted localNodeID after := by
  have more : held state < held after := voted.changed
  constructor
  · exact (bot_le.trans_lt more).ne'
  · intro nom member
    rw [voted.created] at member
    exact (coherent.createdHeld nom member).trans_lt more
  · intro foreign
    rw [said_of_voted voted, spoken foreign]
    exact more

theorem Settles.pure (coherent : Coherent state)
    (spoken : trusted → said localNodeID state = held state) (result : α) :
    Settles trusted localNodeID (Pure.pure result) state :=
  ⟨coherent, spoken, Grows.refl state⟩

theorem Settles.bind {x : NominationM NodeID Hash Value α}
    {f : α → NominationM NodeID Hash Value β} (first : Settles trusted localNodeID x state)
    (second : ∀ result after, Coherent after → (trusted → said localNodeID after = held after) →
      Grows state after → Settles trusted localNodeID (f result) after) :
    Settles trusted localNodeID (x >>= f) state := by
  unfold Settles
  rw [wp_bind]
  apply wp_mono first
  · intro result after settled
    apply wp_mono (second result after settled.1 settled.2.1 settled.2.2)
    · intro _ later settled'
      exact ⟨settled'.1, settled'.2.1, settled.2.2.trans settled'.2.2⟩
    · intro _ later failed
      exact ⟨failed.1, failed.2.1, settled.2.2.trans failed.2.2⟩
  · intro fault after failed
    exact failed

theorem Settles.after {x : NominationM NodeID Hash Value α}
    {next : NominationState NodeID Hash Value} (grows : Grows state next)
    (settles : Settles trusted localNodeID x next) :
    wp x
      (fun _ after => Coherent after ∧ (trusted → said localNodeID after = held after) ∧
        Grows state after)
      (fun fault after => (trusted → fault ≠ .movedToBadState) ∧ Coherent after ∧
        Grows state after)
      next := by
  apply wp_mono settles
  · intro _ after settled
    exact ⟨settled.1, settled.2.1, grows.trans settled.2.2⟩
  · intro _ after failed
    exact ⟨failed.1, failed.2.1, grows.trans failed.2.2⟩

theorem updateCandidates_settles (coherent : Coherent state)
    (spoken : trusted → said localNodeID state = held state) :
    Settles trusted localNodeID (updateCandidates driver) state := by
  unfold Settles updateCandidates
  simp only [wp_bind, wp_modify, wp_get, wp_ite, wp_pure]
  constructor
  · intro _
    exact ⟨coherent.frame, spoken, Grows.frame⟩
  · intro _
    exact ⟨coherent.frame, spoken, Grows.frame⟩

end

omit [LinearOrder Value] [LinearOrder NodeID] [OrderBot Value] in
theorem wp_orAbort {post : α → NominationState NodeID Hash Value → Prop}
    {fault : NominationFault → NominationState NodeID Hash Value → Prop}
    {result : Except Assertion α} (ok : ∀ value, result = .ok value → post value state)
    (aborted : ∀ assertion, fault (.aborted assertion) state) :
    wp (orAbort result) post fault state := by
  cases result with
  | ok value => exact ok value rfl
  | error assertion => exact aborted assertion

theorem heed_settles {emitNomination : NominationM NodeID Hash Value Unit}
    (emits : ∀ state, Coherent state → Ahead trusted localNodeID state →
      Settles trusted localNodeID emitNomination state)
    (coherent : Coherent state) (spoken : trusted → said localNodeID state = held state)
    (nodeID : NodeID) (nom : SCPNomination Hash Value) :
    Settles trusted localNodeID (heed driver emitNomination nodeID nom) state := by
  unfold heed Settles
  rw [wp_bind, wp_get]
  split
  · rw [wp_bind, wp_get, wp_bind]
    apply wp_orAbort
    · intro ⟨after, modified, newCandidates⟩ ran
      have voted := considerNomination_voted driver coherent ran
      have coherent' := coherent.voted voted
      rw [wp_bind, wp_set]
      apply Settles.after voted.grows
      have finished : ∀ next, Coherent next → (trusted → said localNodeID next = held next) →
          Settles trusted localNodeID (if newCandidates then updateCandidates driver else pure ()) next := by
        intro next coherent'' spoken''
        cases newCandidates with
        | false => exact Settles.pure coherent'' spoken'' _
        | true => exact updateCandidates_settles driver coherent'' spoken''
      cases modified with
      | false =>
          have same : held after = held state := voted.changed
          apply finished after coherent'
          intro foreign
          rw [said_of_voted voted, spoken foreign, same]
      | true =>
          apply Settles.bind (emits after coherent' (Ahead.of_voted coherent spoken voted))
          intro _ next coherent'' spoken'' _
          exact finished next coherent'' spoken''
    · intro assertion
      exact ⟨by simp, coherent, Grows.refl state⟩
  · exact ⟨coherent, spoken, Grows.refl state⟩

/-! ### Recording -/

section

omit [OrderBot Value]

theorem said_insert (localNodeID : NodeID) (state : NominationState NodeID Hash Value)
    (nodeID : NodeID) (nom : SCPNomination Hash Value) :
    said localNodeID
        { state with mLatestNominations := state.mLatestNominations.insert nodeID nom } =
      if nodeID = localNodeID then pledge nom else said localNodeID state := by
  unfold said
  by_cases same : nodeID = localNodeID
  · subst same
    rw [AList.lookup_insert, if_pos rfl]
  · rw [AList.lookup_insert_ne (Ne.symm same), if_neg same]

theorem isNewerStatement_pledge (coherent : Coherent state) {nodeID : NodeID}
    {oldst st : SCPNomination Hash Value} (sane : isSane st = true)
    (known : state.mLatestNominations.lookup nodeID = some oldst) :
    isNewerStatement state nodeID st = true ↔ pledge oldst < pledge st := by
  unfold isNewerStatement
  rw [known]
  exact isNewerNomination_iff ((isSane_iff oldst).mp (coherent.recorded nodeID oldst known))
    ((isSane_iff st).mp sane)

theorem Grows.record (coherent : Coherent state) {nodeID : NodeID}
    {nom : SCPNomination Hash Value} (newer : isNewerStatement state nodeID nom = true)
    (sane : isSane nom = true) :
    Grows state { state with mLatestNominations := state.mLatestNominations.insert nodeID nom } :=
  { Grows.refl state with
    recorded := by
      intro other oldst known
      by_cases same : other = nodeID
      · subst same
        have more := (isNewerStatement_pledge coherent sane known).mp newer
        exact ⟨nom, AList.lookup_insert _, (pledge_le_iff oldst nom).mp more.le⟩
      · dsimp only
        rw [AList.lookup_insert_ne same]
        exact ⟨oldst, known, List.Subset.refl _, List.Subset.refl _⟩ }

theorem Coherent.record (coherent : Coherent state) {nodeID : NodeID}
    {nom : SCPNomination Hash Value} (newer : isNewerStatement state nodeID nom = true)
    (sane : isSane nom = true) :
    Coherent
      { state with mLatestNominations := state.mLatestNominations.insert nodeID nom } :=
  { coherent with
    recorded := by
      intro other found known
      by_cases same : other = nodeID
      · subst same
        rw [AList.lookup_insert] at known
        cases known
        exact sane
      · rw [AList.lookup_insert_ne same] at known
        exact coherent.recorded other found known }

end

theorem wp_processEnvelope {emitNomination : NominationM NodeID Hash Value Unit}
    {post : EnvelopeState → NominationState NodeID Hash Value → Prop}
    {fault : NominationFault → NominationState NodeID Hash Value → Prop} {nodeID : NodeID}
    {nom : SCPNomination Hash Value} (newer : isNewerStatement state nodeID nom = true)
    (sane : isSane nom = true) :
    wp (processEnvelope driver emitNomination nodeID nom) post fault state ↔
      wp (heed driver emitNomination nodeID nom) (fun _ after => post .VALID after) fault
        { state with mLatestNominations := state.mLatestNominations.insert nodeID nom } := by
  unfold processEnvelope recordEnvelope
  rw [wp_bind, wp_get, newer, sane, Bool.and_true, if_pos rfl, wp_bind, wp_modify, wp_bind]
  simp only [wp_pure]

theorem processEnvelope_settles {emitNomination : NominationM NodeID Hash Value Unit}
    (emits : ∀ state, Coherent state → Ahead trusted localNodeID state →
      Settles trusted localNodeID emitNomination state)
    (coherent : Coherent state) (spoken : trusted → said localNodeID state = held state)
    {nodeID : NodeID} (other : trusted → nodeID ≠ localNodeID) (nom : SCPNomination Hash Value) :
    Settles trusted localNodeID (processEnvelope driver emitNomination nodeID nom) state := by
  by_cases checks : (isNewerStatement state nodeID nom && isSane nom) = true
  · have passed := Bool.and_eq_true_iff.mp checks
    have recorded := coherent.record passed.1 passed.2
    have spoken' : trusted → said localNodeID
        { state with mLatestNominations := state.mLatestNominations.insert nodeID nom } =
        held state := by
      intro foreign
      rw [said_insert, if_neg (other foreign)]
      exact spoken foreign
    unfold Settles
    rw [wp_processEnvelope driver passed.1 passed.2]
    exact Settles.after (Grows.record coherent passed.1 passed.2)
      (heed_settles driver emits recorded spoken' nodeID nom)
  · unfold processEnvelope Settles
    rw [wp_bind, wp_get, if_neg checks]
    exact ⟨coherent, spoken, Grows.refl state⟩

omit [OrderBot Value] in
theorem Coherent.create (coherent : Coherent state) (ahead : Ahead trusted localNodeID state)
    {nom : SCPNomination Hash Value} (sane : isSane nom = true) (own : pledge nom = held state) :
    Coherent { state with created := state.created ++ [nom] } :=
  { coherent with
    createdSane := by
      intro created member
      rcases List.mem_append.mp member with earlier | last
      · exact coherent.createdSane created earlier
      · rw [List.mem_singleton.mp last]
        exact sane
    createdNewer := by
      rw [List.pairwise_append]
      constructor
      · exact coherent.createdNewer
      constructor
      · exact List.pairwise_singleton _ nom
      · intro earlier member last isLast
        rw [List.mem_singleton.mp isLast,
          isNewerNomination_iff ((isSane_iff earlier).mp (coherent.createdSane earlier member))
            ((isSane_iff nom).mp sane), own]
        exact ahead.created earlier member
    createdHeld := by
      intro created member
      rcases List.mem_append.mp member with earlier | last
      · exact coherent.createdHeld created earlier
      · rw [List.mem_singleton.mp last]
        exact own.le
    lastCreated := fun last known => List.mem_append_left [nom] (coherent.lastCreated last known)
    emittedCreated := fun sent member =>
      List.mem_append_left [nom] (coherent.emittedCreated sent member) }

/-! ### Sending -/

section Send

variable {nom : SCPNomination Hash Value}

section

omit [OrderBot Value]

theorem Coherent.emitted_lt (coherent : Coherent state) (made : nom ∈ state.created)
    (newest : state.mLastEnvelope.all (fun last => isNewerNomination last nom) = true)
    (sent : SCPNomination Hash Value) (member : sent ∈ state.emitted) : pledge sent < pledge nom := by
  obtain ⟨last, known, behind⟩ := coherent.emittedLast sent member
  have newer : isNewerNomination last nom = true := by
    rw [known] at newest
    exact newest
  have lastSane := coherent.createdSane last (coherent.lastCreated last known)
  rw [isNewerNomination_iff ((isSane_iff last).mp lastSane)
    ((isSane_iff nom).mp (coherent.createdSane nom made))] at newer
  exact behind.trans_lt newer

theorem Coherent.last (coherent : Coherent state) (made : nom ∈ state.created)
    (behind : ∀ sent ∈ state.emitted, pledge sent < pledge nom) :
    Coherent { state with mLastEnvelope := some nom } :=
  { coherent with
    lastCreated := by
      intro last known
      cases known
      exact made
    emittedLast := fun sent member => ⟨nom, rfl, (behind sent member).le⟩ }

theorem Coherent.emit (coherent : Coherent state) (made : nom ∈ state.created)
    (behind : ∀ sent ∈ state.emitted, pledge sent < pledge nom) :
    Coherent
      { state with
        mLastEnvelope := some nom
        emitted := state.emitted ++ [nom] } :=
  { coherent.last made behind with
    emittedCreated := by
      intro sent member
      rcases List.mem_append.mp member with earlier | own
      · exact coherent.emittedCreated sent earlier
      · rw [List.mem_singleton.mp own]
        exact made
    emittedNewer := by
      rw [List.pairwise_append]
      constructor
      · exact coherent.emittedNewer
      constructor
      · exact List.pairwise_singleton _ nom
      · intro earlier member own isOwn
        have sane := coherent.createdSane earlier (coherent.emittedCreated earlier member)
        rw [List.mem_singleton.mp isOwn, isNewerNomination_iff ((isSane_iff earlier).mp sane)
          ((isSane_iff nom).mp (coherent.createdSane nom made))]
        exact behind earlier member
    emittedLast := by
      intro sent member
      rcases List.mem_append.mp member with earlier | own
      · exact ⟨nom, rfl, (behind sent earlier).le⟩
      · rw [List.mem_singleton.mp own]
        exact ⟨nom, rfl, le_refl _⟩ }

theorem sendNomination_settles (coherent : Coherent state)
    (spoken : trusted → said localNodeID state = held state) (made : nom ∈ state.created) :
    Settles trusted localNodeID (sendNomination driver nom) state := by
  unfold sendNomination Settles
  rw [wp_bind, wp_get]
  split
  · rename_i newest
    have behind := coherent.emitted_lt made newest
    rw [wp_bind, wp_set]
    split
    · rw [wp_modify]
      exact ⟨coherent.emit made behind, spoken,
        { Grows.refl state with emitted := List.prefix_append _ _ }⟩
    · exact ⟨coherent.last made behind, spoken, { Grows.refl state with }⟩
  · exact ⟨coherent, spoken, Grows.refl state⟩

end

end Send

/-! ### Emitting -/

omit [OrderBot Value] in
theorem isNewerStatement_ahead (coherent : Coherent state)
    {nom : SCPNomination Hash Value} (sane : isSane nom = true)
    (more : said localNodeID state < pledge nom) :
    isNewerStatement state localNodeID nom = true := by
  cases known : state.mLatestNominations.lookup localNodeID with
  | none =>
      unfold isNewerStatement
      rw [known]
  | some own =>
      rw [isNewerStatement_pledge coherent sane known]
      unfold said at more
      rw [known] at more
      exact more

theorem emitNomination_settles (depth : Nat) (state : NominationState NodeID Hash Value)
    (coherent : Coherent state) (ahead : Ahead trusted localNodeID state) :
    Settles trusted localNodeID (emitNomination driver localNodeID depth) state := by
  -- The node's own statement may make its sets grow again, one level deeper.
  induction depth generalizing state with
  | zero => exact ⟨by simp, coherent, Grows.refl state⟩
  | succ depth ih =>
      have own : pledge (ownNomination driver state) = held state := pledge_ownNomination driver state
      have sane : isSane (ownNomination driver state) = true :=
        (isSane_iff _).mpr (sane_ownNomination driver ahead.speaks)
      have created := coherent.create ahead sane own
      have grown : Grows state
          { state with created := state.created ++ [ownNomination driver state] } :=
        { Grows.refl state with created := List.prefix_append _ _ }
      unfold emitNomination Settles
      rw [wp_bind, wp_get, wp_bind, wp_modify, wp_bind]
      by_cases newer : isNewerStatement
          { state with created := state.created ++ [ownNomination driver state] } localNodeID
          (ownNomination driver state) = true
      · have spoken : trusted → said localNodeID
            { state with
              created := state.created ++ [ownNomination driver state]
              mLatestNominations :=
                state.mLatestNominations.insert localNodeID (ownNomination driver state) } =
            held state := by
          intro _
          have now := said_insert localNodeID
            { state with created := state.created ++ [ownNomination driver state] } localNodeID
            (ownNomination driver state)
          rw [if_pos rfl, own] at now
          exact now
        have settles := Settles.bind
          (heed_settles driver ih (created.record newer sane) spoken localNodeID
            (ownNomination driver state))
          fun _ after coherent' spoken' later =>
            sendNomination_settles driver coherent' spoken'
              (later.created.subset (List.mem_append_right _ (List.mem_singleton.mpr rfl)))
        have after := Settles.after (grown.trans (Grows.record created newer sane)) settles
        rw [wp_bind] at after
        rw [wp_processEnvelope driver newer sane]
        simp only [reduceIte]
        exact after
      · -- A statement in the name of the node is in the way.
        have refused : ¬ trusted := by
          intro foreign
          apply newer
          apply isNewerStatement_ahead created sane
          rw [own]
          exact ahead.beyond foreign
        unfold processEnvelope
        rw [wp_bind, wp_get, Bool.eq_false_iff.mpr newer, Bool.false_and]
        exact ⟨fun foreign => absurd foreign refused, created, grown⟩

/-! ### Runs -/

theorem updateRoundLeaders_eq {after : NominationState NodeID Hash Value}
    (ran : updateRoundLeaders driver localNodeID state = .ok after) :
    ∃ leaders, after = { state with mRoundLeaders := leaders } := by
  unfold updateRoundLeaders at ran
  dsimp only at ran
  obtain ⟨topPriority, _, found⟩ := except_bind_ok.mp ran
  obtain ⟨_, _, chosen⟩ := except_bind_ok.mp found
  cases chosen
  exact ⟨_, rfl⟩

omit [OrderBot Value] in
theorem ownVote_voted (coherent : Coherent state) (led : Prop) [Decidable led]
    (value : Value) :
    Voted state (if led then { state with mVotes := insert value state.mVotes } else state)
      (led ∧ value ∉ state.mVotes : Prop) := by
  by_cases leads : led
  · by_cases fresh : value ∈ state.mVotes
    · simpa [leads, fresh] using Voted.start coherent
    · simpa [leads, fresh] using (Voted.start coherent).insertVote fresh
  · simpa [leads] using Voted.start coherent

theorem nominate_settles (depth : Nat) (coherent : Coherent state)
    (spoken : trusted → said localNodeID state = held state) (value previousValue : Value)
    (timedout : Bool) :
    Settles trusted localNodeID (nominate driver localNodeID depth value previousValue timedout) state := by
  unfold nominate Settles
  rw [wp_bind, wp_get]
  split
  · exact ⟨coherent, spoken, Grows.refl state⟩
  · rw [wp_bind, wp_modify, wp_bind, wp_get, wp_bind]
    apply wp_orAbort
    · intro chosen ran
      obtain ⟨leaders, same⟩ := updateRoundLeaders_eq driver ran
      have framed : Coherent chosen := by
        rw [same]
        exact coherent.frame
      have grown : Grows state chosen := by
        rw [same]
        exact Grows.frame
      have spoken' : trusted → said localNodeID chosen = held chosen := by
        rw [same]
        exact spoken
      have voted := ownVote_voted framed (localNodeID ∈ chosen.mRoundLeaders) value
      dsimp only
      rw [wp_bind]
      apply wp_orAbort
      · intro ⟨after, updated⟩ followed
        have led := followLeaders_voted driver _ voted followed
        have coherent' := framed.voted led
        rw [wp_bind, wp_set]
        apply Settles.after (grown.trans led.grows)
        cases updated with
        | false =>
            have same : held after = held chosen := led.changed
            apply Settles.pure coherent'
            intro foreign
            rw [said_of_voted led, spoken' foreign, same]
        | true =>
            have ahead := Ahead.of_voted framed spoken' led
            apply Settles.bind (emitNomination_settles driver depth after coherent' ahead)
            intro _ next coherent'' spoken'' _
            exact Settles.pure coherent'' spoken'' _
      · intro assertion
        exact ⟨by simp, coherent.frame, Grows.frame⟩
    · intro assertion
      exact ⟨by simp, coherent.frame, Grows.frame⟩

theorem perform_settles (depth : Nat) (call : Call NodeID Hash Value)
    (foreign : trusted → call.IsForeign localNodeID) (coherent : Coherent state)
    (spoken : trusted → said localNodeID state = held state) :
    Settles trusted localNodeID (call.perform localNodeID depth) state := by
  cases call with
  | nominate driver value previousValue timedout =>
      apply Settles.bind (nominate_settles driver depth coherent spoken value previousValue timedout)
      intro _ after coherent' spoken' _
      exact Settles.pure coherent' spoken' _
  | processEnvelope driver nodeID nom =>
      apply Settles.bind (processEnvelope_settles driver (emitNomination_settles driver depth)
        coherent spoken foreign nom)
      intro _ after coherent' spoken' _
      exact Settles.pure coherent' spoken' _
  | stopNomination => exact ⟨coherent.frame, spoken, Grows.frame⟩

theorem run_settles (depth : Nat) (calls : List (Call NodeID Hash Value))
    (foreign : trusted → ∀ call ∈ calls, call.IsForeign localNodeID) (coherent : Coherent state)
    (spoken : trusted → said localNodeID state = held state) :
    Settles trusted localNodeID (run localNodeID depth calls) state := by
  induction calls generalizing state with
  | nil => exact Settles.pure coherent spoken _
  | cons call rest ih =>
      apply Settles.bind (perform_settles depth call
        (fun trust => foreign trust call List.mem_cons_self) coherent spoken)
      intro _ after coherent' spoken' _
      exact ih (fun trust other member => foreign trust other (List.mem_cons_of_mem _ member))
        coherent' spoken'

end Settles

theorem run_append {localNodeID : NodeID} (depth : Nat)
    (earlier later : List (Call NodeID Hash Value)) :
    run localNodeID depth (earlier ++ later) =
      run localNodeID depth earlier >>= fun _ => run localNodeID depth later := by
  induction earlier with
  | nil => rfl
  | cons call rest ih =>
      change (call.perform localNodeID depth >>= fun _ => run localNodeID depth (rest ++ later)) = _
      rw [ih]
      exact (bind_assoc _ _ _).symm

theorem coherent_initial :
    Coherent (initial : NominationState NodeID Hash Value) := by
  constructor <;> simp [initial]

section Outcome

variable {α : Type} {trusted : Prop} {localNodeID : NodeID}
  {state : NominationState NodeID Hash Value} {x : NominationM NodeID Hash Value α}

section

omit [OrderBot Value]

theorem Settles.coherent (settles : Settles trusted localNodeID x state) :
    Coherent (finalState x state) := by
  unfold Settles wp at settles
  unfold finalState
  cases ran : x state with
  | ok result after =>
      rw [ran] at settles
      exact settles.1
  | error fault after =>
      rw [ran] at settles
      exact settles.2.1

theorem Settles.grows (settles : Settles trusted localNodeID x state) :
    Grows state (finalState x state) := by
  unfold Settles wp at settles
  unfold finalState
  cases ran : x state with
  | ok result after =>
      rw [ran] at settles
      exact settles.2.2
  | error fault after =>
      rw [ran] at settles
      exact settles.2.2

theorem Settles.neverBad (settles : Settles trusted localNodeID x state) (trust : trusted)
    (after : NominationState NodeID Hash Value) : x state ≠ .error .movedToBadState after := by
  intro ran
  unfold Settles wp at settles
  rw [ran] at settles
  exact settles.1 trust rfl

end

end Outcome

/-- Whatever is nominated and whatever statements are received, in any order: the candidates are
accepted and the accepted values voted for, nothing that is held, recorded or made ever shrinks,
and each statement the node makes of itself is sane and newer than all before it. Where no statement
of the node itself comes from outside, it never moves to a bad state. -/
theorem run_keepsSpeaking (localNodeID : NodeID) (depth : Nat)
    (earlier later : List (Call NodeID Hash Value)) :
    Coherent (finalState (run localNodeID depth (earlier ++ later)) initial) ∧
      Grows (finalState (run localNodeID depth earlier) initial)
        (finalState (run localNodeID depth (earlier ++ later)) initial) ∧
      ((∀ call ∈ earlier ++ later, call.IsForeign localNodeID) →
        ∀ state, run localNodeID depth (earlier ++ later) initial ≠
          .error .movedToBadState state) := by
  have settles (calls : List (Call NodeID Hash Value)) :
      Settles (∀ call ∈ calls, call.IsForeign localNodeID) localNodeID (run localNodeID depth calls)
        initial :=
    run_settles depth calls (fun foreign => foreign) coherent_initial fun _ => rfl
  constructor
  · exact (settles (earlier ++ later)).coherent
  constructor
  · have first := settles earlier
    unfold Settles wp at first
    rw [run_append]
    cases ran : run localNodeID depth earlier initial with
    | ok result between =>
        rw [ran] at first
        -- What is known of the later calls does not rest on who sent the envelopes.
        have rest : Settles False localNodeID (run localNodeID depth later) between :=
          run_settles depth later False.elim first.1 False.elim
        have second := rest.grows
        unfold finalState at second ⊢
        rw [bind_of_ok ran, ran]
        exact second
    | error fault between =>
        -- A fault has ended the run, so what comes later changes nothing.
        have stopped : (run localNodeID depth earlier >>= fun _ => run localNodeID depth later)
            initial = .error fault between := by
          change EStateM.bind _ _ _ = _
          unfold EStateM.bind
          rw [ran]
        unfold finalState
        rw [ran, stopped]
        exact Grows.refl between
  · exact (settles (earlier ++ later)).neverBad

/-! ### A statement in the name of the node -/

/-- The node holds nothing more than what is recorded for it, and yet makes a statement. -/
theorem emitNomination_refused (driver : NominationDriver NodeID Hash Value)
    (localNodeID : NodeID) (depth : Nat)
    {state : NominationState NodeID Hash Value} {known : SCPNomination Hash Value}
    (recorded : state.mLatestNominations.lookup localNodeID = some known) (sane : Sane known)
    (speaks : held state ≠ ⊥) (behind : ¬ pledge known < held state) :
    wp (emitNomination driver localNodeID (depth + 1)) (fun _ _ => False)
      (fun fault _ => fault = .movedToBadState) state := by
  have old : isNewerStatement
      { state with created := state.created ++ [ownNomination driver state] } localNodeID
      (ownNomination driver state) = false := by
    rw [Bool.eq_false_iff]
    intro newer
    unfold isNewerStatement at newer
    rw [recorded] at newer
    have ahead := (isNewerNomination_iff sane (sane_ownNomination driver speaks)).mp newer
    rw [pledge_ownNomination] at ahead
    exact behind ahead
  unfold emitNomination processEnvelope
  rw [wp_bind, wp_get, wp_bind, wp_modify, wp_bind, wp_bind, wp_get, old, Bool.false_and]
  rfl

def loneDriver : NominationDriver Nat Nat Nat where
  quorumSet := .mk 1 [1] []
  quorumSetHash := 0
  getQSet _ := some (.mk 1 [1] [])
  validateValue _ := .kFullyValidatedValue
  extractValidValue value := value
  computeHashNode _ _ _ _ := 1
  computeValueHash _ _ value := value
  combineCandidates values := values.sup id
  isFullyValidated _ := true
  stopsNomination _ := false

/-- Before it nominates anything a statement for two values is recorded for the node. -/
def impersonated : NominationState Nat Nat Nat :=
  { initial with mLatestNominations := (∅ : NominationMap Nat Nat Nat).insert 1 ⟨0, [5, 6], []⟩ }

def impersonatedLeader : NominationState Nat Nat Nat :=
  { impersonated with
    mNominationStarted := true
    mPreviousValue := 9
    mRoundNumber := 1
    mRoundLeaders := {1} }

theorem loneDriver_leads :
    orAbort (updateRoundLeaders loneDriver 1 { impersonatedLeader with mRoundLeaders := ∅ }) =
      (pure impersonatedLeader : NominationM Nat Nat Nat (NominationState Nat Nat Nat)) := by
  have alone : normalizeQSet loneDriver.quorumSet (some 1) = .mk 0 [] [] := by
    simp [normalizeQSet, loneDriver, normalizeQSetSimplify, normalizeQSetSimplifyInner,
      normalizeQuorumSetReorder, normalizeQuorumSetReorderInner, UINT32_MAX]
  unfold updateRoundLeaders
  rw [alone]
  rfl

/-- Of the two values the node takes over one, so its own statement lacks the other. -/
theorem nominate_impersonated :
    isSane (⟨0, [5, 6], []⟩ : SCPNomination Nat Nat) = true ∧
      ∃ state, run 1 8
        [.processEnvelope loneDriver 1 ⟨0, [5, 6], []⟩, .nominate loneDriver 3 9 false] initial =
          .error .movedToBadState state := by
  have bad : wp (run 1 8
      [.processEnvelope loneDriver 1 ⟨0, [5, 6], []⟩, .nominate loneDriver 3 9 false])
      (fun _ _ => False) (fun fault _ => fault = .movedToBadState) initial := by
    have followed : followLeaders loneDriver [1] ({ impersonatedLeader with mVotes := {3} }, true) =
        .ok ({ impersonatedLeader with mVotes := {6, 3} }, true) := rfl
    unfold run
    rw [wp_bind, wp_of_ok (show Call.perform 1 8 (.processEnvelope loneDriver 1 ⟨0, [5, 6], []⟩)
      initial = .ok () impersonated from rfl)]
    unfold run Call.perform
    rw [wp_bind]
    change wp (Functor.map _ _) _ _ _
    rw [wp_map]
    change wp (orAbort (updateRoundLeaders loneDriver 1
      { impersonatedLeader with mRoundLeaders := ∅ }) >>= _) _ _ _
    rw [loneDriver_leads, wp_bind, wp_pure]
    change wp (orAbort (followLeaders loneDriver (Finset.sort {1} (· ≤ ·))
      ({ impersonatedLeader with mVotes := {3} }, true)) >>= _) _ _ _
    rw [Finset.sort_singleton, followed]
    change wp (emitNomination loneDriver 1 8 >>= _) _ _ _
    rw [wp_bind]
    have recorded : ({ impersonatedLeader with mVotes := {6, 3} } :
        NominationState Nat Nat Nat).mLatestNominations.lookup 1 = some ⟨0, [5, 6], []⟩ := by
      decide
    have sane : Sane (⟨0, [5, 6], []⟩ : SCPNomination Nat Nat) :=
      (isSane_iff _).mp (by decide)
    refine wp_mono (emitNomination_refused loneDriver 1 7 recorded sane ?_ ?_)
      (fun _ _ impossible => impossible.elim) fun _ _ bad => bad
    · decide
    · intro behind
      have five : 5 ∈ ({6, 3} : Finset Nat) := behind.le.1 (by decide)
      exact absurd five (by decide)
  refine ⟨by decide, ?_⟩
  unfold wp at bad
  split at bad
  · cases bad
  · rename_i fault after ran
    subst bad
    exact ⟨after, ran⟩

end ViiCore.SCP.Nomination
