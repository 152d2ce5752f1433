import ViiCore.Library.Comparison
import ViiCore.SCP.Blocking

/-!
Normalisation of quorum sets keeps their slices, does nothing a second time, and forgets the order
in which validators and inner sets are listed.

The comparison by which inner sets are sorted is a total order: quorum sets that compare equal are
equal.
-/

namespace ViiCore.SCP

open ViiCore.Comparison

variable {NodeID : Type} [LinearOrder NodeID]

/-! ### The comparison is a total order -/

theorem compareNodes_lawful (node : NodeID) : LawfulAt compareNodes node where
  swap other := by
    unfold compareNodes
    rcases lt_trichotomy node other with below | rfl | above
    · simp [below, below.not_gt]
    · simp
    · simp [above, above.not_gt]
  eq_of_zero other zero := by
    unfold compareNodes at zero
    rcases lt_trichotomy node other with below | same | above
    · simp [below] at zero
    · exact same
    · simp [above, above.not_gt] at zero
  trans second third below notAbove := by
    have before : node < second := by
      unfold compareNodes at below
      by_contra notBefore
      rw [if_neg notBefore] at below
      split at below <;> omega
    have notAfter : second ≤ third := by
      unfold compareNodes at notAbove
      by_contra after
      rw [not_le] at after
      simp [after, after.not_gt] at notAbove
    unfold compareNodes
    rw [if_pos (before.trans_le notAfter)]
    omega

def compareThresholds (left right : Nat) : Int :=
  if left < right then -1 else if left = right then 0 else 1

theorem compareThresholds_lawful (threshold : Nat) : LawfulAt compareThresholds threshold where
  swap other := by
    unfold compareThresholds
    split_ifs <;> omega
  eq_of_zero other zero := by
    unfold compareThresholds at zero
    split_ifs at zero <;> omega
  trans second third below notAbove := by
    unfold compareThresholds at *
    split_ifs at * <;> omega

theorem intLexicographicalCompare_lawful {α : Type} {comp : α → α → Int} (items : List α)
    (lawful : ∀ item ∈ items, LawfulAt comp item) :
    LawfulAt (intLexicographicalCompare comp) items := by
  induction items with
  | nil =>
      constructor
      · intro other
        cases other <;> rfl
      · intro other zero
        cases other with
        | nil => rfl
        | cons head tail => cases zero
      · intro second third below notAbove
        cases second with
        | nil => cases below
        | cons head tail =>
            cases third with
            | nil => simp [intLexicographicalCompare] at notAbove
            | cons next rest => exact below
  | cons item items ih =>
      have head := lawful item List.mem_cons_self
      have tail := ih fun other member => lawful other (List.mem_cons_of_mem item member)
      -- A pair of the first element and the rest is compared in the same way.
      have paired := head.pair tail
      constructor
      · intro other
        cases other with
        | nil => rfl
        | cons next rest => exact paired.swap (next, rest)
      · intro other zero
        cases other with
        | nil => cases zero
        | cons next rest =>
            obtain ⟨rfl, rfl⟩ := Prod.mk.inj (paired.eq_of_zero (next, rest) zero)
            rfl
      · intro second third below notAbove
        cases second with
        | nil => simp [intLexicographicalCompare] at below
        | cons next rest =>
            cases third with
            | nil => simp [intLexicographicalCompare] at notAbove
            | cons last others => exact paired.trans (next, rest) (last, others) below notAbove

theorem qSetCompareIntInner_eq (left right : List (SCPQuorumSet NodeID)) :
    qSetCompareIntInner left right = intLexicographicalCompare qSetCompareInt left right := by
  induction left generalizing right with
  | nil => cases right <;> rw [qSetCompareIntInner, intLexicographicalCompare]
  | cons head tail ih =>
      cases right with
      | nil => rw [qSetCompareIntInner, intLexicographicalCompare]
      | cons next rest => rw [qSetCompareIntInner, intLexicographicalCompare, ih]

def SCPQuorumSet.parts (qSet : SCPQuorumSet NodeID) :
    List NodeID × List (SCPQuorumSet NodeID) × Nat :=
  (qSet.validators, qSet.innerSets, qSet.threshold)

omit [LinearOrder NodeID] in
theorem parts_injective :
    Function.Injective fun qSet : SCPQuorumSet NodeID => qSet.parts := by
  rintro ⟨threshold, validators, innerSets⟩ ⟨threshold', validators', innerSets'⟩ same
  cases same
  rfl

theorem qSetCompareInt_eq (left right : SCPQuorumSet NodeID) :
    qSetCompareInt left right =
      andThen (intLexicographicalCompare compareNodes left.validators right.validators)
        (andThen (intLexicographicalCompare qSetCompareInt left.innerSets right.innerSets)
          (compareThresholds left.threshold right.threshold)) := by
  obtain ⟨threshold, validators, innerSets⟩ := left
  rw [qSetCompareInt, qSetCompareIntInner_eq]
  rfl

theorem qSetCompareInt_lawful (qSet : SCPQuorumSet NodeID) : LawfulAt qSetCompareInt qSet := by
  induction qSet with
  | mk threshold validators innerSets ih =>
      have nodes : LawfulAt (intLexicographicalCompare compareNodes) validators :=
        intLexicographicalCompare_lawful validators fun node _ => compareNodes_lawful node
      have sets := intLexicographicalCompare_lawful innerSets ih
      have paired := nodes.pair (sets.pair (compareThresholds_lawful threshold))
      have compared : LawfulAt _ (SCPQuorumSet.mk threshold validators innerSets) :=
        LawfulAt.comap parts_injective paired
      exact compared.congr qSetCompareInt_eq

/-! ### Sorting validators and inner sets -/

section Reorder

def sortValidators (validators : List NodeID) : List NodeID :=
  validators.mergeSort fun left right => left ≤ right

def sortInner (innerSets : List (SCPQuorumSet NodeID)) : List (SCPQuorumSet NodeID) :=
  innerSets.mergeSort (notAfter qSetCompareInt)

theorem sortValidators_congr {left right : List NodeID} (same : left.Perm right) :
    sortValidators left = sortValidators right := by
  apply mergeSort_congr _ _ _ same
  · intro a b c first second
    simp only [decide_eq_true_eq] at first second ⊢
    exact first.trans second
  · intro a b
    simpa using le_total a b
  · intro a b first second
    simp only [decide_eq_true_eq] at first second
    exact le_antisymm first second

theorem sortInner_congr {left right : List (SCPQuorumSet NodeID)} (same : left.Perm right) :
    sortInner left = sortInner right :=
  mergeSort_congr (notAfter_trans qSetCompareInt_lawful) (notAfter_total qSetCompareInt_lawful)
    (notAfter_antisymm qSetCompareInt_lawful) same

theorem sortValidators_perm (validators : List NodeID) :
    (sortValidators validators).Perm validators :=
  List.mergeSort_perm _ _

theorem sortInner_perm (innerSets : List (SCPQuorumSet NodeID)) :
    (sortInner innerSets).Perm innerSets :=
  List.mergeSort_perm _ _

theorem normalizeQuorumSetReorderInner_eq (innerSets : List (SCPQuorumSet NodeID)) :
    normalizeQuorumSetReorderInner innerSets = innerSets.map normalizeQuorumSetReorder := by
  induction innerSets with
  | nil => rw [normalizeQuorumSetReorderInner, List.map_nil]
  | cons head tail ih => rw [normalizeQuorumSetReorderInner, ih, List.map_cons]

theorem normalizeQuorumSetReorder_mk (threshold : Nat) (validators : List NodeID)
    (innerSets : List (SCPQuorumSet NodeID)) :
    normalizeQuorumSetReorder (.mk threshold validators innerSets) =
      .mk threshold (sortValidators validators)
        (sortInner (innerSets.map normalizeQuorumSetReorder)) := by
  rw [normalizeQuorumSetReorder, normalizeQuorumSetReorderInner_eq]
  rfl

theorem reorder_reorder (qSet : SCPQuorumSet NodeID) :
    normalizeQuorumSetReorder (normalizeQuorumSetReorder qSet) = normalizeQuorumSetReorder qSet := by
  induction qSet with
  | mk threshold validators innerSets ih =>
      rw [normalizeQuorumSetReorder_mk, normalizeQuorumSetReorder_mk]
      have fixed : (sortInner (innerSets.map normalizeQuorumSetReorder)).map
          normalizeQuorumSetReorder = sortInner (innerSets.map normalizeQuorumSetReorder) := by
        have same : ∀ set ∈ sortInner (innerSets.map normalizeQuorumSetReorder),
            normalizeQuorumSetReorder set = id set := by
          intro set member
          obtain ⟨inner, present, rfl⟩ := List.mem_map.mp ((sortInner_perm _).subset member)
          exact ih inner present
        rw [List.map_congr_left same, List.map_id]
      rw [fixed, sortValidators_congr (sortValidators_perm validators),
        sortInner_congr (sortInner_perm _)]

end Reorder

/-! ### Slices are kept -/

section Slices

variable (nodes : List NodeID)

theorem isQuorumSlice_congr_passing {threshold : Nat} {validators validators' : List NodeID}
    {innerSets innerSets' : List (SCPQuorumSet NodeID)}
    (same : passing validators innerSets (fun node => node ∈ nodes) (isQuorumSlice nodes) =
      passing validators' innerSets' (fun node => node ∈ nodes) (isQuorumSlice nodes)) :
    isQuorumSlice nodes (.mk threshold validators innerSets) =
      isQuorumSlice nodes (.mk threshold validators' innerSets') := by
  rw [isQuorumSlice_eq_countdown, isQuorumSlice_eq_countdown, same]

theorem isQuorumSlice_reorder (qSet : SCPQuorumSet NodeID) :
    isQuorumSlice nodes (normalizeQuorumSetReorder qSet) = isQuorumSlice nodes qSet := by
  induction qSet with
  | mk threshold validators innerSets ih =>
      rw [normalizeQuorumSetReorder_mk]
      apply isQuorumSlice_congr_passing
      unfold passing
      rw [(sortValidators_perm validators).countP_eq, (sortInner_perm _).countP_eq,
        List.countP_map]
      congr 1
      apply List.countP_congr
      intro inner member
      rw [Function.comp_apply, ih inner member]

omit [LinearOrder NodeID] in
theorem sliceCountdown_one (hit : Bool) : sliceCountdown 1 [hit] = hit := by
  have last : decrement32 1 = 0 := decrement32_succ 0 (Nat.zero_le _)
  cases hit <;> simp [sliceCountdown, last]

theorem isQuorumSlice_sole {qSet : SCPQuorumSet NodeID} {validator : NodeID}
    (sole : soleValidator qSet = some validator) :
    isQuorumSlice nodes qSet = decide (validator ∈ nodes) := by
  unfold soleValidator at sole
  split at sole
  · cases sole
    rw [isQuorumSlice, isQuorumSliceInner, List.append_nil]
    exact sliceCountdown_one _
  · cases sole

theorem isQuorumSlice_lone (inner : SCPQuorumSet NodeID) :
    isQuorumSlice nodes (.mk 1 [] [inner]) = isQuorumSlice nodes inner := by
  rw [isQuorumSlice, isQuorumSliceInner, isQuorumSliceInner]
  exact sliceCountdown_one _

end Slices

/-! ### Simplifying -/

section Simplify

/-- A quorum set that only asks for one inner set is that inner set. -/
def liftLone (threshold : Nat) (v : List NodeID) (i : List (SCPQuorumSet NodeID)) :
    SCPQuorumSet NodeID :=
  match threshold, v, i with
  | 1, [], [inner] => inner
  | threshold, v, i => .mk threshold v i

theorem normalizeQSetSimplifyInner_eq (idToRemove : Option NodeID)
    (innerSets : List (SCPQuorumSet NodeID)) :
    normalizeQSetSimplifyInner idToRemove innerSets =
      innerSets.map (normalizeQSetSimplify idToRemove) := by
  induction innerSets with
  | nil => rw [normalizeQSetSimplifyInner, List.map_nil]
  | cons head tail ih => rw [normalizeQSetSimplifyInner, ih, List.map_cons]

def soles (sets : List (SCPQuorumSet NodeID)) : List NodeID := sets.filterMap soleValidator

def composed (sets : List (SCPQuorumSet NodeID)) : List (SCPQuorumSet NodeID) :=
  sets.filter fun inner => (soleValidator inner).isNone

theorem normalizeQSetSimplify_mk (threshold : Nat) (validators : List NodeID)
    (innerSets : List (SCPQuorumSet NodeID)) :
    normalizeQSetSimplify none (.mk threshold validators innerSets) =
      liftLone (threshold % 2 ^ 32)
        (validators ++ soles (innerSets.map (normalizeQSetSimplify none)))
        (composed (innerSets.map (normalizeQSetSimplify none))) := by
  rw [normalizeQSetSimplify]
  have kept : (validators.filter fun validator => some validator ≠ none) = validators := by
    simp
  have small : (threshold + (UINT32_MAX + 1) - (validators.length - validators.length)) %
      (UINT32_MAX + 1) = threshold % 2 ^ 32 := by
    simp [UINT32_MAX]
  simp only [kept, small, normalizeQSetSimplifyInner_eq]
  rfl

variable {threshold : Nat} {v : List NodeID} {i : List (SCPQuorumSet NodeID)}

omit [LinearOrder NodeID] in
theorem liftLone_cases (threshold : Nat) (v : List NodeID) (i : List (SCPQuorumSet NodeID)) :
    (∃ inner, threshold = 1 ∧ v = [] ∧ i = [inner] ∧
      liftLone threshold v i = inner) ∨
    (¬ (threshold = 1 ∧ v = [] ∧ ∃ inner, i = [inner]) ∧
      liftLone threshold v i = .mk threshold v i) := by
  unfold liftLone
  split
  · rename_i inner
    exact .inl ⟨inner, rfl, rfl, rfl, rfl⟩
  · rename_i other
    refine .inr ⟨?_, rfl⟩
    rintro ⟨rfl, rfl, inner, rfl⟩
    exact other inner rfl rfl rfl

theorem isQuorumSlice_liftLone (nodes : List NodeID) :
    isQuorumSlice nodes (liftLone threshold v i) = isQuorumSlice nodes (.mk threshold v i) := by
  obtain ⟨inner, rfl, rfl, rfl, lifted⟩ | ⟨-, same⟩ := liftLone_cases threshold v i
  · rw [lifted, isQuorumSlice_lone]
  · rw [same]

theorem passing_soles (nodes : List NodeID) (sets : List (SCPQuorumSet NodeID)) :
    (soles sets).countP (fun node => node ∈ nodes) +
        (composed sets).countP (isQuorumSlice nodes) = sets.countP (isQuorumSlice nodes) := by
  induction sets with
  | nil => rfl
  | cons head tail ih =>
      unfold soles composed at ih ⊢
      cases sole : soleValidator head with
      | none =>
          rw [List.filterMap_cons_none sole, List.filter_cons_of_pos (by simp [sole]),
            List.countP_cons, List.countP_cons]
          omega
      | some validator =>
          rw [List.filterMap_cons_some sole, List.filter_cons_of_neg (by simp [sole]),
            List.countP_cons, List.countP_cons, isQuorumSlice_sole nodes sole]
          omega

inductive Fits : SCPQuorumSet NodeID → Prop
  | mk {threshold : Nat} {validators : List NodeID} {innerSets : List (SCPQuorumSet NodeID)}
      (here : threshold < 2 ^ 32) (inner : ∀ inner ∈ innerSets, Fits inner) :
      Fits (.mk threshold validators innerSets)

omit [LinearOrder NodeID] in
theorem Sane.fits {qSet : SCPQuorumSet NodeID} (sane : Sane qSet) : Fits qSet := by
  induction qSet with
  | mk threshold validators innerSets ih =>
      have entries := sane.meetable.entries_le
      obtain ⟨-, reachable, -⟩ := sane.meetable
      have few := sane.few
      simp only [SCPQuorumSet.validators, SCPQuorumSet.innerSets] at entries
      exact .mk (by omega) fun inner member => ih inner member (sane.inner member)

theorem isQuorumSlice_simplify_fits (nodes : List NodeID) {qSet : SCPQuorumSet NodeID}
    (fits : Fits qSet) :
    isQuorumSlice nodes (normalizeQSetSimplify none qSet) = isQuorumSlice nodes qSet := by
  induction qSet with
  | mk threshold validators innerSets ih =>
      obtain ⟨here, inner⟩ := fits
      rw [normalizeQSetSimplify_mk, isQuorumSlice_liftLone, Nat.mod_eq_of_lt here]
      apply isQuorumSlice_congr_passing
      unfold passing
      rw [List.countP_append, Nat.add_assoc, passing_soles, List.countP_map]
      congr 1
      apply List.countP_congr
      intro set member
      rw [Function.comp_apply, ih set member (inner set member)]

theorem isQuorumSlice_simplify (nodes : List NodeID) {qSet : SCPQuorumSet NodeID}
    (sane : Sane qSet) :
    isQuorumSlice nodes (normalizeQSetSimplify none qSet) = isQuorumSlice nodes qSet :=
  isQuorumSlice_simplify_fits nodes sane.fits

/-! ### A second time -/

inductive Simplified : SCPQuorumSet NodeID → Prop
  | mk {threshold : Nat} {validators : List NodeID} {innerSets : List (SCPQuorumSet NodeID)}
      (fits : threshold < 2 ^ 32)
      (notLone : ¬ (threshold = 1 ∧ validators = [] ∧ ∃ inner, innerSets = [inner]))
      (notSole : ∀ inner ∈ innerSets, soleValidator inner = none)
      (inner : ∀ inner ∈ innerSets, Simplified inner) :
      Simplified (.mk threshold validators innerSets)

theorem simplify_simplified (qSet : SCPQuorumSet NodeID) :
    Simplified (normalizeQSetSimplify none qSet) := by
  induction qSet with
  | mk threshold validators innerSets ih =>
      have each : ∀ inner ∈ composed (innerSets.map (normalizeQSetSimplify none)),
          soleValidator inner = none ∧ Simplified inner := by
        intro inner member
        obtain ⟨present, notSole⟩ := List.mem_filter.mp member
        obtain ⟨set, known, rfl⟩ := List.mem_map.mp present
        exact ⟨Option.isNone_iff_eq_none.mp notSole, ih set known⟩
      rw [normalizeQSetSimplify_mk]
      rcases liftLone_cases (threshold % 2 ^ 32)
          (validators ++ soles (innerSets.map (normalizeQSetSimplify none)))
          (composed (innerSets.map (normalizeQSetSimplify none))) with
        ⟨inner, -, -, lone, lifted⟩ | ⟨notLone, same⟩
      · rw [lifted]
        exact (each inner (by rw [lone]; exact List.mem_singleton_self inner)).2
      · rw [same]
        exact .mk (Nat.mod_lt _ (by decide)) notLone (fun inner member => (each inner member).1)
          fun inner member => (each inner member).2

theorem simplify_of_simplified {qSet : SCPQuorumSet NodeID} (simplified : Simplified qSet) :
    normalizeQSetSimplify none qSet = qSet := by
  induction qSet with
  | mk threshold validators innerSets ih =>
      obtain ⟨fits, notLone, notSole, inner⟩ := simplified
      have fixed : innerSets.map (normalizeQSetSimplify none) = innerSets := by
        have same : ∀ set ∈ innerSets, normalizeQSetSimplify none set = id set :=
          fun set member => ih set member (inner set member)
        rw [List.map_congr_left same, List.map_id]
      have noSoles : soles innerSets = [] := List.filterMap_eq_nil_iff.mpr notSole
      have all : composed innerSets = innerSets := by
        apply List.filter_eq_self.mpr
        intro set member
        rw [notSole set member]
        rfl
      rw [normalizeQSetSimplify_mk, fixed, noSoles, all, List.append_nil, Nat.mod_eq_of_lt fits]
      obtain ⟨set, one, empty, lone, -⟩ | ⟨-, same⟩ := liftLone_cases threshold validators innerSets
      · exact absurd ⟨one, empty, set, lone⟩ notLone
      · exact same

omit [LinearOrder NodeID] in
theorem soleValidator_eq_some {threshold : Nat} {validators : List NodeID}
    {innerSets : List (SCPQuorumSet NodeID)} {validator : NodeID} :
    soleValidator (.mk threshold validators innerSets) = some validator ↔
      threshold = 1 ∧ validators = [validator] ∧ innerSets = [] := by
  unfold soleValidator
  split
  · rename_i only shape
    cases shape
    simp
  · rename_i other
    constructor
    · intro impossible
      cases impossible
    · rintro ⟨rfl, rfl, rfl⟩
      exact absurd rfl (other validator)

theorem soleValidator_reorder (qSet : SCPQuorumSet NodeID) :
    soleValidator (normalizeQuorumSetReorder qSet) = soleValidator qSet := by
  obtain ⟨threshold, validators, innerSets⟩ := qSet
  have nodes := sortValidators_perm validators
  have sets := sortInner_perm (innerSets.map normalizeQuorumSetReorder)
  rw [normalizeQuorumSetReorder_mk]
  apply Option.ext
  intro validator
  rw [soleValidator_eq_some, soleValidator_eq_some]
  have sameNodes : sortValidators validators = [validator] ↔ validators = [validator] := by
    constructor
    · intro sorted
      rw [sorted] at nodes
      exact nodes.symm.eq_singleton
    · intro only
      rw [only] at nodes ⊢
      exact nodes.eq_singleton
  have sameSets : sortInner (innerSets.map normalizeQuorumSetReorder) = [] ↔ innerSets = [] := by
    rw [← List.length_eq_zero_iff, sets.length_eq, List.length_map, List.length_eq_zero_iff]
  rw [sameNodes, sameSets]

theorem simplified_reorder {qSet : SCPQuorumSet NodeID} (simplified : Simplified qSet) :
    Simplified (normalizeQuorumSetReorder qSet) := by
  induction qSet with
  | mk threshold validators innerSets ih =>
      obtain ⟨fits, notLone, notSole, inner⟩ := simplified
      have sets := sortInner_perm (innerSets.map normalizeQuorumSetReorder)
      rw [normalizeQuorumSetReorder_mk]
      refine .mk fits ?_ ?_ ?_
      · rintro ⟨one, empty, lone, sorted⟩
        refine notLone ⟨one, ?_, ?_⟩
        · rw [← List.length_eq_zero_iff, ← (sortValidators_perm validators).length_eq, empty]
          rfl
        · apply List.length_eq_one_iff.mp
          have length := sets.length_eq
          rw [sorted, List.length_map] at length
          exact length.symm
      · intro set member
        obtain ⟨before, present, rfl⟩ := List.mem_map.mp (sets.subset member)
        rw [soleValidator_reorder]
        exact notSole before present
      · intro set member
        obtain ⟨before, present, rfl⟩ := List.mem_map.mp (sets.subset member)
        exact ih before present (inner before present)

theorem normalizeQSet_normalizeQSet (qSet : SCPQuorumSet NodeID) :
    normalizeQSet (normalizeQSet qSet none) none = normalizeQSet qSet none := by
  have simplified := simplified_reorder (simplify_simplified qSet)
  rw [normalizeQSet, normalizeQSet, simplify_of_simplified simplified, reorder_reorder]

end Simplify

/-! ### The order of the entries does not matter -/

/-- Quorum sets that differ only by permuting validators and inner sets, at any level. -/
inductive Permuted : SCPQuorumSet NodeID → SCPQuorumSet NodeID → Prop
  | validators {threshold : Nat} {validators validators' : List NodeID}
      {innerSets : List (SCPQuorumSet NodeID)} (perm : validators.Perm validators') :
      Permuted (.mk threshold validators innerSets) (.mk threshold validators' innerSets)
  | innerSets {threshold : Nat} {validators : List NodeID}
      {innerSets innerSets' : List (SCPQuorumSet NodeID)} (perm : innerSets.Perm innerSets') :
      Permuted (.mk threshold validators innerSets) (.mk threshold validators innerSets')
  | inside {threshold : Nat} {validators : List NodeID}
      {before after : List (SCPQuorumSet NodeID)} {inner inner' : SCPQuorumSet NodeID}
      (permuted : Permuted inner inner') :
      Permuted (.mk threshold validators (before ++ inner :: after))
        (.mk threshold validators (before ++ inner' :: after))
  | trans {first second third : SCPQuorumSet NodeID} (early : Permuted first second)
      (late : Permuted second third) : Permuted first third

/-- Lifting a lone inner set and sorting, for entries that are the same in some order once sorted
inside. -/
theorem reorder_liftLone {threshold : Nat} {v v' : List NodeID} {i i' : List (SCPQuorumSet NodeID)}
    (nodes : v.Perm v')
    (sets : (i.map normalizeQuorumSetReorder).Perm (i'.map normalizeQuorumSetReorder)) :
    normalizeQuorumSetReorder (liftLone threshold v i) =
      normalizeQuorumSetReorder (liftLone threshold v' i') := by
  have count : i.length = i'.length := by simpa using sets.length_eq
  obtain ⟨inner, rfl, rfl, rfl, lifted⟩ | ⟨notLone, same⟩ := liftLone_cases threshold v i
  · obtain ⟨inner', rfl⟩ := List.length_eq_one_iff.mp count.symm
    have equal : normalizeQuorumSetReorder inner = normalizeQuorumSetReorder inner' := by
      simpa using sets
    rw [lifted, nodes.symm.eq_nil]
    exact equal
  · obtain ⟨inner', one, empty, lone, -⟩ | ⟨-, same'⟩ := liftLone_cases threshold v' i'
    · refine absurd ⟨one, ?_, ?_⟩ notLone
      · rw [empty] at nodes
        exact nodes.eq_nil
      · rw [lone] at count
        exact List.length_eq_one_iff.mp count
    · rw [same, same', normalizeQuorumSetReorder_mk, normalizeQuorumSetReorder_mk,
        sortValidators_congr nodes, sortInner_congr sets]

theorem normalizeQSet_mk (threshold : Nat) (validators : List NodeID)
    (innerSets : List (SCPQuorumSet NodeID)) :
    normalizeQSet (.mk threshold validators innerSets) none =
      normalizeQuorumSetReorder (liftLone (threshold % 2 ^ 32)
        (validators ++ soles (innerSets.map (normalizeQSetSimplify none)))
        (composed (innerSets.map (normalizeQSetSimplify none)))) := by
  rw [normalizeQSet, normalizeQSetSimplify_mk]

theorem normalizeQSet_permuted {qSet qSet' : SCPQuorumSet NodeID} (permuted : Permuted qSet qSet') :
    normalizeQSet qSet none = normalizeQSet qSet' none := by
  induction permuted with
  | validators perm =>
      rw [normalizeQSet_mk, normalizeQSet_mk]
      exact reorder_liftLone (perm.append_right _) (List.Perm.refl _)
  | innerSets perm =>
      rw [normalizeQSet_mk, normalizeQSet_mk]
      have simplified := perm.map (normalizeQSetSimplify none)
      exact reorder_liftLone ((simplified.filterMap _).append_left _)
        ((simplified.filter _).map _)
  | @inside threshold validators before after inner inner' permuted ih =>
      rw [normalizeQSet_mk, normalizeQSet_mk]
      have sole : soleValidator (normalizeQSetSimplify none inner) =
          soleValidator (normalizeQSetSimplify none inner') := by
        rw [← soleValidator_reorder, ← soleValidator_reorder (normalizeQSetSimplify none inner')]
        exact congrArg soleValidator ih
      apply reorder_liftLone
      · simp only [soles, List.map_append, List.map_cons, List.filterMap_append,
          List.filterMap_cons, sole]
        exact List.Perm.refl _
      · cases held : soleValidator (normalizeQSetSimplify none inner') with
        | some validator =>
            simp only [composed, List.map_append, List.map_cons, List.filter_append,
              List.filter_cons, sole, held]
            exact List.Perm.refl _
        | none =>
            have same : normalizeQuorumSetReorder (normalizeQSetSimplify none inner) =
                normalizeQuorumSetReorder (normalizeQSetSimplify none inner') := ih
            simp only [composed, List.map_append, List.map_cons, List.filter_append,
              List.filter_cons, sole, held, Option.isNone_none, if_true, same]
            exact List.Perm.refl _
  | trans early late ihEarly ihLate => rw [ihEarly, ihLate]

/-- Normalising a sane quorum set keeps its slices, does nothing a second time, and gives the same
for quorum sets that differ only in the order of their entries. -/
theorem normalizeQSet_canonical (qSet : SCPQuorumSet NodeID) (extraChecks : Bool)
    (sane : isQuorumSetSane qSet extraChecks = true) :
    (∀ nodes, isQuorumSlice nodes (normalizeQSet qSet none) = isQuorumSlice nodes qSet) ∧
    normalizeQSet (normalizeQSet qSet none) none = normalizeQSet qSet none ∧
    ∀ qSet', Permuted qSet qSet' → normalizeQSet qSet none = normalizeQSet qSet' none := by
  refine ⟨?_, normalizeQSet_normalizeQSet qSet, fun qSet' permuted => normalizeQSet_permuted permuted⟩
  intro nodes
  rw [normalizeQSet, isQuorumSlice_reorder,
    isQuorumSlice_simplify nodes (sane_of_isQuorumSetSane sane)]

/-- An inner set of one node becomes a validator and the lone inner set that is left is lifted. -/
theorem normalizeQSet_canonical_nested :
    normalizeQSet (.mk 1 [] [.mk 2 [5] [.mk 1 [3] [], .mk 2 [8, 7] []]]) none =
        .mk 2 [3, 5] [.mk 2 [7, 8] []] ∧
      ∀ nodes, isQuorumSlice nodes (.mk 2 [3, 5] [.mk 2 [7, 8] []]) =
        isQuorumSlice nodes (.mk 1 [] [.mk 2 [5] [.mk 1 [3] [], .mk 2 [8, 7] []]]) := by
  have normal : normalizeQSet (.mk 1 [] [.mk 2 [5] [.mk 1 [3] [], .mk 2 [8, 7] []]]) none =
      .mk 2 [3, 5] [.mk 2 [7, 8] []] := by
    simp [normalizeQSet_mk, normalizeQSetSimplify_mk, soles, composed, soleValidator, liftLone,
      normalizeQuorumSetReorder_mk, sortValidators, sortInner, List.mergeSort,
      List.MergeSort.Internal.splitInTwo]
  obtain ⟨slices, -, -⟩ := normalizeQSet_canonical
    (.mk 1 [] [.mk 2 [5] [.mk 1 [3] [], .mk 2 [8, 7] []]]) false (by decide)
  rw [normal] at slices
  exact ⟨normal, slices⟩

end ViiCore.SCP
