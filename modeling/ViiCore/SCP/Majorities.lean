import ViiCore.SCP.Normalization

/-!
Quorum sets whose thresholds are majorities at every level: any two of their slices have a node in
common. The sanity check with extra checks asks for such a quorum set, nested at most two deep, with
different nodes. Normalisation keeps all of this.
-/

namespace ViiCore.SCP

variable {NodeID : Type}

/-- More than half of the entries are asked for, here and in all inner sets. -/
inductive Majority : SCPQuorumSet NodeID → Prop
  | mk {threshold : Nat} {validators : List NodeID} {innerSets : List (SCPQuorumSet NodeID)}
      (reachable : threshold ≤ validators.length + innerSets.length)
      (majority : validators.length + innerSets.length < 2 * threshold)
      (inner : ∀ inner ∈ innerSets, Majority inner) :
      Majority (.mk threshold validators innerSets)

theorem Majority.meetable {qSet : SCPQuorumSet NodeID} (majority : Majority qSet) :
    Meetable qSet := by
  induction qSet with
  | mk threshold validators innerSets ih =>
      obtain ⟨reachable, half, inner⟩ := majority
      exact .mk (by omega) reachable fun set member => ih set member (inner set member)

def NestedWithin : Nat → SCPQuorumSet NodeID → Prop
  | 0, qSet => qSet.innerSets = []
  | depth + 1, qSet => ∀ inner ∈ qSet.innerSets, NestedWithin depth inner

theorem NestedWithin.succ {depth : Nat} {qSet : SCPQuorumSet NodeID}
    (within : NestedWithin depth qSet) : NestedWithin (depth + 1) qSet := by
  induction depth generalizing qSet with
  | zero =>
      intro inner member
      rw [show qSet.innerSets = [] from within] at member
      cases member
  | succ depth ih =>
      intro inner member
      exact ih (within inner member)

theorem NestedWithin.mono {depth deeper : Nat} {qSet : SCPQuorumSet NodeID}
    (within : NestedWithin depth qSet) (le : depth ≤ deeper) : NestedWithin deeper qSet := by
  induction le with
  | refl => exact within
  | step _ ih => exact ih.succ

/-! ### Slices intersect -/

theorem exists_both {α : Type} (first second : α → Bool) (items : List α)
    (more : items.length < items.countP first + items.countP second) :
    ∃ item ∈ items, first item = true ∧ second item = true := by
  induction items with
  | nil => cases more
  | cons head tail ih =>
      rw [List.countP_cons, List.countP_cons, List.length_cons] at more
      by_cases both : first head = true ∧ second head = true
      · exact ⟨head, List.mem_cons_self, both⟩
      · have notBoth : (if first head = true then 1 else 0) +
            (if second head = true then 1 else 0) ≤ 1 := by
          split_ifs with one two
          · exact absurd ⟨one, two⟩ both
          all_goals omega
        obtain ⟨item, member, found⟩ := ih (by omega)
        exact ⟨item, List.mem_cons_of_mem head member, found⟩

variable [DecidableEq NodeID]

theorem passing_of_slice {threshold : Nat} {validators : List NodeID}
    {innerSets : List (SCPQuorumSet NodeID)} {nodes : List NodeID} (positive : 1 ≤ threshold)
    (fits : threshold < 2 ^ 32)
    (slice : isQuorumSlice nodes (.mk threshold validators innerSets) = true) :
    threshold ≤ passing validators innerSets (fun node => node ∈ nodes) (isQuorumSlice nodes) := by
  rw [isQuorumSlice_eq_countdown, sliceCountdown_iff positive (Nat.le_of_lt_succ fits),
    List.count_replicate_self] at slice
  exact slice

theorem Majority.intersects {qSet : SCPQuorumSet NodeID} (majority : Majority qSet)
    (fits : Fits qSet) {first second : List NodeID} (one : isQuorumSlice first qSet = true)
    (two : isQuorumSlice second qSet = true) : ∃ node, node ∈ first ∧ node ∈ second := by
  induction qSet with
  | mk threshold validators innerSets ih =>
      obtain ⟨reachable, half, inner⟩ := majority
      obtain ⟨here, fitsInner⟩ := fits
      have passOne := passing_of_slice (by omega) here one
      have passTwo := passing_of_slice (by omega) here two
      unfold passing at passOne passTwo
      by_cases byValidator : validators.length <
          validators.countP (fun node => node ∈ first) + validators.countP fun node => node ∈ second
      · obtain ⟨node, -, inFirst, inSecond⟩ := exists_both _ _ validators byValidator
        exact ⟨node, of_decide_eq_true inFirst, of_decide_eq_true inSecond⟩
      · obtain ⟨set, member, inFirst, inSecond⟩ :=
          exists_both (isQuorumSlice first) (isQuorumSlice second) innerSets (by omega)
        exact ih set member (inner set member) (fitsInner set member) inFirst inSecond

/-! ### The sanity check -/

theorem insertKnownNodes_isSome {known validators : List NodeID}
    (distinct : (validators ++ known).Nodup) :
    ∃ after, insertKnownNodes known validators = some after := by
  induction validators generalizing known with
  | nil => exact ⟨known, rfl⟩
  | cons node rest ih =>
      obtain ⟨fresh, restDistinct⟩ := List.nodup_cons.mp distinct
      rw [insertKnownNodes, if_neg fun old => fresh (List.mem_append_right rest old)]
      apply ih
      rw [List.perm_middle.nodup_iff]
      exact distinct

theorem checkSanityInner_each {extraChecks : Bool} {depth : Nat} {before after : SanityState NodeID}
    {innerSets : List (SCPQuorumSet NodeID)}
    (passed : checkSanityInner extraChecks depth before innerSets = some after)
    {inner : SCPQuorumSet NodeID} (member : inner ∈ innerSets) :
    ∃ start finish, checkSanity extraChecks depth start inner = some finish := by
  induction innerSets generalizing before with
  | nil => cases member
  | cons head tail ih =>
      rw [checkSanityInner] at passed
      split at passed
      · cases passed
      · rename_i middle first
        rcases List.mem_cons.mp member with rfl | later
        · exact ⟨before, middle, first⟩
        · exact ih passed later

theorem checkSanity_shape {depth : Nat} {before after : SanityState NodeID}
    {qSet : SCPQuorumSet NodeID} (passed : checkSanity true depth before qSet = some after) :
    depth ≤ 2 ∧ NestedWithin (2 - depth) qSet ∧ Majority qSet := by
  induction qSet generalizing depth before after with
  | mk threshold validators innerSets ih =>
      rw [checkSanity] at passed
      split at passed
      · cases passed
      rename_i shallow
      split at passed
      · cases passed
      split at passed
      · cases passed
      rename_i reachable
      split at passed
      · cases passed
      rename_i half
      split at passed
      · cases passed
      have each : ∀ inner ∈ innerSets,
          depth + 1 ≤ 2 ∧ NestedWithin (2 - (depth + 1)) inner ∧ Majority inner := by
        intro inner member
        obtain ⟨start, finish, checked⟩ := checkSanityInner_each passed member
        exact ih inner member checked
      refine ⟨by omega, ?_, ?_⟩
      · obtain rfl | left : depth = 2 ∨ 2 - depth = 2 - (depth + 1) + 1 := by omega
        · apply List.eq_nil_iff_forall_not_mem.mpr
          intro inner member
          have impossible := (each inner member).1
          omega
        · rw [left]
          exact fun inner member => (each inner member).2.1
      · refine .mk (by omega) ?_ fun inner member => (each inner member).2.2
        by_contra few
        exact half ⟨rfl, by omega⟩

theorem checkSanityInner_isSome {depth : Nat} {before : SanityState NodeID}
    {innerSets : List (SCPQuorumSet NodeID)}
    (each : ∀ inner ∈ innerSets, ∀ start : SanityState NodeID,
      (allNodes inner ++ start.knownNodes).Nodup →
        ∃ finish, checkSanity true depth start inner = some finish)
    (distinct : (innerSets.flatMap allNodes ++ before.knownNodes).Nodup) :
    ∃ after, checkSanityInner true depth before innerSets = some after := by
  induction innerSets generalizing before with
  | nil => exact ⟨before, rfl⟩
  | cons head tail ih =>
      rw [List.flatMap_cons, List.append_assoc] at distinct
      have swapped : (allNodes head ++ (tail.flatMap allNodes ++ before.knownNodes)).Perm
          (tail.flatMap allNodes ++ (allNodes head ++ before.knownNodes)) := by
        rw [← List.append_assoc, ← List.append_assoc]
        exact List.perm_append_comm.append_right _
      have apart := swapped.nodup_iff.mp distinct
      obtain ⟨middle, first⟩ := each head List.mem_cons_self before
        (apart.sublist (List.sublist_append_right _ _))
      have known := (checkSanity_checked head depth before middle first).1.known
      obtain ⟨after, rest⟩ := ih
        (fun inner member => each inner (List.mem_cons_of_mem head member))
        ((known.append_left (tail.flatMap allNodes)).nodup_iff.mpr apart)
      refine ⟨after, ?_⟩
      rw [checkSanityInner, first]
      exact rest

theorem checkSanity_isSome {depth : Nat} {before : SanityState NodeID} {qSet : SCPQuorumSet NodeID}
    (shallow : depth ≤ 2) (within : NestedWithin (2 - depth) qSet) (majority : Majority qSet)
    (distinct : (allNodes qSet ++ before.knownNodes).Nodup) :
    ∃ after, checkSanity true depth before qSet = some after := by
  induction qSet generalizing depth before with
  | mk threshold validators innerSets ih =>
      obtain ⟨reachable, half, inner⟩ := majority
      rw [allNodes_mk] at distinct
      have swapped : (validators ++ innerSets.flatMap allNodes ++ before.knownNodes).Perm
          (innerSets.flatMap allNodes ++ (validators ++ before.knownNodes)) := by
        rw [← List.append_assoc]
        exact List.perm_append_comm.append_right _
      have apart := swapped.nodup_iff.mp distinct
      obtain ⟨known, inserted⟩ := insertKnownNodes_isSome
        (apart.sublist (List.sublist_append_right _ _))
      have perm := (insertKnownNodes_some inserted).1
      have nested : ∀ set ∈ innerSets, depth + 1 ≤ 2 ∧ NestedWithin (2 - (depth + 1)) set := by
        obtain rfl | left : depth = 2 ∨ 2 - depth = 2 - (depth + 1) + 1 := by omega
        · intro set member
          rw [show innerSets = [] from within] at member
          cases member
        · rw [left] at within
          exact fun set member => ⟨by omega, within set member⟩
      rw [checkSanity, if_neg (by omega), if_neg (by omega), if_neg (by omega),
        if_neg (fun few => by omega), inserted]
      apply checkSanityInner_isSome
      · intro set member start fresh
        obtain ⟨deeper, setWithin⟩ := nested set member
        exact ih set member deeper setWithin (inner set member) fresh
      · exact (perm.append_left _).nodup_iff.mpr apart

theorem isQuorumSetSane_iff (qSet : SCPQuorumSet NodeID) :
    isQuorumSetSane qSet true = true ↔
      NestedWithin 2 qSet ∧ Majority qSet ∧ (allNodes qSet).Nodup ∧ (allNodes qSet).length ≤ 1000 := by
  constructor
  · intro sane
    have good := sane_of_isQuorumSetSane sane
    unfold isQuorumSetSane at sane
    split at sane
    · cases sane
    · rename_i state passed
      obtain ⟨-, within, majority⟩ := checkSanity_shape passed
      exact ⟨within, majority, good.distinct, good.few⟩
  · intro ⟨within, majority, distinct, few⟩
    obtain ⟨state, passed⟩ := @checkSanity_isSome _ _ 0 ⟨[], 0⟩ qSet (Nat.zero_le 2) within majority
      (by rw [List.append_nil]; exact distinct)
    have counted := (checkSanity_checked _ _ _ _ passed).1.count
    have entries := majority.meetable.entries_le
    unfold isQuorumSetSane
    rw [passed]
    rw [Nat.zero_add] at counted
    exact decide_eq_true (by omega)

/-! ### Normalisation -/

section Normal

variable {Node : Type} [LinearOrder Node]

theorem NestedWithin.reorder_iff (depth : Nat) (qSet : SCPQuorumSet Node) :
    NestedWithin depth (normalizeQuorumSetReorder qSet) ↔ NestedWithin depth qSet := by
  induction depth generalizing qSet with
  | zero =>
      obtain ⟨threshold, validators, innerSets⟩ := qSet
      have sets := (sortInner_perm (innerSets.map normalizeQuorumSetReorder)).length_eq
      rw [List.length_map] at sets
      rw [normalizeQuorumSetReorder_mk]
      change sortInner (innerSets.map normalizeQuorumSetReorder) = [] ↔ innerSets = []
      rw [← List.length_eq_zero_iff, sets, List.length_eq_zero_iff]
  | succ depth ih =>
      obtain ⟨threshold, validators, innerSets⟩ := qSet
      rw [normalizeQuorumSetReorder_mk]
      change (∀ inner ∈ sortInner (innerSets.map normalizeQuorumSetReorder),
        NestedWithin depth inner) ↔ ∀ inner ∈ innerSets, NestedWithin depth inner
      simp only [(sortInner_perm _).mem_iff, List.forall_mem_map, ih]

theorem Majority.reorder {qSet : SCPQuorumSet Node} (majority : Majority qSet) :
    Majority (normalizeQuorumSetReorder qSet) := by
  induction qSet with
  | mk threshold validators innerSets ih =>
      obtain ⟨reachable, half, inner⟩ := majority
      have sets := (sortInner_perm (innerSets.map normalizeQuorumSetReorder)).length_eq
      have nodes := (sortValidators_perm validators).length_eq
      rw [List.length_map] at sets
      rw [normalizeQuorumSetReorder_mk]
      refine .mk (by omega) (by omega) ?_
      intro set member
      obtain ⟨before, present, rfl⟩ := List.mem_map.mp ((sortInner_perm _).subset member)
      exact ih before present (inner before present)

theorem allNodes_reorder (qSet : SCPQuorumSet Node) :
    (allNodes (normalizeQuorumSetReorder qSet)).Perm (allNodes qSet) := by
  induction qSet with
  | mk threshold validators innerSets ih =>
      rw [normalizeQuorumSetReorder_mk, allNodes_mk, allNodes_mk]
      refine (sortValidators_perm validators).append ?_
      refine ((sortInner_perm _).flatMap_right _).trans ?_
      rw [List.flatMap_map]
      exact List.Perm.flatMap_left _ ih

section

omit [LinearOrder Node]

theorem allNodes_sole {qSet : SCPQuorumSet Node} {validator : Node}
    (sole : soleValidator qSet = some validator) : allNodes qSet = [validator] := by
  obtain ⟨threshold, validators, innerSets⟩ := qSet
  obtain ⟨rfl, rfl, rfl⟩ := soleValidator_eq_some.mp sole
  rfl

theorem allNodes_parted (sets : List (SCPQuorumSet Node)) :
    (soles sets ++ (composed sets).flatMap allNodes).Perm (sets.flatMap allNodes) := by
  induction sets with
  | nil => exact List.Perm.refl _
  | cons head tail ih =>
      unfold soles composed at ih ⊢
      cases sole : soleValidator head with
      | none =>
          rw [List.filterMap_cons_none sole, List.filter_cons_of_pos (by simp [sole]),
            List.flatMap_cons, List.flatMap_cons]
          refine List.Perm.trans ?_ (ih.append_left _)
          rw [← List.append_assoc, ← List.append_assoc]
          exact List.perm_append_comm.append_right _
      | some validator =>
          rw [List.filterMap_cons_some sole, List.filter_cons_of_neg (by simp [sole]),
            List.flatMap_cons, allNodes_sole sole]
          exact ih.cons validator

theorem entries_parted (sets : List (SCPQuorumSet Node)) :
    (soles sets).length + (composed sets).length = sets.length := by
  induction sets with
  | nil => rfl
  | cons head tail ih =>
      unfold soles composed at ih ⊢
      cases sole : soleValidator head with
      | none =>
          rw [List.filterMap_cons_none sole, List.filter_cons_of_pos (by simp [sole]),
            List.length_cons, List.length_cons]
          omega
      | some validator =>
          rw [List.filterMap_cons_some sole, List.filter_cons_of_neg (by simp [sole]),
            List.length_cons, List.length_cons]
          omega

theorem allNodes_liftLone (threshold : Nat) (v : List Node) (i : List (SCPQuorumSet Node)) :
    allNodes (liftLone threshold v i) = v ++ i.flatMap allNodes := by
  obtain ⟨inner, rfl, rfl, rfl, lifted⟩ | ⟨-, same⟩ := liftLone_cases threshold v i
  · rw [lifted, List.flatMap_singleton, List.nil_append]
  · rw [same, allNodes_mk]

end

theorem allNodes_simplify (qSet : SCPQuorumSet Node) :
    (allNodes (normalizeQSetSimplify none qSet)).Perm (allNodes qSet) := by
  induction qSet with
  | mk threshold validators innerSets ih =>
      rw [normalizeQSetSimplify_mk, allNodes_liftLone, allNodes_mk, List.append_assoc]
      refine List.Perm.append_left validators ((allNodes_parted _).trans ?_)
      rw [List.flatMap_map]
      exact List.Perm.flatMap_left _ ih

theorem Majority.simplify {qSet : SCPQuorumSet Node} (majority : Majority qSet)
    (fits : Fits qSet) : Majority (normalizeQSetSimplify none qSet) := by
  induction qSet with
  | mk threshold validators innerSets ih =>
      obtain ⟨reachable, half, inner⟩ := majority
      obtain ⟨here, fitsInner⟩ := fits
      have entries := entries_parted (innerSets.map (normalizeQSetSimplify none))
      rw [List.length_map] at entries
      have kept : ∀ set ∈ composed (innerSets.map (normalizeQSetSimplify none)), Majority set := by
        intro set member
        obtain ⟨before, present, rfl⟩ := List.mem_map.mp (List.mem_filter.mp member).1
        exact ih before present (inner before present) (fitsInner before present)
      rw [normalizeQSetSimplify_mk, Nat.mod_eq_of_lt here]
      obtain ⟨set, -, -, lone, lifted⟩ | ⟨-, same⟩ := liftLone_cases threshold
        (validators ++ soles (innerSets.map (normalizeQSetSimplify none)))
        (composed (innerSets.map (normalizeQSetSimplify none)))
      · rw [lifted]
        exact kept set (by rw [lone]; exact List.mem_singleton_self set)
      · rw [same]
        refine .mk ?_ ?_ kept
        · rw [List.length_append]
          omega
        · rw [List.length_append]
          omega

theorem isQuorumSetSane_normalize_iff {qSet : SCPQuorumSet Node} (majority : Majority qSet)
    (fits : Fits qSet) (distinct : (allNodes qSet).Nodup) (few : (allNodes qSet).length ≤ 1000) :
    isQuorumSetSane (normalizeQSet qSet none) true = true ↔
      NestedWithin 2 (normalizeQSetSimplify none qSet) := by
  have nodes := (allNodes_reorder (normalizeQSetSimplify none qSet)).trans (allNodes_simplify qSet)
  rw [isQuorumSetSane_iff, normalizeQSet, NestedWithin.reorder_iff, nodes.nodup_iff,
    nodes.length_eq]
  constructor
  · exact fun sane => sane.1
  · exact fun within => ⟨within, (majority.simplify fits).reorder, distinct, few⟩

theorem normalizeQSet_intersects {qSet : SCPQuorumSet Node} (majority : Majority qSet)
    (fits : Fits qSet) {first second : List Node}
    (one : isQuorumSlice first (normalizeQSet qSet none) = true)
    (two : isQuorumSlice second (normalizeQSet qSet none) = true) :
    ∃ node, node ∈ first ∧ node ∈ second := by
  rw [normalizeQSet, isQuorumSlice_reorder, isQuorumSlice_simplify_fits _ fits] at one two
  exact majority.intersects fits one two

end Normal

end ViiCore.SCP
