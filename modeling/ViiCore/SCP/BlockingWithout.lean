import Mathlib.Data.List.Sublists
import ViiCore.SCP.ClosestBlocking

/-!
`findClosestVBlocking` with a node left out.

A set that the node left out satisfies alone cannot be blocked without it. The search has an answer
for it all the same: the one that it would have if that node were missing. A set around it may
count on that answer, which then does not block. Whether it does depends on what comes before in
the order of the costs: the search is right exactly where enough other entries come first.
-/

namespace ViiCore.SCP.LocalNode

open ViiCore.Cheapest

variable {NodeID : Type} [DecidableEq NodeID]

/-! ### A node left out -/

section LeftOut

variable {nodes others : List NodeID} {excluded : Option NodeID} {left : NodeID}
  {qSet : SCPQuorumSet NodeID}

theorem not_slice_of_blocks (sane : Sane qSet) (without : left ∉ nodes)
    (blocks : isVBlocking nodes qSet = true) : isQuorumSlice [left] qSet = false := by
  have dual : isVBlocking nodes qSet =
      !isQuorumSlice (left :: (allNodes qSet).filter fun node => node ∉ nodes) qSet := by
    apply isVBlocking_eq_not sane
    intro node inside
    simp only [List.mem_cons, List.mem_filter, inside, true_and, decide_eq_true_eq]
    constructor
    · rintro (rfl | outside)
      · exact without
      · exact outside
    · exact .inr
  rw [blocks] at dual
  by_contra satisfied
  rw [Bool.not_eq_false] at satisfied
  have among : [left] ⊆ left :: (allNodes qSet).filter fun node => node ∉ nodes :=
    List.cons_subset.mpr ⟨List.mem_cons_self, List.nil_subset _⟩
  rw [isQuorumSlice_mono among qSet satisfied] at dual
  cases dual

theorem mem_allNodes_of_slice (sane : Sane qSet) (slice : isQuorumSlice [left] qSet = true) :
    left ∈ allNodes qSet := by
  by_contra outside
  have blocked : isVBlocking (allNodes qSet) qSet = !isQuorumSlice [] qSet := by
    apply isVBlocking_eq_not sane
    intro node inside
    simp [inside]
  rw [isQuorumSlice_nil qSet, Bool.not_false] at blocked
  rw [not_slice_of_blocks sane outside blocked] at slice
  cases slice

theorem findClosestVBlocking_congr {excluded' : Option NodeID}
    (outside : ∀ node ∈ allNodes qSet, excluded ≠ some node ∧ excluded' ≠ some node)
    (same : ∀ node ∈ allNodes qSet, node ∈ nodes ↔ node ∈ others) :
    findClosestVBlocking nodes excluded qSet = findClosestVBlocking others excluded' qSet := by
  induction qSet with
  | mk threshold validators innerSets ih =>
      have inValidators : ∀ node ∈ validators, node ∈ allNodes (.mk threshold validators innerSets) := by
        intro node member
        rw [allNodes_mk]
        exact List.mem_append_left _ member
      have inner : innerSets.map (findClosestVBlocking nodes excluded) =
          innerSets.map (findClosestVBlocking others excluded') := by
        apply List.map_congr_left
        intro set member
        exact ih set member (fun node inside => outside node (mem_allNodes_inner member inside))
          fun node inside => same node (mem_allNodes_inner member inside)
      have all : (validators.filter fun validator => excluded ≠ some validator) = validators :=
        List.filter_eq_self.mpr fun node member =>
          decide_eq_true (outside node (inValidators node member)).1
      have all' : (validators.filter fun validator => excluded' ≠ some validator) = validators :=
        List.filter_eq_self.mpr fun node member =>
          decide_eq_true (outside node (inValidators node member)).2
      have hits : (validators.map fun validator => decide (validator ∉ nodes)) =
          validators.map fun validator => decide (validator ∉ others) := by
        apply List.map_congr_left
        intro node member
        rw [decide_eq_decide, same node (inValidators node member)]
      have given : (validators.filter fun validator => validator ∈ nodes) =
          validators.filter fun validator => validator ∈ others := by
        apply List.filter_congr
        intro node member
        rw [decide_eq_decide, same node (inValidators node member)]
      rw [findClosestVBlocking, findClosestVBlocking]
      simp only [findClosestVBlockingInner_eq, all, all', inner, hits, given]

theorem closest_of_outside (sane : Sane qSet) {missing : List NodeID}
    (absent : ∀ node ∈ allNodes qSet, node ∈ missing ↔ node ∉ nodes)
    (outside : left ∉ allNodes qSet) : Closest nodes (some left) missing qSet := by
  have same : findClosestVBlocking nodes (some left) qSet = findClosestVBlocking nodes none qSet := by
    apply findClosestVBlocking_congr _ fun _ _ => Iff.rfl
    intro node inside
    constructor
    · intro equal
      cases equal
      exact outside inside
    · exact fun impossible => by cases impossible
  have closest := closest_none sane absent
  constructor
  · rw [same]
    exact closest.blocks
  · intro chosen given blocks
    rw [same]
    exact closest.least chosen (fun node member => ⟨(given node member).1, by simp⟩) blocks

end LeftOut

/-! ### The search takes the node for a missing one -/

section Taken

abbrev besides (left : NodeID) (nodes : List NodeID) : List NodeID :=
  nodes.filter fun node => node ≠ left

variable {nodes : List NodeID} {left : NodeID} {threshold : Nat} {validators : List NodeID}
  {before after : List (SCPQuorumSet NodeID)} {inner : SCPQuorumSet NodeID}

omit [DecidableEq NodeID] in
theorem not_mem_others (sane : Sane (.mk threshold validators (before ++ inner :: after)))
    (own : left ∈ allNodes inner) :
    left ∉ validators ∧ ∀ set ∈ before ++ after, left ∉ allNodes set := by
  have middle : ((before ++ inner :: after).flatMap allNodes).Perm
      (allNodes inner ++ (before ++ after).flatMap allNodes) :=
    List.perm_middle.flatMap fun _ _ => List.Perm.refl _
  have distinct := sane.distinct
  rw [allNodes_mk, (middle.append_left validators).nodup_iff] at distinct
  obtain ⟨-, rest, apart⟩ := List.nodup_append.mp distinct
  constructor
  · intro member
    exact apart left member left (List.mem_append_left _ own) rfl
  · intro set member inside
    exact (List.nodup_append.mp rest).2.2 left own left
      (List.mem_flatMap.mpr ⟨set, member, inside⟩) rfl

theorem findClosestVBlocking_left_of_mem
    (sane : Sane (.mk threshold validators (before ++ inner :: after)))
    (own : left ∈ allNodes inner)
    (same : findClosestVBlocking nodes (some left) inner =
      findClosestVBlocking (besides left nodes) none inner) :
    ∀ set ∈ before ++ inner :: after, findClosestVBlocking nodes (some left) set =
      findClosestVBlocking (besides left nodes) none set := by
  intro set member
  rcases List.mem_cons.mp (List.perm_middle.mem_iff.mp member) with rfl | other
  · exact same
  · have outside := (not_mem_others sane own).2 set other
    apply findClosestVBlocking_congr
    · intro node inside
      constructor
      · intro equal
        cases equal
        exact outside inside
      · exact fun impossible => by cases impossible
    · intro node inside
      have different : node ≠ left := fun equal => outside (equal ▸ inside)
      simp [different]

theorem considered_outside (outside : left ∉ validators) :
    considered (some left) validators = validators := by
  apply List.filter_eq_self.mpr
  intro node member
  exact decide_eq_true fun equal => by
    cases equal
    exact outside member

theorem findClosestVBlocking_left_inner
    (sane : Sane (.mk threshold validators (before ++ inner :: after)))
    (own : left ∈ allNodes inner)
    (same : findClosestVBlocking nodes (some left) inner =
      findClosestVBlocking (besides left nodes) none inner) :
    findClosestVBlocking nodes (some left) (.mk threshold validators (before ++ inner :: after)) =
      findClosestVBlocking (besides left nodes) none
        (.mk threshold validators (before ++ inner :: after)) := by
  have outside := (not_mem_others sane own).1
  have inner := List.map_congr_left (findClosestVBlocking_left_of_mem sane own same)
  have other : ∀ node ∈ validators, node ≠ left := fun node member equal => outside (equal ▸ member)
  have all : (validators.filter fun validator => some left ≠ some validator) = validators :=
    considered_outside outside
  have hits : (validators.map fun validator => decide (validator ∉ nodes)) =
      validators.map fun validator => decide (validator ∉ besides left nodes) := by
    apply List.map_congr_left
    intro node member
    simp [other node member]
  have given : (validators.filter fun validator => validator ∈ nodes) =
      validators.filter fun validator => validator ∈ besides left nodes := by
    apply List.filter_congr
    intro node member
    simp [other node member]
  rw [findClosestVBlocking, findClosestVBlocking]
  simp only [findClosestVBlockingInner_eq, all, inner, hits, given, ne_eq, reduceCtorEq,
    not_false_eq_true, decide_true, List.filter_true]


omit [DecidableEq NodeID] in
theorem cheapest_whole {wanted : Nat} {res : List NodeID} {found : List (List NodeID)}
    (enough : res.length + (found.filter fun v => v.length ≠ 0).length ≤ wanted) :
    cheapest wanted res found = res ++ ((found.filter fun v => v.length ≠ 0).insertionSort
      fun v1 v2 => v1.length ≤ v2.length).flatten := by
  have sorted := List.length_insertionSort (fun v1 v2 : List NodeID => v1.length ≤ v2.length)
    (found.filter fun v => v.length ≠ 0)
  unfold cheapest
  simp only
  rw [List.take_of_length_le (by omega), List.take_of_length_le (by omega)]

variable (nodes) in
theorem findClosestVBlocking_whole {excluded : Option NodeID}
    {innerSets : List (SCPQuorumSet NodeID)} (sane : Sane (.mk 1 validators innerSets)) :
    findClosestVBlocking nodes excluded (.mk 1 validators innerSets) =
      present nodes excluded validators ++
        (((innerSets.map (findClosestVBlocking nodes excluded)).filter
          fun v => v.length ≠ 0).insertionSort fun v1 v2 => v1.length ≤ v2.length).flatten := by
  have nodeParts := present_length nodes excluded validators
  have setParts := costly_length nodes excluded innerSets
  have fewer : (considered excluded validators).length ≤ validators.length :=
    List.length_filter_le _ _
  have lists : ((innerSets.map (findClosestVBlocking nodes excluded)).filter
      fun v => v.length ≠ 0).length = (costly nodes excluded innerSets).length := by
    rw [List.filter_map, List.length_map]
    rfl
  rw [findClosestVBlocking_eq sane, cheapest_whole]
  rw [lists]
  unfold shortfall blockedAlready
  omega

/-- A set that the node satisfies alone has threshold 1: all of its other entries are taken, whether
or not the node is counted as one that is missing. -/
theorem findClosestVBlocking_of_slice {qSet : SCPQuorumSet NodeID} (sane : Sane qSet)
    (slice : isQuorumSlice [left] qSet = true) :
    findClosestVBlocking nodes (some left) qSet =
      findClosestVBlocking (besides left nodes) none qSet := by
  induction qSet with
  | mk threshold validators innerSets ih =>
      by_cases nested : ∃ set ∈ innerSets, isQuorumSlice [left] set = true
      · obtain ⟨set, member, alone⟩ := nested
        obtain ⟨before, after, rfl⟩ := List.append_of_mem member
        have own := mem_allNodes_of_slice (sane.inner member) alone
        exact findClosestVBlocking_left_inner sane own (ih set member (sane.inner member) alone)
      have none : innerSets.countP (isQuorumSlice [left]) = 0 :=
        List.countP_eq_zero.mpr fun set member alone => nested ⟨set, member, alone⟩
      have hits := (isQuorumSlice_iff_passing sane [left]).mp slice
      have distinct := sane.distinct
      rw [allNodes_mk] at distinct
      obtain ⟨ownDistinct, -, apart⟩ := List.nodup_append.mp distinct
      have once : validators.countP (fun node => node ∈ [left]) = validators.count left := by
        rw [List.count]
        apply List.countP_congr
        intro node _
        simp
      have atMost := List.nodup_iff_count_le_one.mp ownDistinct left
      rw [passing, none, once] at hits
      obtain ⟨positive, -, -⟩ := sane.meetable
      obtain rfl : threshold = 1 := by omega
      have member : left ∈ validators := List.one_le_count_iff.mp hits
      have sets : innerSets.map (findClosestVBlocking nodes (some left)) = innerSets.map
          (findClosestVBlocking (besides left nodes) Option.none) := by
        apply List.map_congr_left
        intro set inside
        have other : ∀ node ∈ allNodes set, node ≠ left := by
          intro node own equal
          subst equal
          exact apart node member node (List.mem_flatMap.mpr ⟨set, inside, own⟩) rfl
        apply findClosestVBlocking_congr
        · intro node own
          simp [(other node own).symm]
        · intro node own
          simp [other node own]
      have given : present nodes (some left) validators =
          present (besides left nodes) Option.none validators := by
        unfold present considered
        rw [List.filter_filter, List.filter_filter]
        apply List.filter_congr
        intro node _
        by_cases same : node = left
        · simp [same]
        · simp [same, Ne.symm same]
      rw [findClosestVBlocking_whole nodes sane, findClosestVBlocking_whole _ sane, sets, given]

end Taken

/-! ### The condition -/

section Condition

variable (nodes : List NodeID)

/-- The least number of the given nodes that block a quorum set together with the missing ones. -/
def blockingCost (qSet : SCPQuorumSet NodeID) : Nat :=
  ((((allNodes qSet).filter fun node => node ∈ nodes).sublists.filter fun chosen =>
    isVBlocking (chosen ++ missingFrom qSet nodes) qSet).map List.length).min?.getD 0

/-- How many entries the search counts on before an inner set: where nothing is needed to block that
set, the others that need nothing, and otherwise all validators and the sets that cost less or come
first of those that cost the same. -/
def ahead (validators : List NodeID) (before : List (SCPQuorumSet NodeID))
    (inner : SCPQuorumSet NodeID) (after : List (SCPQuorumSet NodeID)) : Nat :=
  if blockingCost nodes inner = 0 then
    validators.countP (fun validator => validator ∉ nodes) +
      (before ++ after).countP fun set => blockingCost nodes set = 0
  else
    validators.length + before.countP (fun set => blockingCost nodes set ≤ blockingCost nodes inner) +
      after.countP fun set => blockingCost nodes set < blockingCost nodes inner

/-- The search takes the node left out for a missing one, and counts on it to block a set: one that
the node satisfies alone, or a set around such a set with too few entries before it. -/
inductive TakenForMissing (left : NodeID) : SCPQuorumSet NodeID → Prop
  | alone {qSet : SCPQuorumSet NodeID} (slice : isQuorumSlice [left] qSet = true) :
      TakenForMissing left qSet
  | inner {threshold : Nat} {validators : List NodeID}
      {innerSets before after : List (SCPQuorumSet NodeID)} {inner : SCPQuorumSet NodeID}
      (parts : innerSets = before ++ inner :: after) (taken : TakenForMissing left inner)
      (few : ahead nodes validators before inner after <
        1 + validators.length + innerSets.length - threshold) :
      TakenForMissing left (.mk threshold validators innerSets)

variable {nodes} {left : NodeID} {qSet : SCPQuorumSet NodeID}

theorem blockingCost_eq (sane : Sane qSet) :
    blockingCost nodes qSet = cost nodes none qSet := by
  have closest : Closest nodes none (missingFrom qSet nodes) qSet :=
    closest_none sane fun node inside => mem_missingFrom inside
  have least : (((((allNodes qSet).filter fun node => node ∈ nodes).sublists.filter fun chosen =>
      isVBlocking (chosen ++ missingFrom qSet nodes) qSet).map List.length).min?) =
        some (cost nodes none qSet) := by
    rw [List.min?_eq_some_iff]
    constructor
    · have part : (findClosestVBlocking nodes none qSet).Subperm (allNodes qSet) :=
        findClosestVBlocking_subperm qSet
      obtain ⟨ordered, perm, sublist⟩ := part
      have among : ordered.Sublist ((allNodes qSet).filter fun node => node ∈ nodes) := by
        have kept := sublist.filter fun node => node ∈ nodes
        rwa [List.filter_eq_self.mpr] at kept
        intro node member
        exact decide_eq_true (findClosestVBlocking_given node (perm.subset member)).1
      rw [List.mem_map]
      refine ⟨ordered, List.mem_filter.mpr ⟨List.mem_sublists.mpr among, ?_⟩, perm.length_eq⟩
      rw [← closest.blocks]
      apply isVBlocking_congr
      intro node _
      simp only [List.mem_append, perm.mem_iff]
    · intro size member
      obtain ⟨chosen, among, rfl⟩ := List.mem_map.mp member
      obtain ⟨sublist, blocks⟩ := List.mem_filter.mp among
      have given : ∀ node ∈ chosen, node ∈ nodes := by
        intro node inside
        have kept := (List.mem_sublists.mp sublist).subset inside
        exact of_decide_eq_true (List.mem_filter.mp kept).2
      have bound := closest.least chosen (fun node inside => ⟨given node inside, by simp⟩) blocks
      exact bound.trans (countP_mem_le sane.distinct)
  rw [blockingCost, least, Option.getD_some]

theorem TakenForMissing.mem (taken : TakenForMissing nodes left qSet) (sane : Sane qSet) :
    left ∈ allNodes qSet := by
  induction taken with
  | alone slice => exact mem_allNodes_of_slice sane slice
  | inner parts taken few ih =>
      have member : _ ∈ _ := parts ▸ List.mem_append_right _ List.mem_cons_self
      exact mem_allNodes_inner member (ih (sane.inner member))

end Condition

/-! ### Whether the inner set is counted on -/

theorem isVBlocking_mono_on {small large : List NodeID} {qSet : SCPQuorumSet NodeID}
    (subset : ∀ node ∈ allNodes qSet, node ∈ small → node ∈ large)
    (blocks : isVBlocking small qSet = true) : isVBlocking large qSet = true := by
  have own : isVBlocking (small.filter fun node => node ∈ allNodes qSet) qSet = true := by
    rw [← blocks]
    apply isVBlocking_congr
    intro node inside
    simp [inside]
  apply isVBlocking_mono _ qSet own
  intro node member
  obtain ⟨inSmall, inside⟩ := List.mem_filter.mp member
  exact subset node (of_decide_eq_true inside) inSmall

omit [DecidableEq NodeID] in
theorem countP_lt_length {items : List (SCPQuorumSet NodeID)} {test : SCPQuorumSet NodeID → Bool}
    {item : SCPQuorumSet NodeID} (member : item ∈ items) (fails : test item = false) :
    items.countP test < items.length := by
  refine Nat.lt_of_le_of_ne List.countP_le_length fun equal => ?_
  have passes := List.countP_eq_length.mp equal item member
  rw [fails] at passes
  cases passes

section Inner

variable {nodes missing : List NodeID} {excluded : Option NodeID} {left : NodeID} {threshold : Nat}
  {validators : List NodeID} {before after : List (SCPQuorumSet NodeID)}
  {inner : SCPQuorumSet NodeID}

variable (nodes excluded) in
theorem countP_costly (items : List (SCPQuorumSet NodeID)) {test : SCPQuorumSet NodeID → Bool}
    (free : ∀ set, cost nodes excluded set = 0 → test set = true) :
    items.countP test = (costly nodes excluded items).countP test +
      items.countP fun set => cost nodes excluded set = 0 := by
  rw [items.countP_eq_countP_filter_add _
    (fun set => cost nodes excluded set ≠ 0), costly]
  congr 1
  rw [List.countP_filter]
  apply List.countP_congr
  intro set _
  simp +contextual [free]

variable (before after) in
/-- An inner set that costs something comes after those that cost nothing or less, and after those
before it that cost the same. -/
theorem byCost_split (costs : cost nodes excluded inner ≠ 0) :
    ∃ first last, byCost nodes excluded (before ++ inner :: after) = first ++ inner :: last ∧
      (before ++ after).countP (fun set => cost nodes excluded set = 0) +
        first.length =
      before.countP (fun set => cost nodes excluded set ≤ cost nodes excluded inner) +
        after.countP (fun set => cost nodes excluded set < cost nodes excluded inner) ∧
      ∀ set ∈ first ++ last, set ∈ before ++ after := by
  have split : costly nodes excluded (before ++ inner :: after) =
      costly nodes excluded before ++ inner :: costly nodes excluded after := by
    unfold costly
    rw [List.filter_append, List.filter_cons_of_pos (by simpa using costs)]
  obtain ⟨first, last, sorted, length⟩ := insertionSort_split
    (fun set => cost nodes excluded set)
    (costly nodes excluded before) inner (costly nodes excluded after)
  refine ⟨first, last, ?_, ?_, ?_⟩
  · rw [byCost, split]
    exact sorted
  · rw [countP_costly nodes excluded before, countP_costly nodes excluded after, length,
      List.countP_append]
    · omega
    · intro set free
      simp [free, Nat.pos_of_ne_zero costs]
    · intro set free
      simp [free]
  · have perm := List.perm_insertionSort (fun left right =>
      cost nodes excluded left ≤ cost nodes excluded right)
      (costly nodes excluded before ++ inner :: costly nodes excluded after)
    rw [sorted] at perm
    have others := (List.perm_middle.symm.trans (perm.trans List.perm_middle)).cons_inv
    intro set member
    exact (List.filter_sublist.append List.filter_sublist).subset (others.subset member)

/-! What the answer has of each entry -/

section Answer

variable {innerSets : List (SCPQuorumSet NodeID)} {set : SCPQuorumSet NodeID} {node : NodeID}

variable (nodes excluded threshold validators innerSets) in
def takenSets : List (SCPQuorumSet NodeID) :=
  (byCost nodes excluded innerSets).take
    (shortfall nodes excluded threshold validators innerSets -
      (present nodes excluded validators).length)

variable (nodes excluded threshold validators innerSets) in
def leftSets : List (SCPQuorumSet NodeID) :=
  (byCost nodes excluded innerSets).drop
    (shortfall nodes excluded threshold validators innerSets -
      (present nodes excluded validators).length)

theorem taken_append_left :
    takenSets nodes excluded threshold validators innerSets ++
      leftSets nodes excluded threshold validators innerSets = byCost nodes excluded innerSets :=
  List.take_append_drop _ _

theorem mem_innerSets_of_byCost (member : set ∈ byCost nodes excluded innerSets) :
    set ∈ innerSets :=
  List.filter_sublist.subset (byCost_perm.subset member)

variable (sane : Sane (.mk threshold validators innerSets))

include sane

theorem mem_answer
    (member : node ∈ findClosestVBlocking nodes excluded (.mk threshold validators innerSets)) :
    node ∈ (present nodes excluded validators).take
        (shortfall nodes excluded threshold validators innerSets) ∨
      ∃ set ∈ takenSets nodes excluded threshold validators innerSets,
        node ∈ findClosestVBlocking nodes excluded set := by
  rw [findClosestVBlocking_parts nodes excluded sane] at member
  exact (List.mem_append.mp member).imp_right List.mem_flatMap.mp

omit [DecidableEq NodeID] in
theorem not_mem_validators (member : set ∈ innerSets) (inside : node ∈ allNodes set) :
    node ∉ validators := by
  obtain ⟨before, after, rfl⟩ := List.append_of_mem member
  exact (not_mem_others sane inside).1

theorem mem_answer_inner (member : set ∈ innerSets) (inside : node ∈ allNodes set)
    (answered : node ∈ findClosestVBlocking nodes excluded (.mk threshold validators innerSets)) :
    node ∈ findClosestVBlocking nodes excluded set := by
  rcases mem_answer sane answered with valid | ⟨chosen, taken, found⟩
  · have own := (mem_present.mp (List.mem_of_mem_take valid)).1.1
    exact absurd own (not_mem_validators sane member inside)
  · have there := mem_innerSets_of_byCost (List.mem_of_mem_take taken)
    obtain ⟨before, after, rfl⟩ := List.append_of_mem member
    rcases List.mem_cons.mp (List.perm_middle.mem_iff.mp there) with rfl | other
    · exact found
    · exact absurd ((findClosestVBlocking_subperm _).subset found)
        ((not_mem_others sane inside).2 chosen other)

theorem not_mem_answer_of_left
    (member : set ∈ leftSets nodes excluded threshold validators innerSets)
    (inside : node ∈ allNodes set) :
    node ∉ findClosestVBlocking nodes excluded (.mk threshold validators innerSets) := by
  intro answered
  have there := mem_innerSets_of_byCost (List.mem_of_mem_drop member)
  rcases mem_answer sane answered with valid | ⟨chosen, taken, found⟩
  · have own := (mem_present.mp (List.mem_of_mem_take valid)).1.1
    exact not_mem_validators sane there inside own
  · have distinct := sane.distinct
    rw [allNodes_mk] at distinct
    have apart : ((byCost nodes excluded innerSets).flatMap allNodes).Nodup := by
      rw [(byCost_perm.flatMap fun _ _ => List.Perm.refl _).nodup_iff]
      exact (List.nodup_append.mp distinct).2.1.sublist (List.filter_sublist.flatMap _)
    rw [← taken_append_left, List.flatMap_append] at apart
    exact (List.nodup_append.mp apart).2.2 node
      (List.mem_flatMap.mpr ⟨chosen, taken, (findClosestVBlocking_subperm _).subset found⟩) node
      (List.mem_flatMap.mpr ⟨set, member, inside⟩) rfl

theorem inner_unblocked (member : set ∈ innerSets)
    (unblocked : isVBlocking (findClosestVBlocking nodes excluded set ++ missing) set = false) :
    isVBlocking (findClosestVBlocking nodes excluded (.mk threshold validators innerSets) ++ missing)
      set = false := by
  rw [Bool.eq_false_iff] at unblocked ⊢
  intro blocked
  apply unblocked
  apply isVBlocking_mono_on _ blocked
  intro node inside present
  exact List.mem_append.mpr ((List.mem_append.mp present).imp_left
    (mem_answer_inner sane member inside))

variable (excluded) in
theorem validators_le (absent : ∀ node ∈ allNodes (.mk threshold validators innerSets),
      node ∈ missing ↔ node ∉ nodes) :
    validators.countP (fun node => node ∈
        findClosestVBlocking nodes excluded (.mk threshold validators innerSets) ++ missing) ≤
      min (shortfall nodes excluded threshold validators innerSets)
          (present nodes excluded validators).length +
        validators.countP (fun validator => validator ∉ nodes) := by
  have distinct := sane.distinct
  rw [allNodes_mk] at distinct
  have answered : validators.countP (fun node => node ∈
      findClosestVBlocking nodes excluded (.mk threshold validators innerSets)) ≤
      min (shortfall nodes excluded threshold validators innerSets)
        (present nodes excluded validators).length := by
    rw [← List.length_take]
    refine Nat.le_trans (List.countP_mono_left fun node member there => ?_)
      (countP_mem_le (List.nodup_append.mp distinct).1)
    rcases mem_answer sane (of_decide_eq_true there) with valid | ⟨chosen, taken, found⟩
    · exact decide_eq_true valid
    · have inside := mem_innerSets_of_byCost (List.mem_of_mem_take taken)
      exact absurd member
        (not_mem_validators sane inside ((findClosestVBlocking_subperm _).subset found))
  have gone : validators.countP (fun node => node ∈ missing) ≤
      validators.countP fun validator => validator ∉ nodes := by
    apply List.countP_mono_left
    intro node member there
    rw [decide_eq_true_eq] at there ⊢
    exact (absent node (by rw [allNodes_mk]; exact List.mem_append_left _ member)).mp there
  exact (countP_append_le _ missing validators).trans (Nat.add_le_add answered gone)

end Answer

variable (sane : Sane (.mk threshold validators (before ++ inner :: after)))
  (own : left ∈ allNodes inner)
  (same : findClosestVBlocking nodes (some left) inner =
    findClosestVBlocking (besides left nodes) none inner)

include sane own same

theorem ahead_eq : ahead (besides left nodes) validators before inner after =
    if cost nodes (some left) inner = 0 then
      validators.countP (fun validator => validator ∉ nodes) +
        (before ++ after).countP fun set =>
          cost nodes (some left) set = 0
    else
      validators.length +
        before.countP (fun set => cost nodes (some left) set ≤ cost nodes (some left) inner) +
        after.countP fun set => cost nodes (some left) set < cost nodes (some left) inner := by
  have costs : ∀ set ∈ before ++ inner :: after,
      blockingCost (besides left nodes) set =
        cost nodes (some left) set := by
    intro set member
    rw [blockingCost_eq (sane.inner member), cost, cost,
      findClosestVBlocking_left_of_mem sane own same set member]
  have ofInner := costs inner (by simp)
  have absent : validators.countP (fun validator => validator ∉ besides left nodes) =
      validators.countP fun validator => validator ∉ nodes := by
    apply List.countP_congr
    intro node member
    have other : node ≠ left := fun equal => (not_mem_others sane own).1 (equal ▸ member)
    simp [other]
  have free : (before ++ after).countP
      (fun set => blockingCost (besides left nodes) set = 0) =
      (before ++ after).countP fun set =>
        cost nodes (some left) set = 0 := by
    apply List.countP_congr
    intro set member
    rw [costs set (by grind)]
  have early : before.countP (fun set => blockingCost (besides left nodes) set ≤
      cost nodes (some left) inner) =
      before.countP fun set => cost nodes (some left) set ≤ cost nodes (some left) inner := by
    apply List.countP_congr
    intro set member
    rw [costs set (List.mem_append_left _ member)]
  have late : after.countP (fun set => blockingCost (besides left nodes) set <
      cost nodes (some left) inner) =
      after.countP fun set => cost nodes (some left) set < cost nodes (some left) inner := by
    apply List.countP_congr
    intro set member
    rw [costs set (List.mem_append_right _ (List.mem_cons_of_mem _ member))]
  rw [ahead, ofInner, absent, free, early, late]

omit same in
theorem closest_beside (absent : ∀ node ∈ allNodes (.mk threshold validators
      (before ++ inner :: after)), node ∈ missing ↔ node ∉ nodes) :
    ∀ set ∈ before ++ after, Closest nodes (some left) missing set := by
  intro set member
  have known : set ∈ before ++ inner :: after :=
    List.perm_middle.mem_iff.mpr (List.mem_cons_of_mem _ member)
  exact closest_of_outside (sane.inner known)
    (fun node inside => absent node (mem_allNodes_inner known inside))
    ((not_mem_others sane own).2 set member)

/-- An inner set is not counted on where enough entries come before it. -/
theorem blocks_of_ahead (absent : ∀ node ∈ allNodes (.mk threshold validators
      (before ++ inner :: after)), node ∈ missing ↔ node ∉ nodes)
    (enough : 1 + validators.length + (before ++ inner :: after).length - threshold ≤
      ahead (besides left nodes) validators before inner after) :
    isVBlocking (findClosestVBlocking nodes (some left)
        (.mk threshold validators (before ++ inner :: after)) ++ missing)
      (.mk threshold validators (before ++ inner :: after)) = true := by
  obtain ⟨outside, others⟩ := not_mem_others sane own
  have closest := closest_beside sane own absent
  rw [ahead_eq sane own same] at enough
  split at enough
  · -- What is missing blocks the set, so nothing has to be chosen.
    have nodeHits : validators.countP (fun validator => validator ∉ nodes) ≤
        validators.countP fun node => node ∈ missing := by
      apply List.countP_mono_left
      intro node member
      have inside : node ∈ allNodes (.mk threshold validators (before ++ inner :: after)) := by
        rw [allNodes_mk]
        exact List.mem_append_left _ member
      simp [absent node inside]
    have setHits : (before ++ after).countP (fun set =>
        cost nodes (some left) set = 0) ≤
        (before ++ inner :: after).countP (isVBlocking missing) := by
      rw [List.perm_middle.countP_eq, List.countP_cons]
      refine Nat.le_add_right_of_le (List.countP_mono_left fun set member free => ?_)
      have blocks := (closest set member).blocks
      rwa [List.length_eq_zero_iff.mp (of_decide_eq_true free), List.nil_append] at blocks
    have blocked : isVBlocking missing (.mk threshold validators (before ++ inner :: after)) =
        true := by
      rw [isVBlocking_iff_passing sane, passing]
      obtain ⟨positive, -, -⟩ := sane.meetable
      omega
    exact isVBlocking_mono (List.subset_append_right _ _) _ blocked
  · rename_i costs
    obtain ⟨first, last, split, place, others'⟩ := byCost_split before after costs
    have all := considered_outside outside
    have nodeParts := present_length nodes (some left) validators
    obtain ⟨positive, -, -⟩ := sane.meetable
    rw [all] at nodeParts
    have few : shortfall nodes (some left) threshold validators (before ++ inner :: after) -
        (present nodes (some left) validators).length ≤ first.length := by
      unfold shortfall blockedAlready
      rw [all, List.perm_middle.countP_eq, List.countP_cons_of_neg (by simpa using costs)]
      omega
    apply findClosestVBlocking_blocks sane absent _ (by rw [all]; omega)
    intro set member counted
    rcases List.mem_cons.mp (List.perm_middle.mem_iff.mp member) with rfl | other
    · exfalso
      rcases counted with nothing | taken
      · exact costs (List.length_eq_zero_iff.mpr nothing)
      · -- The inner set is there only once, after the sets that are taken.
        rw [split, List.take_append_of_le_length few] at taken
        exact others set (others' set (List.mem_append_left _ (List.mem_of_mem_take taken))) own
    · exact (closest set other).blocks

omit same

/-- Only sets that are taken, and those that cost nothing, are blocked in the end. -/
theorem countP_blocked (absent : ∀ node ∈ allNodes (.mk threshold validators
      (before ++ inner :: after)), node ∈ missing ↔ node ∉ nodes)
    (unblocked : isVBlocking (findClosestVBlocking nodes (some left)
      (.mk threshold validators (before ++ inner :: after)) ++ missing) inner = false) :
    (before ++ inner :: after).countP (isVBlocking (findClosestVBlocking nodes (some left)
      (.mk threshold validators (before ++ inner :: after)) ++ missing)) =
    (takenSets nodes (some left) threshold validators (before ++ inner :: after)).countP
      (isVBlocking (findClosestVBlocking nodes (some left)
        (.mk threshold validators (before ++ inner :: after)) ++ missing)) +
    ((before ++ inner :: after).filter fun set =>
      !decide (cost nodes (some left) set ≠ 0)).countP
        (isVBlocking (findClosestVBlocking nodes (some left)
          (.mk threshold validators (before ++ inner :: after)) ++ missing)) := by
  have apart := fun set (member : set ∈ leftSets nodes (some left) threshold validators
    (before ++ inner :: after)) node (inside : node ∈ allNodes set) =>
      not_mem_answer_of_left sane member inside
  generalize findClosestVBlocking nodes (some left)
    (.mk threshold validators (before ++ inner :: after)) = answer at *
  have leftUnblocked : (leftSets nodes (some left) threshold validators
      (before ++ inner :: after)).countP (isVBlocking (answer ++ missing)) = 0 := by
    rw [List.countP_eq_zero]
    intro set member blocked
    obtain ⟨there, costs⟩ := List.mem_filter.mp (byCost_perm.subset (List.mem_of_mem_drop member))
    rcases List.mem_cons.mp (List.perm_middle.mem_iff.mp there) with rfl | other
    · rw [unblocked] at blocked
      cases blocked
    -- None of its nodes is in the answer, so the missing ones block it, and it costs nothing.
    have alone : isVBlocking missing set = true := by
      apply isVBlocking_mono_on _ blocked
      intro node inside present
      exact (List.mem_append.mp present).resolve_left (apart set member node inside)
    have nothing := (closest_beside sane own absent set other).least []
      (fun _ impossible => by cases impossible) alone
    rw [List.countP_eq_zero.mpr (by simp)] at nothing
    exact of_decide_eq_true costs (Nat.le_zero.mp nothing)
  have perm : (byCost nodes (some left) (before ++ inner :: after)).Perm _ := byCost_perm
  have total := perm.countP_eq (isVBlocking (answer ++ missing))
  rw [← taken_append_left, List.countP_append, leftUnblocked, Nat.add_zero] at total
  rw [(before ++ inner :: after).countP_eq_countP_filter_add _
    (fun set => cost nodes (some left) set ≠ 0), total]
  rfl

include same

/-- An inner set that is not blocked and that is counted on is one entry too few. -/
theorem not_blocks_of_ahead (absent : ∀ node ∈ allNodes (.mk threshold validators
      (before ++ inner :: after)), node ∈ missing ↔ node ∉ nodes)
    (unblocked : isVBlocking (findClosestVBlocking nodes (some left) inner ++ missing) inner = false)
    (few : ahead (besides left nodes) validators before inner after <
      1 + validators.length + (before ++ inner :: after).length - threshold) :
    isVBlocking (findClosestVBlocking nodes (some left)
        (.mk threshold validators (before ++ inner :: after)) ++ missing)
      (.mk threshold validators (before ++ inner :: after)) = false := by
  obtain ⟨positive, reachable, -⟩ := sane.meetable
  have all := considered_outside (not_mem_others sane own).1
  have nodeParts := present_length nodes (some left) validators
  have nodeHits := validators_le (some left) sane absent
  have ownUnblocked := inner_unblocked sane (by simp) unblocked
  have setHits := countP_blocked sane own absent ownUnblocked
  rw [Bool.eq_false_iff, ne_eq, isVBlocking_iff_passing sane, passing, setHits]
  generalize findClosestVBlocking nodes (some left)
    (.mk threshold validators (before ++ inner :: after)) = answer at *
  rw [ahead_eq sane own same] at few
  rw [all] at nodeParts
  have zeros := (before ++ inner :: after).countP_eq_length_filter
    (p := fun set => !decide (cost nodes (some left) set ≠ 0))
  simp only [ne_eq, decide_not, Bool.not_not] at zeros setHits ⊢
  have missed : shortfall nodes (some left) threshold validators (before ++ inner :: after) =
      1 + validators.length + (before ++ inner :: after).length - threshold -
        (validators.countP (fun validator => validator ∉ nodes) +
          (before ++ inner :: after).countP fun set =>
            cost nodes (some left) set = 0) := by
    rw [shortfall, blockedAlready, all]
  have takenBound : (takenSets nodes (some left) threshold validators
      (before ++ inner :: after)).length ≤ _ := List.length_take_le _ _
  split at few
  · rename_i free
    have fewer : ((before ++ inner :: after).filter fun set =>
        decide (cost nodes (some left) set = 0)).countP
          (isVBlocking (answer ++ missing)) <
        ((before ++ inner :: after).filter fun set =>
          decide (cost nodes (some left) set = 0)).length := by
      exact countP_lt_length (List.mem_filter.mpr ⟨by simp, decide_eq_true free⟩) ownUnblocked
    have chosen := List.countP_le_length (p := isVBlocking (answer ++ missing))
      (l := takenSets nodes (some left) threshold validators (before ++ inner :: after))
    rw [List.perm_middle.countP_eq, List.countP_cons_of_pos (by simpa using free)] at missed zeros
    omega
  · rename_i costs
    obtain ⟨first, last, split, place, -⟩ := byCost_split before after costs
    have free := List.countP_le_length (p := isVBlocking (answer ++ missing))
      (l := (before ++ inner :: after).filter fun set =>
        decide (cost nodes (some left) set = 0))
    rw [List.perm_middle.countP_eq, List.countP_cons_of_neg (by simpa using costs)] at missed zeros
    have fewer : (takenSets nodes (some left) threshold validators
        (before ++ inner :: after)).countP (isVBlocking (answer ++ missing)) <
        (takenSets nodes (some left) threshold validators (before ++ inner :: after)).length := by
      refine countP_lt_length ?_ ownUnblocked
      rw [takenSets, split, List.mem_take_iff_getElem]
      exact ⟨first.length, by simp; omega, by simp⟩
    omega

end Inner

/-! ### When the search is right with a node left out -/

section Answers

variable {nodes missing : List NodeID} {left : NodeID} {qSet : SCPQuorumSet NodeID}

theorem TakenForMissing.findClosestVBlocking_eq
    (taken : TakenForMissing (besides left nodes) left qSet) (sane : Sane qSet) :
    findClosestVBlocking nodes (some left) qSet =
      findClosestVBlocking (besides left nodes) none qSet := by
  induction taken with
  | alone slice => exact findClosestVBlocking_of_slice sane slice
  | inner parts taken few ih =>
      subst parts
      have saneInner := sane.inner (List.mem_append_right _ List.mem_cons_self)
      exact findClosestVBlocking_left_inner sane (taken.mem saneInner) (ih saneInner)

theorem closest_of_not_taken (sane : Sane qSet)
    (absent : ∀ node ∈ allNodes qSet, node ∈ missing ↔ node ∉ nodes) (given : left ∈ nodes)
    (free : ¬ TakenForMissing (besides left nodes) left qSet) :
    Closest nodes (some left) missing qSet := by
  induction qSet with
  | mk threshold validators innerSets ih =>
      by_cases nested : ∃ set ∈ innerSets,
          TakenForMissing (besides left nodes) left set
      · obtain ⟨set, member, taken⟩ := nested
        obtain ⟨before, after, rfl⟩ := List.append_of_mem member
        have own := taken.mem (sane.inner member)
        have same := taken.findClosestVBlocking_eq (sane.inner member)
        constructor
        · apply blocks_of_ahead sane own same absent
          by_contra few
          exact free (.inner rfl taken (Nat.lt_of_not_le few))
        · intro chosen among blocks
          rw [findClosestVBlocking_left_inner sane own same]
          -- What blocks without the node also blocks where the node is missing.
          have closest : Closest (besides left nodes) none (left :: missing)
              (.mk threshold validators (before ++ set :: after)) := by
            apply closest_none sane
            intro node inside
            by_cases equal : node = left
            · simp [equal]
            · simp [equal, absent node inside]
          apply closest.least chosen
          · intro node member
            obtain ⟨available, other⟩ := among node member
            have different : node ≠ left := fun equal => other (congrArg some equal.symm)
            exact ⟨List.mem_filter.mpr ⟨available, decide_eq_true different⟩, by simp⟩
          · apply isVBlocking_mono _ _ blocks
            exact List.append_subset.mpr ⟨List.subset_append_left _ _,
              fun node gone => List.mem_append_right _ (List.mem_cons_of_mem _ gone)⟩
      · have notSlice : isQuorumSlice (some left).toList (.mk threshold validators innerSets) =
            false := by
          rw [Bool.eq_false_iff]
          exact fun slice => free (.alone slice)
        apply closest_mk sane absent _ _ (enough_considered sane notSlice)
        · intro node equal
          cases equal
          exact given
        · intro set member
          exact ih set member (sane.inner member)
            (fun node inside => absent node (mem_allNodes_inner member inside))
            fun taken => nested ⟨set, member, taken⟩

theorem TakenForMissing.unblocked
    (taken : TakenForMissing (besides left nodes) left qSet) (sane : Sane qSet)
    (absent : ∀ node ∈ allNodes qSet, node ∈ missing ↔ node ∉ nodes) (given : left ∈ nodes) :
    isVBlocking (findClosestVBlocking nodes (some left) qSet ++ missing) qSet = false := by
  induction taken with
  | @alone set slice =>
      rw [Bool.eq_false_iff]
      intro blocks
      have unused : left ∉ findClosestVBlocking nodes (some left) set ++ missing := by
        intro member
        rcases List.mem_append.mp member with found | gone
        · exact (findClosestVBlocking_given left found).2 rfl
        · exact (absent left (mem_allNodes_of_slice sane slice)).mp gone given
      rw [not_slice_of_blocks sane unused blocks] at slice
      cases slice
  | @inner threshold validators _ before after set parts taken few ih =>
      subst parts
      have member : set ∈ before ++ set :: after := List.mem_append_right _ List.mem_cons_self
      have saneInner := sane.inner member
      exact not_blocks_of_ahead sane (taken.mem saneInner) (taken.findClosestVBlocking_eq saneInner)
        absent (ih saneInner fun node inside => absent node (mem_allNodes_inner member inside)) few

/-- The answer never has the node left out, and where some of the given nodes without it block the
quorum set together with the missing ones, it is a smallest such set. -/
structure ClosestWithout (left : NodeID) (nodes : List NodeID) (qSet : SCPQuorumSet NodeID) :
    Prop where
  without : left ∉ findClosestVBlocking nodes (some left) qSet
  smallest : ∀ chosen, chosen ⊆ nodes → left ∉ chosen →
    isVBlocking (chosen ++ missingFrom qSet nodes) qSet = true →
      (findClosestVBlocking nodes (some left) qSet).Nodup ∧
      findClosestVBlocking nodes (some left) qSet ⊆ nodes ∧
      isVBlocking (findClosestVBlocking nodes (some left) qSet ++ missingFrom qSet nodes) qSet =
        true ∧
      (findClosestVBlocking nodes (some left) qSet).length ≤ chosen.length

theorem closestWithout_of_closest (sane : Sane qSet)
    (closest : isQuorumSlice [left] qSet = false →
      Closest nodes (some left) (missingFrom qSet nodes) qSet) (given : left ∈ nodes) :
    ClosestWithout left nodes qSet where
  without member := (findClosestVBlocking_given left member).2 rfl
  smallest := by
    intro chosen subset without blocks
    have unused : left ∉ chosen ++ missingFrom qSet nodes := by
      simp [without, missingFrom, given]
    have closest := closest (not_slice_of_blocks sane unused blocks)
    refine ⟨findClosestVBlocking_nodup sane,
      fun node member => (findClosestVBlocking_given node member).1, closest.blocks, ?_⟩
    have bound := closest.least chosen
      (fun node member => ⟨subset member, fun same => without (by cases same; exact member)⟩) blocks
    exact bound.trans (countP_mem_le sane.distinct)

end Answers

/-- With a node left out the search is right exactly where that node satisfies the quorum set alone,
which then cannot be blocked without it, or the search does not count on it as a missing node. -/
theorem findClosestVBlocking_without_iff (qSet : SCPQuorumSet NodeID) (extraChecks : Bool)
    (checked : isQuorumSetSane qSet extraChecks = true) (nodes : List NodeID) (left : NodeID)
    (given : left ∈ nodes) :
    ClosestWithout left nodes qSet ↔ isQuorumSlice [left] qSet = true ∨
      ¬ TakenForMissing (besides left nodes) left qSet := by
  have sane := sane_of_isQuorumSetSane checked
  constructor
  · intro right
    by_contra wrong
    obtain ⟨free, taken⟩ := not_or.mp wrong
    rw [Bool.not_eq_true] at free
    -- All nodes but the one left out block the quorum set, so there is something to find.
    have blocks : isVBlocking (besides left nodes ++ missingFrom qSet nodes)
        qSet = true := by
      rw [isVBlocking_eq_not sane, free, Bool.not_false]
      intro node inside
      by_cases same : node = left
      · simp [same, missingFrom, given]
      · by_cases present : node ∈ nodes
        · simp [same, present]
        · simp [same, present, missingFrom, inside]
    obtain ⟨-, -, blocked, -⟩ := right.smallest _ List.filter_sublist.subset (by simp) blocks
    rw [(not_not.mp taken).unblocked sane (fun node inside => mem_missingFrom inside) given]
      at blocked
    cases blocked
  · rintro (slice | free)
    · apply closestWithout_of_closest sane _ given
      intro notSlice
      rw [notSlice] at slice
      cases slice
    · exact closestWithout_of_closest sane
        (fun _ => closest_of_not_taken sane (fun node inside => mem_missingFrom inside) given free)
        given

/-- The inner set is not counted on: the validator comes first. -/
theorem findClosestVBlocking_without_iff_first :
    isQuorumSetSane (.mk 2 [1] [.mk 1 [9, 8] []]) false = true ∧
      ClosestWithout 9 [1, 8, 9] (.mk 2 [1] [.mk 1 [9, 8] []]) := by
  refine ⟨by decide, (findClosestVBlocking_without_iff _ false (by decide) _ 9 (by decide)).mpr ?_⟩
  right
  intro taken
  cases taken with
  | alone slice => exact absurd slice (by decide)
  | @inner _ _ _ before after inner parts taken few =>
      obtain ⟨rfl, rfl, rfl⟩ : before = [] ∧ inner = .mk 1 [9, 8] [] ∧ after = [] := by
        cases before with
        | nil => simpa [eq_comm] using parts
        | cons head tail => simp at parts
      exact absurd few (by decide +kernel)

/-- An inner set that only the node left out can block is taken for one that is blocked already. -/
theorem findClosestVBlocking_takes_stuck_for_blocked :
    isQuorumSetSane (.mk 2 [1] [.mk 1 [9] []]) false = true ∧
      findClosestVBlocking [1, 9] (some 9) (.mk 2 [1] [.mk 1 [9] []]) = [] ∧
      isVBlocking ([1] ++ missingFrom (.mk 2 [1] [.mk 1 [9] []]) [1, 9])
        (.mk 2 [1] [.mk 1 [9] []]) = true ∧
      ¬ ClosestWithout 9 [1, 9] (.mk 2 [1] [.mk 1 [9] []]) := by
  refine ⟨by decide, by decide +kernel, by decide, ?_⟩
  intro right
  obtain ⟨-, -, blocked, -⟩ := right.smallest [1] (by simp) (by simp) (by decide)
  exact absurd blocked (by decide +kernel)

end ViiCore.SCP.LocalNode
