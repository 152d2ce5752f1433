import Mathlib.Algebra.Order.BigOperators.Group.List
import Mathlib.Algebra.Order.Ring.Nat
import Mathlib.Data.List.Flatten
import ViiCore.Library.Cheapest
import ViiCore.SCP.Blocking
import ViiCore.SCP.LocalNode

/-!
What `findClosestVBlocking` finds in a sane quorum set: a smallest set of the given nodes that
blocks it together with the nodes that are missing.

To block a quorum set costs nothing for an entry that the missing nodes block already, one node for
a validator, and for an inner set what the search finds there. The function takes the cheapest
entries, and entries have no nodes in common, so no other choice is smaller.
-/

namespace ViiCore.SCP.LocalNode

open ViiCore.Cheapest

variable {NodeID : Type} [DecidableEq NodeID]

/-! ### The countdown -/

theorem decrement64_succ {left : Nat} (fits : left < 2 ^ 64) : decrement64 (left + 1) = left := by
  unfold decrement64
  omega

theorem tillBlock_eq {left : Nat} (positive : 1 ≤ left) (fits : left < 2 ^ 64) (hits : List Bool) :
    tillBlock left hits =
      if left ≤ hits.count true then none else some (left - hits.count true) := by
  induction hits generalizing left with
  | nil => rw [tillBlock, List.count_nil, if_neg (by omega), Nat.sub_zero]
  | cons head rest ih =>
      cases head with
      | false =>
          rw [tillBlock, ih positive fits]
          simp
      | true =>
          obtain ⟨before, rfl⟩ : ∃ before, left = before + 1 := ⟨left - 1, by omega⟩
          rw [tillBlock, decrement64_succ (by omega), List.count_cons_self, Nat.add_sub_add_right]
          by_cases last : before = 0
          · rw [if_pos last, if_pos (by omega)]
          · rw [if_neg last, ih (by omega) (by omega)]
            simp only [Nat.add_le_add_iff_right]

theorem findClosestVBlockingInner_eq (nodes : List NodeID) (excluded : Option NodeID)
    (innerSets : List (SCPQuorumSet NodeID)) :
    findClosestVBlockingInner nodes excluded innerSets =
      innerSets.map (findClosestVBlocking nodes excluded) := by
  induction innerSets with
  | nil => rfl
  | cons head tail ih => rw [findClosestVBlockingInner, ih, List.map_cons]

/-! ### The parts of the answer -/

abbrev cost (nodes : List NodeID) (excluded : Option NodeID) (qSet : SCPQuorumSet NodeID) : Nat :=
  (findClosestVBlocking nodes excluded qSet).length

section Parts

variable (nodes : List NodeID) (excluded : Option NodeID)

def considered (validators : List NodeID) : List NodeID :=
  validators.filter fun validator => excluded ≠ some validator

def present (validators : List NodeID) : List NodeID :=
  (considered excluded validators).filter fun validator => validator ∈ nodes

def blockedAlready (validators : List NodeID) (innerSets : List (SCPQuorumSet NodeID)) : Nat :=
  (considered excluded validators).countP (fun validator => validator ∉ nodes) +
    innerSets.countP fun inner => cost nodes excluded inner = 0

def costly (innerSets : List (SCPQuorumSet NodeID)) : List (SCPQuorumSet NodeID) :=
  innerSets.filter fun inner => cost nodes excluded inner ≠ 0

def byCost (innerSets : List (SCPQuorumSet NodeID)) : List (SCPQuorumSet NodeID) :=
  (costly nodes excluded innerSets).insertionSort fun left right =>
    cost nodes excluded left ≤
      cost nodes excluded right

def shortfall (threshold : Nat) (validators : List NodeID)
    (innerSets : List (SCPQuorumSet NodeID)) : Nat :=
  1 + validators.length + innerSets.length - threshold -
    blockedAlready nodes excluded validators innerSets

variable {nodes excluded} {threshold : Nat} {validators : List NodeID}
  {innerSets : List (SCPQuorumSet NodeID)}

theorem byCost_perm : (byCost nodes excluded innerSets).Perm (costly nodes excluded innerSets) :=
  List.perm_insertionSort _ _

omit [DecidableEq NodeID] in
theorem cheapest_zero (res : List NodeID) (found : List (List NodeID)) : cheapest 0 res found = [] := by
  simp [cheapest]

theorem cheapest_eq (left : Nat) :
    cheapest left (present nodes excluded validators)
        (innerSets.map (findClosestVBlocking nodes excluded)) =
      (present nodes excluded validators).take left ++
        ((byCost nodes excluded innerSets).take
          (left - (present nodes excluded validators).length)).flatMap
            (findClosestVBlocking nodes excluded) := by
  have sorted : (byCost nodes excluded innerSets).map (findClosestVBlocking nodes excluded) =
      ((innerSets.map (findClosestVBlocking nodes excluded)).filter
        fun v => v.length ≠ 0).insertionSort fun v1 v2 => v1.length ≤ v2.length := by
    rw [byCost, costly, List.filter_map]
    exact List.map_insertionSort _ _ _ _ fun left _ right _ => Iff.rfl
  unfold cheapest
  simp only
  rw [← sorted, List.flatMap, List.map_take, List.length_take]
  congr 3
  omega

theorem findClosestVBlocking_eq (sane : Sane (.mk threshold validators innerSets)) :
    findClosestVBlocking nodes excluded (.mk threshold validators innerSets) =
      cheapest (shortfall nodes excluded threshold validators innerSets)
        (present nodes excluded validators)
        (innerSets.map (findClosestVBlocking nodes excluded)) := by
  have entries := sane.meetable.entries_le
  obtain ⟨⟨positive, reachable, -⟩, -, few⟩ := sane
  simp only [SCPQuorumSet.validators, SCPQuorumSet.innerSets] at entries
  have start : (1 + validators.length + innerSets.length + (2 ^ 64 - threshold)) % 2 ^ 64 =
      1 + validators.length + innerSets.length - threshold := by omega
  rw [findClosestVBlocking]
  simp only [start, findClosestVBlockingInner_eq]
  rw [tillBlock_eq (by omega) (by omega), count_map_true]
  unfold shortfall blockedAlready considered
  by_cases early : 1 + validators.length + innerSets.length - threshold ≤
      (validators.filter fun validator => excluded ≠ some validator).countP
        fun validator => validator ∉ nodes
  · rw [if_pos early, Nat.sub_eq_zero_of_le (by omega), cheapest_zero]
  · rw [if_neg early]
    simp only
    rw [tillBlock_eq (by omega) (by omega), List.map_map, count_map_true]
    simp only [Function.comp_def]
    by_cases late : 1 + validators.length + innerSets.length - threshold -
        (validators.filter fun validator => excluded ≠ some validator).countP
          (fun validator => validator ∉ nodes) ≤
        innerSets.countP fun inner => cost nodes excluded inner = 0
    · rw [if_pos late, Nat.sub_eq_zero_of_le (by omega), cheapest_zero]
    · rw [if_neg late]
      simp only
      rw [Nat.sub_sub _ _ (innerSets.countP _)]
      rfl

/-! ### Where the answer comes from -/

omit [DecidableEq NodeID] in
theorem cheapest_subperm (left : Nat) (res : List NodeID) (found : List (List NodeID)) :
    (cheapest left res found).Subperm (res ++ found.flatten) := by
  unfold cheapest
  apply List.Subperm.append
  · exact (List.take_sublist left res).subperm
  · have sorted := List.perm_insertionSort (fun v1 v2 : List NodeID => v1.length ≤ v2.length)
      (found.filter fun v => v.length ≠ 0)
    exact (List.take_sublist _ _).flatten.subperm.trans
      (sorted.flatten.subperm.trans List.filter_sublist.flatten.subperm)

theorem mem_present {node : NodeID} :
    node ∈ present nodes excluded validators ↔
      (node ∈ validators ∧ excluded ≠ some node) ∧ node ∈ nodes := by
  simp only [present, considered, List.mem_filter, decide_eq_true_eq]

theorem findClosestVBlocking_given {qSet : SCPQuorumSet NodeID} :
    ∀ node ∈ findClosestVBlocking nodes excluded qSet, node ∈ nodes ∧ excluded ≠ some node := by
  induction qSet with
  | mk threshold validators innerSets ih =>
      intro node member
      rw [findClosestVBlocking] at member
      simp only at member
      split at member
      · cases member
      split at member
      · cases member
      rw [findClosestVBlockingInner_eq] at member
      rcases List.mem_append.mp ((cheapest_subperm _ _ _).subset member) with own | inside
      · obtain ⟨⟨-, other⟩, given⟩ := mem_present.mp own
        exact ⟨given, other⟩
      · obtain ⟨v, found, memberV⟩ := List.mem_flatten.mp inside
        obtain ⟨inner, memberInner, rfl⟩ := List.mem_map.mp found
        exact ih inner memberInner node memberV

omit [DecidableEq NodeID] in
theorem flatMap_subperm {α : Type} {items : List α} {few many : α → List NodeID}
    (each : ∀ item ∈ items, (few item).Subperm (many item)) :
    (items.flatMap few).Subperm (items.flatMap many) := by
  induction items with
  | nil => exact List.Subperm.refl _
  | cons head tail ih =>
      rw [List.flatMap_cons, List.flatMap_cons]
      exact (each head List.mem_cons_self).append
        (ih fun item member => each item (List.mem_cons_of_mem head member))

theorem findClosestVBlocking_subperm (qSet : SCPQuorumSet NodeID) :
    (findClosestVBlocking nodes excluded qSet).Subperm (allNodes qSet) := by
  induction qSet with
  | mk threshold validators innerSets ih =>
      rw [findClosestVBlocking, allNodes_mk]
      simp only
      split
      · exact List.nil_subperm
      split
      · exact List.nil_subperm
      rw [findClosestVBlockingInner_eq]
      refine (cheapest_subperm _ _ _).trans (List.Subperm.append ?_ (flatMap_subperm ih))
      exact (List.filter_sublist.trans List.filter_sublist).subperm

/-! ### The answer blocks -/

/-- What the search is for: nodes that block together with the missing ones, and no more than any
other choice takes of the nodes of the quorum set. -/
structure Closest (nodes : List NodeID) (excluded : Option NodeID) (missing : List NodeID)
    (qSet : SCPQuorumSet NodeID) : Prop where
  blocks : isVBlocking (findClosestVBlocking nodes excluded qSet ++ missing) qSet = true
  least : ∀ chosen : List NodeID, (∀ node ∈ chosen, node ∈ nodes ∧ excluded ≠ some node) →
    isVBlocking (chosen ++ missing) qSet = true →
      (findClosestVBlocking nodes excluded qSet).length ≤
        (allNodes qSet).countP fun node => node ∈ chosen

variable {missing : List NodeID}

theorem validators_hit (left : Nat) {answer : List NodeID}
    (taken : (present nodes excluded validators).take left ⊆ answer)
    (absent : ∀ node ∈ validators, node ∈ missing ↔ node ∉ nodes) :
    (considered excluded validators).countP (fun validator => validator ∉ nodes) +
        min left (present nodes excluded validators).length ≤
      validators.countP fun node => node ∈ answer ++ missing := by
  have all : (considered excluded validators).countP (fun node => node ∈ answer ++ missing) ≤
      validators.countP fun node => node ∈ answer ++ missing :=
    List.filter_sublist.countP_le
  have parts := (considered excluded validators).countP_eq_countP_filter_add
    (fun node => node ∈ answer ++ missing) (fun node => node ∈ nodes)
  have chosen : min left (present nodes excluded validators).length ≤
      (present nodes excluded validators).countP fun node => node ∈ answer ++ missing := by
    have inAnswer : ((present nodes excluded validators).take left).countP
        (fun node => node ∈ answer ++ missing) =
          ((present nodes excluded validators).take left).length := by
      rw [List.countP_eq_length]
      intro node member
      exact decide_eq_true (List.mem_append_left _ (taken member))
    rw [← List.length_take, ← inAnswer]
    exact (List.take_sublist _ _).countP_le
  have gone : (considered excluded validators).countP (fun validator => validator ∉ nodes) =
      ((considered excluded validators).filter fun node => !decide (node ∈ nodes)).countP
        fun node => node ∈ answer ++ missing := by
    rw [List.countP_filter]
    apply List.countP_congr
    intro node member
    have inMissing := absent node (List.filter_sublist.subset member)
    simp only [decide_eq_true_eq, Bool.and_eq_true, Bool.not_eq_true', decide_eq_false_iff_not,
      List.mem_append]
    tauto
  unfold present at chosen ⊢
  omega

theorem innerSets_hit (left : Nat) {answer : List NodeID}
    (blocked : ∀ inner ∈ innerSets, findClosestVBlocking nodes excluded inner = [] ∨
      inner ∈ (byCost nodes excluded innerSets).take left →
        isVBlocking (findClosestVBlocking nodes excluded inner ++ missing) inner = true)
    (taken : ∀ inner ∈ (byCost nodes excluded innerSets).take left,
      findClosestVBlocking nodes excluded inner ⊆ answer) :
    innerSets.countP (fun inner => cost nodes excluded inner = 0) +
        min left (costly nodes excluded innerSets).length ≤
      innerSets.countP (isVBlocking (answer ++ missing)) := by
  have hit : ∀ inner ∈ innerSets, (findClosestVBlocking nodes excluded inner = [] ∨
      inner ∈ (byCost nodes excluded innerSets).take left) →
      findClosestVBlocking nodes excluded inner ⊆ answer →
      isVBlocking (answer ++ missing) inner = true := by
    intro inner member counted included
    have more : findClosestVBlocking nodes excluded inner ++ missing ⊆ answer ++ missing :=
      List.append_subset.mpr
        ⟨List.subset_append_of_subset_left _ included, List.subset_append_right _ _⟩
    exact isVBlocking_mono more inner (blocked inner member counted)
  have parts := innerSets.countP_eq_countP_filter_add (isVBlocking (answer ++ missing))
    (fun inner => cost nodes excluded inner ≠ 0)
  have chosen : min left (costly nodes excluded innerSets).length ≤
      (costly nodes excluded innerSets).countP (isVBlocking (answer ++ missing)) := by
    have all : ((byCost nodes excluded innerSets).take left).countP
        (isVBlocking (answer ++ missing)) =
          ((byCost nodes excluded innerSets).take left).length := by
      rw [List.countP_eq_length]
      intro inner member
      have costs := byCost_perm.subset ((List.take_sublist _ _).subset member)
      exact hit inner (List.filter_sublist.subset costs) (.inr member) (taken inner member)
    rw [← byCost_perm.length_eq, ← byCost_perm.countP_eq, ← List.length_take, ← all]
    exact (List.take_sublist _ _).countP_le
  have free : innerSets.countP (fun inner =>
      cost nodes excluded inner = 0) ≤
      (innerSets.filter fun inner =>
        !decide (cost nodes excluded inner ≠ 0)).countP
          (isVBlocking (answer ++ missing)) := by
    rw [List.countP_filter]
    apply List.countP_mono_left
    intro inner member zero
    have nothing : findClosestVBlocking nodes excluded inner = [] := by simpa using zero
    have counted := hit inner member (.inl nothing) (by rw [nothing]; exact List.nil_subset _)
    simp [counted, nothing]
  unfold costly at chosen ⊢
  omega

variable (nodes excluded) in
theorem present_length (validators : List NodeID) :
    (considered excluded validators).countP (fun validator => validator ∉ nodes) +
        (present nodes excluded validators).length = (considered excluded validators).length := by
  have parts := (considered excluded validators).length_eq_countP_add_countP
    fun validator => validator ∈ nodes
  rw [present, ← List.countP_eq_length_filter]
  simp only [decide_eq_true_eq] at parts
  omega

variable (nodes excluded) in
theorem costly_length (innerSets : List (SCPQuorumSet NodeID)) :
    innerSets.countP (fun inner => cost nodes excluded inner = 0) +
        (costly nodes excluded innerSets).length = innerSets.length := by
  have parts := innerSets.length_eq_countP_add_countP
    fun inner => cost nodes excluded inner = 0
  rw [costly, ← List.countP_eq_length_filter]
  simp only [decide_eq_true_eq] at parts
  simp only [ne_eq]
  omega

variable (nodes excluded) in
theorem findClosestVBlocking_parts (sane : Sane (.mk threshold validators innerSets)) :
    findClosestVBlocking nodes excluded (.mk threshold validators innerSets) =
      (present nodes excluded validators).take
          (shortfall nodes excluded threshold validators innerSets) ++
        ((byCost nodes excluded innerSets).take
          (shortfall nodes excluded threshold validators innerSets -
            (present nodes excluded validators).length)).flatMap
              (findClosestVBlocking nodes excluded) := by
  rw [findClosestVBlocking_eq sane, cheapest_eq]

theorem findClosestVBlocking_blocks (sane : Sane (.mk threshold validators innerSets))
    (absent : ∀ node ∈ allNodes (.mk threshold validators innerSets),
      node ∈ missing ↔ node ∉ nodes)
    (blocked : ∀ inner ∈ innerSets, findClosestVBlocking nodes excluded inner = [] ∨
      inner ∈ (byCost nodes excluded innerSets).take
        (shortfall nodes excluded threshold validators innerSets -
          (present nodes excluded validators).length) →
        isVBlocking (findClosestVBlocking nodes excluded inner ++ missing) inner = true)
    (enough : validators.length < threshold + (considered excluded validators).length) :
    isVBlocking (findClosestVBlocking nodes excluded (.mk threshold validators innerSets) ++ missing)
      (.mk threshold validators innerSets) = true := by
  have parts := findClosestVBlocking_parts nodes excluded sane
  rw [isVBlocking_iff_passing sane]
  generalize findClosestVBlocking nodes excluded (.mk threshold validators innerSets) = answer at *
  have nodesTaken : (present nodes excluded validators).take
      (shortfall nodes excluded threshold validators innerSets) ⊆ answer := by
    rw [parts]
    exact List.subset_append_left _ _
  have setsTaken : ∀ inner ∈ (byCost nodes excluded innerSets).take
      (shortfall nodes excluded threshold validators innerSets -
        (present nodes excluded validators).length),
      findClosestVBlocking nodes excluded inner ⊆ answer := by
    intro inner member node inside
    rw [parts]
    exact List.mem_append_right _ (List.mem_flatMap.mpr ⟨inner, member, inside⟩)
  have ownAbsent : ∀ node ∈ validators, node ∈ missing ↔ node ∉ nodes := by
    intro node member
    apply absent
    rw [allNodes_mk]
    exact List.mem_append_left _ member
  have nodeHits := validators_hit _ nodesTaken ownAbsent
  have setHits := innerSets_hit _ blocked setsTaken
  have nodeParts := present_length nodes excluded validators
  have setParts := costly_length nodes excluded innerSets
  obtain ⟨⟨positive, reachable, -⟩, -, -⟩ := sane
  unfold passing
  unfold shortfall blockedAlready at nodeHits setHits
  omega

/-! ### No other choice is smaller -/

variable (nodes excluded) in
/-- What it costs to block the entries that are not blocked, in ascending order. -/
def costs (validators : List NodeID) (innerSets : List (SCPQuorumSet NodeID)) : List Nat :=
  List.replicate (present nodes excluded validators).length 1 ++
    (byCost nodes excluded innerSets).map fun inner =>
      cost nodes excluded inner

theorem costs_sorted : (costs nodes excluded validators innerSets).Pairwise (· ≤ ·) := by
  unfold costs
  rw [List.pairwise_append]
  refine ⟨?_, ?_, ?_⟩
  · exact List.pairwise_replicate.mpr (.inr le_rfl)
  · rw [List.pairwise_map]
    exact List.pairwise_insertionSort _ _
  · intro one isOne cost member
    rw [List.eq_of_mem_replicate isOne]
    obtain ⟨inner, present, rfl⟩ := List.mem_map.mp member
    have nonzero := (List.mem_filter.mp (byCost_perm.subset present)).2
    simp only [ne_eq, decide_eq_true_eq] at nonzero
    omega

theorem findClosestVBlocking_length (sane : Sane (.mk threshold validators innerSets)) :
    (findClosestVBlocking nodes excluded (.mk threshold validators innerSets)).length =
      ((costs nodes excluded validators innerSets).take
        (shortfall nodes excluded threshold validators innerSets)).sum := by
  rw [findClosestVBlocking_parts nodes excluded sane, costs, List.take_append, List.sum_append,
    List.length_append, List.length_flatMap, List.take_replicate, List.sum_replicate_nat,
    List.length_replicate, List.length_take, Nat.mul_one, List.map_take]

def paid (chosen missing : List NodeID) (validators : List NodeID)
    (innerSets : List (SCPQuorumSet NodeID)) (nodes : List NodeID) (excluded : Option NodeID) :
    List Nat :=
  List.replicate (validators.countP fun node => node ∈ chosen) 1 ++
    ((costly nodes excluded innerSets).filter (isVBlocking (chosen ++ missing))).map fun inner =>
      cost nodes excluded inner

section Chosen

variable {chosen : List NodeID}

theorem paid_among (given : ∀ node ∈ chosen, node ∈ nodes ∧ excluded ≠ some node) :
    (paid chosen missing validators innerSets nodes excluded).Subperm
      (costs nodes excluded validators innerSets) := by
  have fewer : validators.countP (fun node => node ∈ chosen) ≤
      (present nodes excluded validators).length := by
    rw [present, considered, List.filter_filter, ← List.countP_eq_length_filter]
    apply List.countP_mono_left
    intro node _ picked
    obtain ⟨available, other⟩ := given node (of_decide_eq_true picked)
    simp [available, other]
  apply List.Subperm.append
  · exact (List.replicate_sublist_replicate 1).mpr fewer |>.subperm
  · exact (List.filter_sublist.map _).subperm.trans (byCost_perm.symm.map _).subperm

theorem countP_append_le (left right : List NodeID) (items : List NodeID) :
    items.countP (fun node => node ∈ left ++ right) ≤
      items.countP (fun node => node ∈ left) + items.countP fun node => node ∈ right := by
  rw [items.countP_eq_countP_filter_add _ (fun node => node ∈ left)]
  apply Nat.add_le_add
  · rw [List.countP_eq_length_filter (p := fun node => decide (node ∈ left))]
    exact List.countP_le_length
  · rw [List.countP_filter]
    apply List.countP_mono_left
    intro node _ both
    simp only [List.mem_append, Bool.and_eq_true, decide_eq_true_eq, Bool.not_eq_true',
      decide_eq_false_iff_not] at both
    exact decide_eq_true (both.1.resolve_left both.2)

theorem shortfall_le_paid (sane : Sane (.mk threshold validators innerSets))
    (absent : ∀ node ∈ allNodes (.mk threshold validators innerSets),
      node ∈ missing ↔ node ∉ nodes)
    (leftOut : ∀ node, excluded = some node → node ∈ nodes)
    (blocks : isVBlocking (chosen ++ missing) (.mk threshold validators innerSets) = true) :
    shortfall nodes excluded threshold validators innerSets ≤
      (paid chosen missing validators innerSets nodes excluded).length := by
  rw [isVBlocking_iff_passing sane, passing] at blocks
  have nodeHits := countP_append_le chosen missing validators
  have gone : validators.countP (fun node => node ∈ missing) ≤
      (considered excluded validators).countP fun validator => validator ∉ nodes := by
    rw [considered, List.countP_filter]
    apply List.countP_mono_left
    intro node member inMissing
    have outside : node ∉ nodes := (absent node (by
      rw [allNodes_mk]
      exact List.mem_append_left _ member)).mp (of_decide_eq_true inMissing)
    have other : excluded ≠ some node := fun same => outside (leftOut node same)
    simp [outside, other]
  have setHits := innerSets.countP_eq_countP_filter_add (isVBlocking (chosen ++ missing))
    (fun inner => cost nodes excluded inner ≠ 0)
  have free : (innerSets.filter fun inner =>
      !decide (cost nodes excluded inner ≠ 0)).countP
        (isVBlocking (chosen ++ missing)) ≤
      innerSets.countP fun inner => cost nodes excluded inner = 0 := by
    rw [List.countP_filter]
    apply List.countP_mono_left
    intro inner _ both
    simp only [ne_eq, decide_not, Bool.not_not, Bool.and_eq_true] at both
    exact both.2
  rw [paid, List.length_append, List.length_replicate, List.length_map,
    ← List.countP_eq_length_filter]
  unfold shortfall blockedAlready costly
  omega

theorem paid_sum_le (given : ∀ node ∈ chosen, node ∈ nodes ∧ excluded ≠ some node)
    (closest : ∀ inner ∈ innerSets, Closest nodes excluded missing inner) :
    (paid chosen missing validators innerSets nodes excluded).sum ≤
      (allNodes (.mk threshold validators innerSets)).countP fun node => node ∈ chosen := by
  rw [paid, List.sum_append, List.sum_replicate_nat, Nat.mul_one, allNodes_mk,
    List.countP_append, List.countP_flatMap]
  apply Nat.add_le_add_left
  have sublist : ((costly nodes excluded innerSets).filter
      (isVBlocking (chosen ++ missing))).Sublist innerSets :=
    List.filter_sublist.trans List.filter_sublist
  calc (((costly nodes excluded innerSets).filter (isVBlocking (chosen ++ missing))).map
        fun inner => cost nodes excluded inner).sum
      ≤ (((costly nodes excluded innerSets).filter (isVBlocking (chosen ++ missing))).map
        fun inner => (allNodes inner).countP fun node => node ∈ chosen).sum := by
        apply List.sum_le_sum
        intro inner member
        have blocked := (List.mem_filter.mp member).2
        exact (closest inner (sublist.subset member)).least chosen given blocked
    _ ≤ (innerSets.map fun inner => (allNodes inner).countP fun node => node ∈ chosen).sum :=
        (sublist.map _).sum_le_sum fun _ _ => Nat.zero_le _

end Chosen

theorem closest_mk (sane : Sane (.mk threshold validators innerSets))
    (absent : ∀ node ∈ allNodes (.mk threshold validators innerSets),
      node ∈ missing ↔ node ∉ nodes)
    (leftOut : ∀ node, excluded = some node → node ∈ nodes)
    (closest : ∀ inner ∈ innerSets, Closest nodes excluded missing inner)
    (enough : validators.length < threshold + (considered excluded validators).length) :
    Closest nodes excluded missing (.mk threshold validators innerSets) where
  blocks := findClosestVBlocking_blocks sane absent
    (fun inner member _ => (closest inner member).blocks) enough
  least chosen given blocks := by
    rw [findClosestVBlocking_length sane]
    have cheapestCosts := sum_take_le costs_sorted (paid_among given)
      (shortfall_le_paid sane absent leftOut blocks)
    exact cheapestCosts.trans (paid_sum_le given closest)

end Parts

/-! ### Sets that can be blocked -/

section Free

variable {nodes missing : List NodeID} {excluded : Option NodeID} {qSet : SCPQuorumSet NodeID}

theorem enough_considered {threshold : Nat} {validators : List NodeID}
    {innerSets : List (SCPQuorumSet NodeID)} (sane : Sane (.mk threshold validators innerSets))
    (free : isQuorumSlice excluded.toList (.mk threshold validators innerSets) = false) :
    validators.length < threshold + (considered excluded validators).length := by
  rw [Bool.eq_false_iff, ne_eq, isQuorumSlice_iff_passing sane, passing] at free
  have parts := validators.length_eq_countP_add_countP fun node => node ∈ excluded.toList
  have others : (considered excluded validators).length =
      validators.countP fun node => ¬ decide (node ∈ excluded.toList) = true := by
    rw [considered, ← List.countP_eq_length_filter]
    apply List.countP_congr
    intro node _
    simp
  omega

theorem closest_none (sane : Sane qSet)
    (absent : ∀ node ∈ allNodes qSet, node ∈ missing ↔ node ∉ nodes) :
    Closest nodes none missing qSet := by
  induction qSet with
  | mk threshold validators innerSets ih =>
      have free : isQuorumSlice (none : Option NodeID).toList (.mk threshold validators innerSets) =
          false := isQuorumSlice_nil _
      apply closest_mk sane absent _ _ (enough_considered sane free)
      · intro node impossible
        cases impossible
      · intro inner member
        exact ih inner member (sane.inner member)
          fun node inside => absent node (mem_allNodes_inner member inside)

theorem findClosestVBlocking_nodup (sane : Sane qSet) :
    (findClosestVBlocking nodes excluded qSet).Nodup := by
  have part : (findClosestVBlocking nodes excluded qSet).Subperm (allNodes qSet) :=
    findClosestVBlocking_subperm qSet
  obtain ⟨ordered, perm, sublist⟩ := part
  exact perm.nodup_iff.mp (sane.distinct.sublist sublist)

theorem countP_mem_le {items listed : List NodeID} (distinct : items.Nodup) :
    items.countP (fun node => node ∈ listed) ≤ listed.length := by
  rw [List.countP_eq_length_filter]
  apply (List.subperm_of_subset (distinct.filter _) _).length_le
  intro node member
  exact of_decide_eq_true (List.mem_filter.mp member).2

end Free

def missingFrom (qSet : SCPQuorumSet NodeID) (nodes : List NodeID) : List NodeID :=
  (allNodes qSet).filter fun node => node ∉ nodes

theorem mem_missingFrom {qSet : SCPQuorumSet NodeID} {nodes : List NodeID} {node : NodeID}
    (inside : node ∈ allNodes qSet) : node ∈ missingFrom qSet nodes ↔ node ∉ nodes := by
  simp [missingFrom, inside]

/-- In a sane quorum set the search finds a smallest set of the given nodes that blocks it together
with the missing ones; it is empty exactly where the missing ones block alone. -/
theorem findClosestVBlocking_smallest (qSet : SCPQuorumSet NodeID) (extraChecks : Bool)
    (checked : isQuorumSetSane qSet extraChecks = true) (nodes : List NodeID) :
    (findClosestVBlocking nodes none qSet).Nodup ∧
    findClosestVBlocking nodes none qSet ⊆ nodes ∧
    isVBlocking (findClosestVBlocking nodes none qSet ++ missingFrom qSet nodes) qSet = true ∧
    (∀ chosen, chosen ⊆ nodes → isVBlocking (chosen ++ missingFrom qSet nodes) qSet = true →
      (findClosestVBlocking nodes none qSet).length ≤ chosen.length) ∧
    (findClosestVBlocking nodes none qSet = [] ↔
      isVBlocking (missingFrom qSet nodes) qSet = true) := by
  have sane := sane_of_isQuorumSetSane checked
  have closest : Closest nodes none (missingFrom qSet nodes) qSet :=
    closest_none sane fun node inside => mem_missingFrom inside
  have least : ∀ chosen, chosen ⊆ nodes →
      isVBlocking (chosen ++ missingFrom qSet nodes) qSet = true →
        (findClosestVBlocking nodes none qSet).length ≤ chosen.length := by
    intro chosen subset blocks
    have bound := closest.least chosen (fun node member => ⟨subset member, by simp⟩) blocks
    exact bound.trans (countP_mem_le sane.distinct)
  refine ⟨findClosestVBlocking_nodup sane, ?_, closest.blocks, least, ?_⟩
  · exact fun node member => (findClosestVBlocking_given node member).1
  · constructor
    · intro nothing
      have blocks := closest.blocks
      rw [nothing] at blocks
      exact blocks
    · intro blocks
      exact List.length_eq_zero_iff.mp (Nat.le_zero.mp (least [] (List.nil_subset _) blocks))

/-- Of the cheapest two organisations one is blocked by one of its nodes and one by two. -/
theorem findClosestVBlocking_smallest_nested :
    findClosestVBlocking [1, 2, 3, 4, 5, 6, 7, 8] none
        (.mk 2 [] [.mk 1 [1, 2, 3] [], .mk 2 [4, 5, 6] [], .mk 2 [7, 8] []]) = [7, 4, 5] ∧
      (∀ chosen, chosen ⊆ [1, 2, 3, 4, 5, 6, 7, 8] → isVBlocking (chosen ++ [])
        (.mk 2 [] [.mk 1 [1, 2, 3] [], .mk 2 [4, 5, 6] [], .mk 2 [7, 8] []]) = true →
          3 ≤ chosen.length) := by
  have found : findClosestVBlocking [1, 2, 3, 4, 5, 6, 7, 8] none
      (.mk 2 [] [.mk 1 [1, 2, 3] [], .mk 2 [4, 5, 6] [], .mk 2 [7, 8] []]) = [7, 4, 5] := by
    decide +kernel
  obtain ⟨-, -, -, least, -⟩ := findClosestVBlocking_smallest
    (.mk 2 [] [.mk 1 [1, 2, 3] [], .mk 2 [4, 5, 6] [], .mk 2 [7, 8] []]) false (by decide +kernel)
    [1, 2, 3, 4, 5, 6, 7, 8]
  rw [found] at least
  exact ⟨found, least⟩

end ViiCore.SCP.LocalNode
