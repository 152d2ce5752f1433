import Mathlib.Algebra.BigOperators.Group.List.Basic
import Mathlib.Algebra.Order.Monoid.Canonical.Defs
import Mathlib.Data.List.Perm.Subperm
import Mathlib.Data.List.Sort

/-!
The cheapest choice of a number of items: with the costs in ascending order it is the beginning of
the list, and no other choice of as many items costs less. A stable sort by the costs leaves an item
behind those that cost less and those that cost the same and came before it.
-/

namespace ViiCore.Cheapest

section Place

variable {α Cost : Type} [LinearOrder Cost] {cost : α → Cost}

theorem takeWhile_length {items : List α}
    (sorted : items.Pairwise fun left right => cost left ≤ cost right) (bound : Cost) :
    (items.takeWhile fun item => decide (cost item < bound)).length =
      items.countP fun item => cost item < bound := by
  induction items with
  | nil => rfl
  | cons head tail ih =>
      obtain ⟨first, later⟩ := List.pairwise_cons.mp sorted
      by_cases below : cost head < bound
      · rw [List.takeWhile_cons_of_pos (by simpa using below), List.length_cons, ih later,
          List.countP_cons_of_pos (by simpa using below)]
      · have none : tail.countP (fun item => cost item < bound) = 0 := by
          rw [List.countP_eq_zero]
          intro item member within
          exact below ((first item member).trans_lt (of_decide_eq_true within))
        rw [List.takeWhile_cons_of_neg (by simpa using below), List.length_nil,
          List.countP_cons_of_neg (by simpa using below), none]

theorem orderedInsert_split (head : α) {first last : List α} {item : α}
    (sorted : (first ++ item :: last).Pairwise fun left right => cost left ≤ cost right) :
    ∃ first' last', (first ++ item :: last).orderedInsert
        (fun left right => cost left ≤ cost right) head = first' ++ item :: last' ∧
      first'.length = first.length + if cost head ≤ cost item then 1 else 0 := by
  induction first with
  | nil =>
      by_cases le : cost head ≤ cost item
      · refine ⟨[head], last, ?_, ?_⟩
        · rw [List.nil_append, List.orderedInsert_cons, if_pos le, List.singleton_append]
        · simp [le]
      · refine ⟨[], last.orderedInsert (fun left right => cost left ≤ cost right) head, ?_, ?_⟩
        · rw [List.nil_append, List.orderedInsert_cons, if_neg le, List.nil_append]
        · simp [le]
  | cons next rest ih =>
      rw [List.cons_append] at sorted ⊢
      obtain ⟨least, later⟩ := List.pairwise_cons.mp sorted
      by_cases le : cost head ≤ cost next
      · have below : cost head ≤ cost item := le.trans (least item (by simp))
        refine ⟨head :: next :: rest, last, ?_, ?_⟩
        · rw [List.orderedInsert_cons, if_pos le, List.cons_append, List.cons_append]
        · simp [below]
      · obtain ⟨first', last', split, length⟩ := ih later
        refine ⟨next :: first', last', ?_, ?_⟩
        · rw [List.orderedInsert_cons, if_neg le, split, List.cons_append]
        · rw [List.length_cons, length, List.length_cons]
          omega

variable (cost) in
/-- Sorted by their costs, an item comes after those that cost less, and after those that cost the
same and came before it. -/
theorem insertionSort_split (before : List α) (item : α) (after : List α) :
    ∃ first last, (before ++ item :: after).insertionSort
        (fun left right => cost left ≤ cost right) = first ++ item :: last ∧
      first.length = before.countP (fun other => cost other ≤ cost item) +
        after.countP fun other => cost other < cost item := by
  induction before with
  | nil =>
      refine ⟨_, _, List.insertionSort_cons_eq_take_drop _ item after, ?_⟩
      rw [List.countP_nil, Nat.zero_add]
      simp only [not_le]
      rw [takeWhile_length (List.pairwise_insertionSort _ after)]
      exact (List.perm_insertionSort _ after).countP_eq _
  | cons head tail ih =>
      obtain ⟨first, last, split, length⟩ := ih
      have sorted := List.pairwise_insertionSort (fun left right => cost left ≤ cost right)
        (tail ++ item :: after)
      rw [List.cons_append, List.insertionSort_cons]
      rw [split] at sorted ⊢
      obtain ⟨first', last', split', length'⟩ := orderedInsert_split head sorted
      refine ⟨first', last', split', ?_⟩
      rw [length', length, List.countP_cons]
      simp only [decide_eq_true_eq]
      omega

end Place

variable {Cost : Type} [AddCommMonoid Cost] [LinearOrder Cost] [IsOrderedAddMonoid Cost]

theorem sum_take_cons_le {cost : Cost} {costs : List Cost}
    (sorted : (cost :: costs).Pairwise (· ≤ ·)) {number : Nat} (enough : number ≤ costs.length) :
    ((cost :: costs).take number).sum ≤ (costs.take number).sum := by
  induction number generalizing cost costs with
  | zero => simp
  | succ number ih =>
      cases costs with
      | nil => simp at enough
      | cons next rest =>
          obtain ⟨first, later⟩ := List.pairwise_cons.mp sorted
          have step := ih later (Nat.le_of_succ_le_succ enough)
          rw [List.take_succ_cons, List.sum_cons, List.take_succ_cons, List.sum_cons]
          exact add_le_add (first next List.mem_cons_self) step

variable [CanonicallyOrderedAdd Cost]

theorem sum_take_le_of_sublist {costs chosen : List Cost} (sorted : costs.Pairwise (· ≤ ·))
    (sublist : chosen.Sublist costs) {number : Nat} (enough : number ≤ chosen.length) :
    (costs.take number).sum ≤ chosen.sum := by
  induction sublist generalizing number with
  | slnil => simp
  | @cons chosen costs cost sublist ih =>
      have long := enough.trans sublist.length_le
      exact (sum_take_cons_le sorted long).trans (ih (List.pairwise_cons.mp sorted).2 enough)
  | @cons_cons chosen costs cost sublist ih =>
      cases number with
      | zero => simp
      | succ number =>
          have step := ih (List.pairwise_cons.mp sorted).2 (Nat.le_of_succ_le_succ enough)
          rw [List.take_succ_cons, List.sum_cons, List.sum_cons]
          exact add_le_add_right step cost

theorem sum_take_le {costs chosen : List Cost} (sorted : costs.Pairwise (· ≤ ·))
    (among : chosen.Subperm costs) {number : Nat} (enough : number ≤ chosen.length) :
    (costs.take number).sum ≤ chosen.sum := by
  obtain ⟨ordered, perm, sublist⟩ := among
  rw [← perm.sum_eq]
  exact sum_take_le_of_sublist sorted sublist (perm.length_eq ▸ enough)

end ViiCore.Cheapest
