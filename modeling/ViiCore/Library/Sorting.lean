import Mathlib.Data.List.Sort

/-!
Sorting as a library offers it: the result is a permutation in which nothing stands before
something smaller. The order of elements that compare equal is left open, so a result is
known exactly only where the keys of the list are distinct.
-/

namespace ViiCore.Sorting

variable {α β : Type}

structure StrictWeak (less : α → α → Bool) : Prop where
  asymmetric : ∀ left right, less left right → ¬ less right left
  negativelyTransitive : ∀ left middle right,
    ¬ less middle left → ¬ less right middle → ¬ less right left

structure Sorter (α : Type) where
  sort : (α → α → Bool) → List α → List α
  perm : ∀ less items, (sort less items).Perm items
  sorted : ∀ less, StrictWeak less → ∀ items,
    (sort less items).Pairwise fun left right => ¬ less right left

def stableSorter (α : Type) : Sorter α where
  sort less items := items.insertionSort fun left right => ¬ less right left
  perm less items := List.perm_insertionSort _ items
  sorted less weak items := by
    have total : Std.Total fun left right : α => ¬ (less right left = true) := ⟨by
      intro left right
      by_cases after : less right left
      · exact .inr (weak.asymmetric right left after)
      · exact .inl after⟩
    have transitive : IsTrans α fun left right => ¬ (less right left = true) :=
      ⟨weak.negativelyTransitive⟩
    exact List.pairwise_insertionSort _ items

section Keys

variable [LinearOrder β] (key : α → β)

def byKey (left right : α) : Bool := key left < key right

theorem byKey_weak : StrictWeak (byKey key) where
  asymmetric left right before after := by
    simp only [byKey, decide_eq_true_eq] at before after
    exact lt_asymm before after
  negativelyTransitive left middle right first second := by
    simp only [byKey, decide_eq_true_eq, not_lt] at first second ⊢
    exact first.trans second

theorem Sorter.sorted_byKey (sorter : Sorter α) (items : List α) :
    (sorter.sort (byKey key) items).Pairwise fun left right => key left ≤ key right := by
  apply (sorter.sorted (byKey key) (byKey_weak key) items).imp
  intro left right notAfter
  simpa [byKey] using notAfter

theorem eq_of_sorted {left right : List α} (same : left.Perm right)
    (distinct : ∀ first ∈ left, ∀ second ∈ left, key first = key second → first = second)
    (leftSorted : left.Pairwise fun first second => key first ≤ key second)
    (rightSorted : right.Pairwise fun first second => key first ≤ key second) : left = right := by
  apply List.Perm.eq_of_pairwise _ leftSorted rightSorted same
  intro first second inLeft inRight before after
  exact distinct first inLeft second (same.mem_iff.mpr inRight) (le_antisymm before after)

theorem Sorter.sort_congr (sorter : Sorter α) {left right : List α} (same : left.Perm right)
    (distinct : ∀ first ∈ left, ∀ second ∈ left, key first = key second → first = second) :
    sorter.sort (byKey key) left = sorter.sort (byKey key) right := by
  have permuted := (sorter.perm (byKey key) left).trans (same.trans (sorter.perm (byKey key) right).symm)
  apply eq_of_sorted key permuted _ (sorter.sorted_byKey key left) (sorter.sorted_byKey key right)
  intro first inFirst second inSecond
  exact distinct first ((sorter.perm _ left).mem_iff.mp inFirst) second
    ((sorter.perm _ left).mem_iff.mp inSecond)

end Keys

/-! ### Priority queues -/

def popTop (less : α → α → Bool) : List α → Option (α × List α)
  | [] => none
  | item :: items =>
      match popTop less items with
      | none => some (item, [])
      | some (top, rest) => if less item top then some (top, item :: rest) else some (item, top :: rest)

theorem eq_nil_of_popTop_none {less : α → α → Bool} {items : List α}
    (none : popTop less items = none) : items = [] := by
  cases items with
  | nil => rfl
  | cons item items =>
      unfold popTop at none
      split at none
      · cases none
      · split at none <;> cases none

theorem popTop_perm {less : α → α → Bool} {items rest : List α} {top : α}
    (popped : popTop less items = some (top, rest)) : (top :: rest).Perm items := by
  induction items generalizing top rest with
  | nil => cases popped
  | cons item items ih =>
      unfold popTop at popped
      cases inner : popTop less items with
      | none =>
          simp only [inner] at popped
          cases popped
          rw [eq_nil_of_popTop_none inner]
      | some found =>
          obtain ⟨best, others⟩ := found
          have early := ih inner
          simp only [inner] at popped
          split at popped
          · cases popped
            exact (List.Perm.swap item _ others).trans (early.cons item)
          · cases popped
            exact early.cons item

theorem popTop_greatest {less : α → α → Bool} (weak : StrictWeak less) {items rest : List α}
    {top : α} (popped : popTop less items = some (top, rest)) :
    ∀ other ∈ rest, ¬ less top other := by
  induction items generalizing top rest with
  | nil => cases popped
  | cons item items ih =>
      unfold popTop at popped
      cases inner : popTop less items with
      | none =>
          simp only [inner] at popped
          cases popped
          intro other impossible
          cases impossible
      | some found =>
          obtain ⟨best, others⟩ := found
          have early := ih inner
          simp only [inner] at popped
          split at popped
          · rename_i above
            cases popped
            intro other member
            rcases List.mem_cons.mp member with same | later
            · rw [same]
              exact weak.asymmetric item _ above
            · exact early other later
          · rename_i notAbove
            cases popped
            intro other member
            rcases List.mem_cons.mp member with same | later
            · rw [same]
              exact notAbove
            · exact weak.negativelyTransitive other _ item (early other later) notAbove

end ViiCore.Sorting
