import Mathlib.Data.List.Sort
import Mathlib.Logic.Function.Basic

/-!
Three-way comparisons by the sign of a number, and sorting by them.

The laws are stated at one element, so that they can be proved by induction for the comparison of
nested data.
-/

namespace ViiCore.Comparison

variable {α β γ : Type}

/-- The laws of a total order, with one element on the left. -/
structure LawfulAt (compare : α → α → Int) (item : α) : Prop where
  swap : ∀ other, compare other item = -compare item other
  eq_of_zero : ∀ other, compare item other = 0 → item = other
  trans : ∀ second third, compare item second < 0 → compare second third ≤ 0 →
    compare item third < 0

theorem LawfulAt.congr {compare other : α → α → Int} (same : ∀ left right, compare left right =
    other left right) {item : α} (lawful : LawfulAt other item) : LawfulAt compare item := by
  have equal : compare = other := funext fun left => funext (same left)
  rw [equal]
  exact lawful

def andThen (first second : Int) : Int := if first ≠ 0 then first else second

theorem andThen_of_ne {first : Int} (decided : first ≠ 0) (second : Int) :
    andThen first second = first :=
  if_pos decided

@[simp] theorem andThen_zero (second : Int) : andThen 0 second = second := rfl

theorem LawfulAt.pair {first : α → α → Int} {second : β → β → Int} {left : α} {right : β}
    (lawfulLeft : LawfulAt first left) (lawfulRight : LawfulAt second right) :
    LawfulAt (fun l r : α × β => andThen (first l.1 r.1) (second l.2 r.2)) (left, right) where
  swap := by
    intro ⟨otherLeft, otherRight⟩
    have swapLeft := lawfulLeft.swap otherLeft
    have swapRight := lawfulRight.swap otherRight
    by_cases undecided : first left otherLeft = 0
    · simp only [swapLeft, undecided, swapRight, Int.neg_zero, andThen_zero]
    · simp only [swapLeft, andThen_of_ne undecided, andThen_of_ne (Int.neg_ne_zero.mpr undecided)]
  eq_of_zero := by
    intro ⟨otherLeft, otherRight⟩ zero
    by_cases undecided : first left otherLeft = 0
    · simp only [undecided, andThen_zero] at zero
      rw [lawfulLeft.eq_of_zero otherLeft undecided, lawfulRight.eq_of_zero otherRight zero]
    · simp only [andThen_of_ne undecided] at zero
      exact absurd zero undecided
  trans := by
    intro ⟨left₂, right₂⟩ ⟨left₃, right₃⟩ below notAbove
    by_cases undecided : first left left₂ = 0
    · cases lawfulLeft.eq_of_zero left₂ undecided
      simp only [undecided, andThen_zero] at below
      by_cases still : first left left₃ = 0
      · simp only [still, andThen_zero] at notAbove ⊢
        exact lawfulRight.trans right₂ right₃ below notAbove
      · simp only [andThen_of_ne still] at notAbove ⊢
        omega
    · simp only [andThen_of_ne undecided] at below
      have head : first left₂ left₃ ≤ 0 := by
        by_cases still : first left₂ left₃ = 0
        · omega
        · simpa only [andThen_of_ne still] using notAbove
      have decided := lawfulLeft.trans left₂ left₃ below head
      simp only [andThen_of_ne decided.ne]
      exact decided

theorem LawfulAt.comap {compare : β → β → Int} {view : α → β} (injective : Function.Injective view)
    {item : α} (lawful : LawfulAt compare (view item)) :
    LawfulAt (fun left right => compare (view left) (view right)) item where
  swap other := lawful.swap (view other)
  eq_of_zero other zero := injective (lawful.eq_of_zero (view other) zero)
  trans second third := lawful.trans (view second) (view third)

/-! ### Sorting -/

section Sorting

variable {le : α → α → Bool} (trans : ∀ a b c, le a b = true → le b c = true → le a c = true)
  (total : ∀ a b, (le a b || le b a) = true)

include trans total in
/-- Where elements that are not ordered are equal, sorting forgets the order of a list. -/
theorem mergeSort_congr (antisymm : ∀ a b, le a b = true → le b a = true → a = b)
    {left right : List α} (same : left.Perm right) : left.mergeSort le = right.mergeSort le := by
  have permuted : (left.mergeSort le).Perm (right.mergeSort le) :=
    (List.mergeSort_perm left le).trans (same.trans (List.mergeSort_perm right le).symm)
  exact permuted.eq_of_pairwise (fun a b _ _ => antisymm a b)
    (List.pairwise_mergeSort trans total left) (List.pairwise_mergeSort trans total right)

end Sorting

def notAfter (compare : α → α → Int) (left right : α) : Bool := 0 ≤ compare right left

section Lawful

variable {compare : α → α → Int} (lawful : ∀ item, LawfulAt compare item)

include lawful in
theorem notAfter_iff (left right : α) : notAfter compare left right = true ↔ compare left right ≤ 0 := by
  have swap := (lawful left).swap right
  simp only [notAfter, decide_eq_true_eq]
  omega

include lawful in
theorem notAfter_trans (a b c : α) (first : notAfter compare a b = true)
    (second : notAfter compare b c = true) : notAfter compare a c = true := by
  rw [notAfter_iff lawful] at first second ⊢
  by_cases same : compare a b = 0
  · rw [(lawful a).eq_of_zero b same]
    exact second
  · exact ((lawful a).trans b c (by omega) second).le

include lawful in
theorem notAfter_total (a b : α) : (notAfter compare a b || notAfter compare b a) = true := by
  have swap := (lawful a).swap b
  rw [Bool.or_eq_true, notAfter_iff lawful, notAfter_iff lawful]
  omega

include lawful in
theorem notAfter_antisymm (a b : α) (first : notAfter compare a b = true)
    (second : notAfter compare b a = true) : a = b := by
  have swap := (lawful a).swap b
  rw [notAfter_iff lawful] at first second
  exact (lawful a).eq_of_zero b (by omega)

end Lawful

end ViiCore.Comparison
