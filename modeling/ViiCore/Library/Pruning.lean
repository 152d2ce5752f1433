import Mathlib.Logic.Function.Iterate
import Mathlib.Order.Basic
import Mathlib.Tactic.Common

/-!
Pruning a list until every item is supported by the items that are left.

What a loop of such rounds ends with is the greatest list of supported items, where more items
support no less.
-/

namespace ViiCore.Pruning

variable {α : Type} (keep : List α → α → Bool)

def round (items : List α) : List α :=
  items.filter (keep items)

/-- Rounds until one drops nothing, which is told by comparing lengths. -/
def loop : Nat → List α → List α
  | 0, items => items
  | fuel + 1, items =>
      if items.length = (round keep items).length then round keep items
      else loop fuel (round keep items)

variable {keep}

theorem round_sublist (items : List α) : (round keep items).Sublist items :=
  List.filter_sublist

theorem round_eq_of_length {items : List α} (same : items.length = (round keep items).length) :
    round keep items = items :=
  (round_sublist items).eq_of_length same.symm

/-- There is a round that drops nothing, after no more rounds than there are items, and the loop
ends with it. -/
theorem loop_ends (items : List α) : ∃ rounds ≤ items.length,
    ((round keep)^[rounds + 1] items).length = ((round keep)^[rounds] items).length ∧
      ∀ fuel, rounds < fuel → loop keep fuel items = (round keep)^[rounds + 1] items := by
  induction size : items.length using Nat.strongRecOn generalizing items with
  | ind size ih =>
      by_cases same : items.length = (round keep items).length
      · refine ⟨0, Nat.zero_le _, same.symm, ?_⟩
        intro fuel enough
        cases fuel with
        | zero => exact absurd enough (Nat.not_lt_zero _)
        | succ fuel => rw [loop, if_pos same, Function.iterate_one]
      · have shorter : (round keep items).length ≤ items.length := (round_sublist items).length_le
        obtain ⟨rounds, few, drops, ends⟩ :=
          ih (round keep items).length (by omega) (round keep items) rfl
        refine ⟨rounds + 1, by omega, drops, ?_⟩
        intro fuel enough
        cases fuel with
        | zero => exact absurd enough (Nat.not_lt_zero _)
        | succ fuel =>
            rw [loop, if_neg same, ends fuel (Nat.lt_of_succ_lt_succ enough)]
            rfl

theorem loop_stable {items : List α} {fuel : Nat} (enough : items.length < fuel) :
    round keep (loop keep fuel items) = loop keep fuel items := by
  obtain ⟨rounds, few, drops, ends⟩ : ∃ rounds ≤ items.length, _ := loop_ends items
  rw [Function.iterate_succ_apply'] at drops
  have same := round_eq_of_length drops.symm
  rw [ends fuel (Nat.lt_of_le_of_lt few enough), Function.iterate_succ_apply', same, same]

theorem loop_sublist (fuel : Nat) (items : List α) : (loop keep fuel items).Sublist items := by
  induction fuel generalizing items with
  | zero => exact List.Sublist.refl items
  | succ fuel ih =>
      rw [loop]
      split
      · exact round_sublist items
      · exact (ih _).trans (round_sublist items)

theorem loop_greatest
    (mono : ∀ small large item, small ⊆ large → keep small item = true → keep large item = true)
    {closed : List α} (supported : ∀ item ∈ closed, keep closed item = true) (fuel : Nat)
    {items : List α} (included : closed ⊆ items) : closed ⊆ loop keep fuel items := by
  induction fuel generalizing items with
  | zero => exact included
  | succ fuel ih =>
      have kept : closed ⊆ round keep items := by
        intro item member
        have held := mono closed items item included (supported item member)
        exact List.mem_filter.mpr ⟨included member, held⟩
      rw [loop]
      split
      · exact kept
      · exact ih kept

end ViiCore.Pruning
