import Mathlib.Data.List.Basic
import Mathlib.Data.List.Perm.Basic
import Mathlib.Tactic.Common

/-!
Removal from a vector that does not keep the order: the slot takes the last item, and the last slot
goes.
-/

namespace ViiCore.SwapPop

open scoped List

variable {α : Type} {items : List α} {position : Nat}

def swapPop (items : List α) (position : Nat) : List α :=
  match items.getLast? with
  | some back => (items.set position back).dropLast
  | none => []

theorem swapPop_concat (front : List α) (back : α) (position : Nat) :
    swapPop (front ++ [back]) position = front.set position back := by
  unfold swapPop
  rw [List.getLast?_concat]
  dsimp only
  by_cases inside : position < front.length
  · rw [List.set_append_left _ _ inside, List.dropLast_concat]
  · rw [List.set_append_right _ _ (Nat.not_lt.mp inside), List.set_eq_of_length_le (Nat.not_lt.mp inside)]
    cases position - front.length with
    | zero => exact List.dropLast_concat
    | succ _ => exact List.dropLast_concat

theorem length_swapPop (items : List α) (position : Nat) :
    (swapPop items position).length = items.length - 1 := by
  rcases items.eq_nil_or_concat' with rfl | ⟨front, back, rfl⟩
  · rfl
  · rw [swapPop_concat, List.length_set, List.length_append]
    rfl

theorem perm_cons_swapPop {item : α} (there : items[position]? = some item) :
    items ~ item :: swapPop items position := by
  rcases items.eq_nil_or_concat' with rfl | ⟨front, back, rfl⟩
  · cases there
  rw [swapPop_concat]
  by_cases inside : position < front.length
  · rw [List.getElem?_append_left inside, List.getElem?_eq_some_iff] at there
    obtain ⟨_, rfl⟩ := there
    calc front ++ [back] ~ back :: front := List.perm_append_singleton back front
      _ ~ back :: front[position] :: front.eraseIdx position :=
        (List.getElem_cons_eraseIdx_perm inside).symm.cons back
      _ ~ front[position] :: back :: front.eraseIdx position := List.Perm.swap _ _ _
      _ ~ front[position] :: front.set position back :=
        (List.set_perm_cons_eraseIdx inside back).symm.cons _
  · have beyond := Nat.not_lt.mp inside
    rw [List.getElem?_append_right beyond] at there
    rw [List.set_eq_of_length_le beyond]
    cases List.mem_singleton.mp (List.mem_of_getElem? there)
    exact List.perm_append_singleton item front

theorem getElem?_swapPop {earlier : Nat} (before : earlier < position)
    (inside : position < items.length) : (swapPop items position)[earlier]? = items[earlier]? := by
  rcases items.eq_nil_or_concat' with rfl | ⟨front, back, rfl⟩
  · exact absurd inside (Nat.not_lt_zero _)
  · rw [List.length_append, List.length_singleton] at inside
    rw [swapPop_concat, List.getElem?_set_ne (Nat.ne_of_gt before),
      List.getElem?_append_left (by omega)]

end ViiCore.SwapPop
