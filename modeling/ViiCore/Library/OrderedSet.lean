import Mathlib.Order.Lattice
import Mathlib.Order.Basic
import Mathlib.Tactic.Common

/-!
Sets kept as strictly ascending lists, as an ordered container iterates them.
Insertion drops duplicates, so membership is the only thing a client observes
besides the iteration order.
-/

namespace ViiCore.OrderedSet

variable {α : Type} [LinearOrder α]

def insert (item : α) : List α → List α
  | [] => [item]
  | head :: tail =>
      if item < head then item :: head :: tail
      else if item = head then head :: tail
      else head :: insert item tail

def ofList (items : List α) : List α :=
  items.foldl (fun set item => insert item set) []

theorem mem_insert (item other : α) (set : List α) :
    other ∈ insert item set ↔ other = item ∨ other ∈ set := by
  induction set with
  | nil => simp [insert]
  | cons head tail ih =>
      simp only [insert]
      split
      · simp
      · split
        · rename_i same
          subst item
          simp
        · rw [List.mem_cons, ih, List.mem_cons]
          tauto

theorem mem_foldl_insert (items : List α) (set : List α) (other : α) :
    other ∈ items.foldl (fun set item => insert item set) set ↔ other ∈ items ∨ other ∈ set := by
  induction items generalizing set with
  | nil => simp
  | cons head tail ih =>
      simp only [List.foldl_cons, ih, mem_insert, List.mem_cons]
      tauto

@[simp] theorem mem_ofList (items : List α) (other : α) : other ∈ ofList items ↔ other ∈ items := by
  simp [ofList, mem_foldl_insert]

theorem insert_ascending (item : α) (set : List α) (ascending : set.Pairwise (· < ·)) :
    (insert item set).Pairwise (· < ·) := by
  induction set with
  | nil => simp [insert]
  | cons head tail ih =>
      have parts := List.pairwise_cons.mp ascending
      simp only [insert]
      split
      · rename_i below
        refine List.pairwise_cons.mpr ⟨?_, ascending⟩
        intro other member
        rcases List.mem_cons.mp member with same | later
        · exact same ▸ below
        · exact below.trans (parts.1 other later)
      · split
        · exact ascending
        · rename_i notBelow different
          have above : head < item := lt_of_le_of_ne (not_lt.mp notBelow) (Ne.symm different)
          refine List.pairwise_cons.mpr ⟨?_, ih parts.2⟩
          intro other member
          rcases (mem_insert item other tail).mp member with same | later
          · exact same ▸ above
          · exact parts.1 other later

theorem ofList_ascending (items : List α) : (ofList items).Pairwise (· < ·) := by
  suffices general : ∀ set : List α, set.Pairwise (· < ·) →
      (items.foldl (fun set item => insert item set) set).Pairwise (· < ·) from
    general [] List.Pairwise.nil
  induction items with
  | nil => intro set ascending; exact ascending
  | cons head tail ih =>
      intro set ascending
      exact ih _ (insert_ascending head set ascending)

theorem reverse_descending (items : List α) : (ofList items).reverse.Pairwise (· > ·) :=
  List.pairwise_reverse.mpr (ofList_ascending items)

end ViiCore.OrderedSet
