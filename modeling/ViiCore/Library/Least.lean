import Mathlib.Order.Lattice
import Mathlib.Order.Basic
import Mathlib.Tactic.Common

/-!
The least element of a predicate, by a rank, where there is one.

A search that looks at one source after another keeps the better of what it has and what it
finds; the rules below say what it is then the least of.
-/

namespace ViiCore.Least

variable {α β : Type} [LinearOrder β] (rank : α → β)

/-- Some element that is ranked no higher than any other, or nothing where there is none. -/
def LeastOf (among : α → Prop) : Option α → Prop
  | none => ∀ item, ¬ among item
  | some best => among best ∧ ∀ item, among item → rank best ≤ rank item

/-- What is ranked lower, the second of two that are ranked alike. -/
def lower : Option α → Option α → Option α
  | none, second => second
  | some first, none => some first
  | some first, some second => if rank first < rank second then some first else some second

variable {rank}

theorem LeastOf.congr {among other : α → Prop} {best : Option α} (least : LeastOf rank among best)
    (same : ∀ item, other item ↔ among item) : LeastOf rank other best := by
  have equal : other = among := funext fun item => propext (same item)
  rw [equal]
  exact least

theorem leastOf_none : LeastOf rank (fun _ : α => False) none := fun _ impossible => impossible

theorem leastOf_single (item : α) : LeastOf rank (fun other => other = item) (some item) := by
  refine ⟨rfl, ?_⟩
  intro other same
  rw [same]

theorem LeastOf.lower {first second : α → Prop} {left right : Option α}
    (leastFirst : LeastOf rank first left) (leastSecond : LeastOf rank second right) :
    LeastOf rank (fun item => first item ∨ second item) (Least.lower rank left right) := by
  cases left with
  | none =>
      have only : ∀ item, (first item ∨ second item) ↔ second item := by
        intro item
        constructor
        · exact fun either => either.resolve_left (leastFirst item)
        · exact Or.inr
      exact leastSecond.congr only
  | some best =>
      cases right with
      | none =>
          have only : ∀ item, (first item ∨ second item) ↔ first item := by
            intro item
            constructor
            · exact fun either => either.resolve_right (leastSecond item)
            · exact Or.inl
          exact leastFirst.congr only
      | some other =>
          by_cases below : rank best < rank other
          · rw [Least.lower, if_pos below]
            refine ⟨.inl leastFirst.1, ?_⟩
            intro item member
            rcases member with inFirst | inSecond
            · exact leastFirst.2 item inFirst
            · exact below.le.trans (leastSecond.2 item inSecond)
          · rw [Least.lower, if_neg below]
            refine ⟨.inr leastSecond.1, ?_⟩
            intro item member
            rcases member with inFirst | inSecond
            · exact (not_lt.mp below).trans (leastFirst.2 item inFirst)
            · exact leastSecond.2 item inSecond

theorem leastOf_find {items : List α} (sorted : items.Pairwise fun left right => rank left ≤ rank right)
    (fits : α → Bool) : LeastOf rank (fun item => item ∈ items ∧ fits item) (items.find? fits) := by
  induction items with
  | nil => exact fun item member => List.not_mem_nil member.1
  | cons head tail ih =>
      obtain ⟨first, rest⟩ := List.pairwise_cons.mp sorted
      cases fitting : fits head with
      | true =>
          rw [List.find?_cons_of_pos fitting]
          refine ⟨⟨List.mem_cons_self, fitting⟩, ?_⟩
          intro item member
          rcases List.mem_cons.mp member.1 with same | later
          · rw [same]
          · exact first item later
      | false =>
          rw [List.find?_cons_of_neg (by simp [fitting])]
          apply (ih rest).congr
          intro item
          rw [List.mem_cons]
          constructor
          · rintro ⟨same | later, fit⟩
            · rw [same, fitting] at fit
              cases fit
            · exact ⟨later, fit⟩
          · exact fun member => ⟨.inr member.1, member.2⟩

end ViiCore.Least
