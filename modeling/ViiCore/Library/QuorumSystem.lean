import Mathlib.Data.Finset.Card
import Mathlib.Data.Fintype.Defs
import Mathlib.Logic.Relation
import Mathlib.Order.Minimal
import Mathlib.Order.WellFounded
import Mathlib.Tactic.Common

/-!
Quorums of a support relation: non-empty sets that support each of their members.

Two disjoint quorums are found by looking at minimal ones that hold no more than half of the members,
and where support comes along edges only, a minimal quorum is strongly connected.
-/

namespace ViiCore.QuorumSystem

open Relation

variable {α : Type} [DecidableEq α] {supports : Finset α → α → Prop}

def Along (edge : α → α → Prop) (supports : Finset α → α → Prop) : Prop :=
  ∀ set part member, part ⊆ set → (∀ next ∈ set, edge member next → next ∈ part) →
    supports set member → supports part member

def IsQuorum (supports : Finset α → α → Prop) (quorum : Finset α) : Prop :=
  quorum.Nonempty ∧ ∀ member ∈ quorum, supports quorum member

omit [DecidableEq α] in
theorem exists_minimal {quorum : Finset α} (isQuorum : IsQuorum supports quorum) :
    ∃ least ⊆ quorum, Minimal (IsQuorum supports) least :=
  exists_minimal_le_of_wellFoundedLT _ quorum isQuorum

theorem minimal_iff_erase {quorum : Finset α} :
    Minimal (IsQuorum supports) quorum ↔ IsQuorum supports quorum ∧
      ∀ member ∈ quorum, ¬ ∃ other, IsQuorum supports other ∧ other ⊆ quorum.erase member := by
  constructor
  · intro minimal
    refine ⟨minimal.prop, ?_⟩
    rintro member present ⟨other, isQuorum, inside⟩
    have whole := minimal.le_of_le isQuorum (inside.trans (Finset.erase_subset _ _))
    exact Finset.notMem_erase member quorum (inside (whole present))
  · rintro ⟨isQuorum, irreducible⟩
    refine ⟨isQuorum, ?_⟩
    intro other otherQuorum inside member present
    by_contra missing
    refine irreducible member present ⟨other, otherQuorum, ?_⟩
    exact Finset.subset_erase.mpr ⟨inside, missing⟩

theorem exists_half {within left right : Finset α} (leftQuorum : IsQuorum supports left)
    (rightQuorum : IsQuorum supports right) (leftInside : left ⊆ within)
    (rightInside : right ⊆ within) (disjoint : Disjoint left right) :
    ∃ half other, IsQuorum supports half ∧ IsQuorum supports other ∧ half ⊆ within ∧
      other ⊆ within ∧ Disjoint half other ∧ half.card ≤ within.card / 2 := by
  have both : left.card + right.card ≤ within.card := by
    rw [← Finset.card_union_of_disjoint disjoint]
    exact Finset.card_le_card (Finset.union_subset leftInside rightInside)
  rcases Nat.le_total left.card right.card with smaller | smaller
  · exact ⟨left, right, leftQuorum, rightQuorum, leftInside, rightInside, disjoint, by omega⟩
  · exact ⟨right, left, rightQuorum, leftQuorum, rightInside, leftInside, disjoint.symm, by omega⟩

theorem exists_minimal_half {within left right : Finset α} (leftQuorum : IsQuorum supports left)
    (rightQuorum : IsQuorum supports right) (leftInside : left ⊆ within)
    (rightInside : right ⊆ within) (disjoint : Disjoint left right) :
    ∃ least other, Minimal (IsQuorum supports) least ∧ IsQuorum supports other ∧
      least ⊆ within ∧ other ⊆ within \ least ∧ least.card ≤ within.card / 2 := by
  obtain ⟨half, other, halfQuorum, otherQuorum, halfInside, otherInside, apart, few⟩ :=
    exists_half leftQuorum rightQuorum leftInside rightInside disjoint
  obtain ⟨least, smaller, minimal⟩ := exists_minimal halfQuorum
  refine ⟨least, other, minimal, otherQuorum, smaller.trans halfInside, ?_, ?_⟩
  · exact Finset.subset_sdiff.mpr ⟨otherInside, (apart.mono_left smaller).symm⟩
  · exact (Finset.card_le_card smaller).trans few

omit [DecidableEq α] in
theorem minimal_reaches {edge : α → α → Prop} (along : Along edge supports) {quorum : Finset α}
    (minimal : Minimal (IsQuorum supports) quorum) {source target : α} (start : source ∈ quorum)
    (stop : target ∈ quorum) : ReflTransGen edge source target := by
  classical
  let reached := quorum.filter fun member => ReflTransGen edge source member
  have closed : IsQuorum supports reached := by
    refine ⟨⟨source, Finset.mem_filter.mpr ⟨start, .refl⟩⟩, ?_⟩
    intro member present
    obtain ⟨inside, reaches⟩ := Finset.mem_filter.mp present
    refine along quorum reached member (Finset.filter_subset _ _) ?_ (minimal.prop.2 member inside)
    intro next among step
    exact Finset.mem_filter.mpr ⟨among, reaches.tail step⟩
  have whole := minimal.le_of_le closed (Finset.filter_subset _ _)
  exact (Finset.mem_filter.mp (whole stop)).2

end ViiCore.QuorumSystem
