import Mathlib.Data.Finset.Card
import Mathlib.Data.Finset.Lattice.Fold
import Mathlib.Order.Lattice.Nat
import Mathlib.Tactic.Common

/-!
The bitset of `util/BitSet.h` over `lib/util/cbitset.c`.

A bitset is its set bits and the number of 64-bit words that are in use. Words past the last one in
use read as zero, except in the comparisons: `bitset_equal` and `bitset_subseteq` look only at the
words that both sides have.
-/

namespace ViiCore

structure BitSet where
  bits : Finset Nat
  arraysize : Nat
  within : ∀ i ∈ bits, i / 64 < arraysize

namespace BitSet

def empty : BitSet where
  bits := ∅
  arraysize := 0
  within := by simp

def withCapacity (size : Nat) : BitSet where
  bits := ∅
  arraysize := (size + 63) / 64
  within := by simp

def set (b : BitSet) (i : Nat) : BitSet where
  bits := insert i b.bits
  arraysize := Nat.max b.arraysize (i / 64 + 1)
  within := by
    intro j member
    rcases Finset.mem_insert.mp member with rfl | old
    · exact Nat.lt_of_lt_of_le (Nat.lt_succ_self _) (Nat.le_max_right _ _)
    · exact Nat.lt_of_lt_of_le (b.within j old) (Nat.le_max_left _ _)

def unset (b : BitSet) (i : Nat) : BitSet where
  bits := b.bits.erase i
  arraysize := b.arraysize
  within := fun j member => b.within j (Finset.mem_of_mem_erase member)

def get (b : BitSet) (i : Nat) : Bool :=
  decide (i ∈ b.bits)

def count (b : BitSet) : Nat :=
  b.bits.card

def isEmpty (b : BitSet) : Bool :=
  decide (b.bits = ∅)

def max (b : BitSet) : Nat :=
  b.bits.sup id

def union (b1 b2 : BitSet) : BitSet where
  bits := b1.bits ∪ b2.bits
  arraysize := Nat.max b1.arraysize b2.arraysize
  within := by
    intro i member
    rcases Finset.mem_union.mp member with first | second
    · exact Nat.lt_of_lt_of_le (b1.within i first) (Nat.le_max_left _ _)
    · exact Nat.lt_of_lt_of_le (b2.within i second) (Nat.le_max_right _ _)

def intersection (b1 b2 : BitSet) : BitSet where
  bits := b1.bits ∩ b2.bits
  arraysize := b1.arraysize
  within := fun i member => b1.within i (Finset.mem_inter.mp member).1

def difference (b1 b2 : BitSet) : BitSet where
  bits := b1.bits \ b2.bits
  arraysize := b1.arraysize
  within := fun i member => b1.within i (Finset.mem_sdiff.mp member).1

def intersectionCount (b1 b2 : BitSet) : Nat :=
  (b1.bits ∩ b2.bits).card

/-- The set bits in the words that two bitsets have in common. -/
def common (b other : BitSet) : Finset Nat :=
  b.bits.filter fun i => i / 64 < min b.arraysize other.arraysize

def isEqual (b1 b2 : BitSet) : Bool :=
  decide (b1.common b2 = b2.common b1)

def isSubsetEq (b1 b2 : BitSet) : Bool :=
  decide (b1.common b2 ⊆ b2.common b1)

def toList (b : BitSet) : List Nat :=
  (List.range (64 * b.arraysize)).filter fun i => i ∈ b.bits

/-! ### What the operations do to the bits -/

@[simp] theorem bits_empty : empty.bits = ∅ := rfl

@[simp] theorem bits_withCapacity (size : Nat) : (withCapacity size).bits = ∅ := rfl

@[simp] theorem bits_set (b : BitSet) (i : Nat) : (b.set i).bits = insert i b.bits := rfl

@[simp] theorem bits_unset (b : BitSet) (i : Nat) : (b.unset i).bits = b.bits.erase i := rfl

@[simp] theorem bits_union (b1 b2 : BitSet) : (b1.union b2).bits = b1.bits ∪ b2.bits := rfl

@[simp] theorem bits_intersection (b1 b2 : BitSet) :
    (b1.intersection b2).bits = b1.bits ∩ b2.bits := rfl

@[simp] theorem bits_difference (b1 b2 : BitSet) :
    (b1.difference b2).bits = b1.bits \ b2.bits := rfl

@[simp] theorem get_eq_true {b : BitSet} {i : Nat} : b.get i = true ↔ i ∈ b.bits := by
  simp [get]

@[simp] theorem isEmpty_eq_true {b : BitSet} : b.isEmpty = true ↔ b.bits = ∅ := by
  simp [isEmpty]

theorem isEmpty_eq_false {b : BitSet} : b.isEmpty = false ↔ b.bits.Nonempty := by
  rw [Finset.nonempty_iff_ne_empty, isEmpty, decide_eq_false_iff_not]

@[simp] theorem mem_toList {b : BitSet} {i : Nat} : i ∈ b.toList ↔ i ∈ b.bits := by
  unfold toList
  rw [List.mem_filter, List.mem_range, decide_eq_true_iff]
  constructor
  · intro ⟨_, member⟩
    exact member
  · intro member
    have bound := b.within i member
    exact ⟨by omega, member⟩

theorem max_mem {b : BitSet} (filled : b.bits.Nonempty) : b.max ∈ b.bits := by
  obtain ⟨i, member, largest⟩ := b.bits.exists_mem_eq_sup filled id
  rw [max, largest]
  exact member

theorem isSubsetEq_of_subset {b1 b2 : BitSet} (subset : b1.bits ⊆ b2.bits) :
    b1.isSubsetEq b2 = true := by
  apply decide_eq_true
  intro i member
  obtain ⟨present, low⟩ := Finset.mem_filter.mp member
  rw [common, Finset.mem_filter, Nat.min_comm]
  exact ⟨subset present, low⟩

/-! ### Bitsets without spare words -/

def Tight (b : BitSet) : Prop :=
  ∃ i ∈ b.bits, b.arraysize = i / 64 + 1

theorem tight_set_empty (i : Nat) : (empty.set i).Tight :=
  ⟨i, Finset.mem_insert_self i _, Nat.zero_max _⟩

theorem Tight.set {b : BitSet} (tight : b.Tight) (i : Nat) : (b.set i).Tight := by
  obtain ⟨top, member, last⟩ := tight
  by_cases higher : top / 64 + 1 ≤ i / 64 + 1
  · refine ⟨i, Finset.mem_insert_self i _, ?_⟩
    exact Nat.max_eq_right (last.trans_le higher)
  · refine ⟨top, Finset.mem_insert_of_mem member, ?_⟩
    exact (Nat.max_eq_left (by omega)).trans last

theorem Tight.isEqual_of_disjoint {b1 b2 : BitSet} (tight1 : b1.Tight) (tight2 : b2.Tight)
    (disjoint : Disjoint b1.bits b2.bits) : b1.isEqual b2 = false := by
  apply decide_eq_false
  intro same
  obtain ⟨top1, member1, last1⟩ := tight1
  obtain ⟨top2, member2, last2⟩ := tight2
  rcases Nat.le_total b1.arraysize b2.arraysize with shorter | shorter
  · have seen : top1 ∈ b1.common b2 := by
      refine Finset.mem_filter.mpr ⟨member1, ?_⟩
      rw [Nat.min_eq_left shorter]
      omega
    rw [same] at seen
    exact Finset.disjoint_left.mp disjoint member1 (Finset.mem_filter.mp seen).1
  · have seen : top2 ∈ b2.common b1 := by
      refine Finset.mem_filter.mpr ⟨member2, ?_⟩
      rw [Nat.min_eq_left shorter]
      omega
    rw [← same] at seen
    exact Finset.disjoint_left.mp disjoint (Finset.mem_filter.mp seen).1 member2

theorem isEqual_refl (b : BitSet) : b.isEqual b = true :=
  decide_eq_true rfl

end BitSet

end ViiCore
