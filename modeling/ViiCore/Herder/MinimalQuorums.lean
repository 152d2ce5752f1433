import ViiCore.Herder.QuorumIntersectionChecker
import ViiCore.Library.QuorumSystem

/-!
Quorums among numbered nodes, from any relation that the slice test of the checker decides.

`contractToMaximalQuorum` finds the greatest quorum in a set of nodes, `isMinimalQuorum` tells the
minimal ones, and the enumeration finds a minimal quorum with a quorum in the rest of the component
exactly when the component holds two disjoint quorums: no branch that is cut off holds the only such
minimal quorum.
-/

namespace ViiCore.QuorumIntersection

open QuorumSystem

/-- A relation between sets of nodes and nodes that the slice test of a graph decides. -/
structure Decides (graph : QGraph) (supports : Finset Nat → Nat → Prop) : Prop where
  test : ∀ bs i, containsQuorumSliceForNode graph bs i = true ↔ i ∈ bs.bits ∧ supports bs.bits i
  mono : ∀ {small large : Finset Nat}, small ⊆ large →
    ∀ {i : Nat}, supports small i → supports large i

variable {graph : QGraph} {supports : Finset Nat → Nat → Prop}

/-! ### Contraction -/

theorem mem_filtered (decides : Decides graph supports) (nodes : BitSet) (i : Nat) :
    i ∈ (filtered graph nodes).bits ↔ i ∈ nodes.bits ∧ supports nodes.bits i := by
  rw [bits_filtered, Finset.mem_filter, decides.test]
  tauto

/-- What the contraction leaves: nodes that support each other, and all of those. -/
structure Greatest (supports : Finset Nat → Nat → Prop) (within greatest : Finset Nat) : Prop where
  subset : greatest ⊆ within
  supported : ∀ i ∈ greatest, supports greatest i
  largest : ∀ q ⊆ within, (∀ i ∈ q, supports q i) → q ⊆ greatest

theorem contractToMaximalQuorum_greatest (decides : Decides graph supports) (nodes : BitSet) :
    Greatest supports nodes.bits (contractToMaximalQuorum graph nodes).bits := by
  induction counted : nodes.count using Nat.strongRecOn generalizing nodes with
  | ind size ih =>
      have subset := filtered_subset graph nodes
      have kept : ∀ q ⊆ nodes.bits, (∀ i ∈ q, supports q i) → q ⊆ (filtered graph nodes).bits := by
        intro q inside supported i member
        exact (mem_filtered decides nodes i).mpr
          ⟨inside member, decides.mono inside (supported i member)⟩
      rw [contractToMaximalQuorum]
      split
      · rename_i done
        refine ⟨subset, ?_, kept⟩
        intro i member
        rcases done with same | empty
        · have whole : (filtered graph nodes).bits = nodes.bits :=
            Finset.eq_of_subset_of_card_le subset same.ge
          rw [whole]
          exact ((mem_filtered decides nodes i).mp member).2
        · rw [BitSet.isEmpty_eq_true] at empty
          rw [empty] at member
          cases member
      · rename_i shrunk
        rw [not_or] at shrunk
        have smaller : (filtered graph nodes).count < size := by
          have fewer := Finset.card_le_card subset
          have different := shrunk.1
          unfold BitSet.count at different counted ⊢
          omega
        have inner := ih _ smaller (filtered graph nodes) rfl
        refine ⟨inner.subset.trans subset, inner.supported, ?_⟩
        intro q inside supported
        exact inner.largest q (kept q inside supported) supported

theorem contractToMaximalQuorum_nonempty (decides : Decides graph supports) (nodes : BitSet) :
    (contractToMaximalQuorum graph nodes).isEmpty = false ↔
      ∃ q ⊆ nodes.bits, IsQuorum supports q := by
  have greatest := contractToMaximalQuorum_greatest decides nodes
  rw [BitSet.isEmpty_eq_false]
  constructor
  · intro filled
    exact ⟨_, greatest.subset, filled, greatest.supported⟩
  · rintro ⟨q, inside, filled, supported⟩
    exact filled.mono (greatest.largest q inside supported)

theorem isAQuorum_iff (decides : Decides graph supports) (nodes : BitSet) :
    isAQuorum graph nodes = true ↔ ∃ q ⊆ nodes.bits, IsQuorum supports q := by
  rw [isAQuorum, Bool.not_eq_true', contractToMaximalQuorum_nonempty decides]

/-! ### Minimal quorums -/

theorem noSmallerQuorum_iff (decides : Decides graph supports) (items : List Nat) (minQ : BitSet)
    (inside : ∀ i ∈ items, i ∈ minQ.bits) :
    noSmallerQuorum graph minQ items = true ↔
      ∀ i ∈ items, ¬ ∃ q, IsQuorum supports q ∧ q ⊆ minQ.bits.erase i := by
  induction items generalizing minQ with
  | nil => simp [noSmallerQuorum]
  | cons i rest ih =>
      have back : ((minQ.unset i).set i).bits = minQ.bits := by
        rw [BitSet.bits_set, BitSet.bits_unset]
        exact Finset.insert_erase (inside i List.mem_cons_self)
      have later : ∀ j ∈ rest, j ∈ ((minQ.unset i).set i).bits := by
        intro j member
        rw [back]
        exact inside j (List.mem_cons_of_mem i member)
      rw [noSmallerQuorum, List.forall_mem_cons]
      split
      · rename_i quorum
        obtain ⟨q, smaller, isQuorum⟩ := (isAQuorum_iff decides _).mp quorum
        simp only [Bool.false_eq_true, false_iff, not_and]
        intro none
        exact absurd ⟨q, isQuorum, smaller⟩ none
      · rename_i none
        rw [ih _ later, back]
        rw [isAQuorum_iff decides, BitSet.bits_unset] at none
        constructor
        · intro others
          refine ⟨?_, others⟩
          rintro ⟨q, isQuorum, smaller⟩
          exact none ⟨q, smaller, isQuorum⟩
        · exact fun both => both.2

theorem isMinimalQuorum_iff (decides : Decides graph supports) {nodes : BitSet}
    (quorum : IsQuorum supports nodes.bits) :
    isMinimalQuorum graph nodes = true ↔ Minimal (IsQuorum supports) nodes.bits := by
  unfold isMinimalQuorum
  rw [if_neg (by rw [BitSet.isEmpty_eq_true]; exact quorum.1.ne_empty), minimal_iff_erase,
    noSmallerQuorum_iff decides _ nodes (fun i member => BitSet.mem_toList.mp member)]
  simp only [BitSet.mem_toList]
  exact (and_iff_right quorum).symm

/-! ### The enumeration -/

variable {qic : QuorumIntersectionCheckerImpl}

theorem hasDisjointQuorum_iff (decides : Decides qic.mGraph supports) (nodes : BitSet) :
    qic.hasDisjointQuorum nodes = true ↔
      ∃ q ⊆ qic.mMaxSCC.bits \ nodes.bits, IsQuorum supports q := by
  unfold QuorumIntersectionCheckerImpl.hasDisjointQuorum
  rw [Bool.not_eq_true', contractToMaximalQuorum_nonempty decides, BitSet.bits_difference]

theorem anyMinQuorumHasDisjointQuorum_sound (decides : Decides qic.mGraph supports)
    (rand_uniform : BitSet → BitSet → Nat → Nat → Nat) (committed remaining : BitSet)
    (committedInside : committed.bits ⊆ qic.mMaxSCC.bits)
    (remainingInside : remaining.bits ⊆ qic.mMaxSCC.bits)
    (found : qic.anyMinQuorumHasDisjointQuorum rand_uniform committed remaining = true) :
    ∃ left right, IsQuorum supports left ∧ IsQuorum supports right ∧
      left ⊆ qic.mMaxSCC.bits ∧ right ⊆ qic.mMaxSCC.bits ∧ Disjoint left right := by
  induction counted : remaining.count using Nat.strongRecOn generalizing committed remaining with
  | ind size ih =>
      rw [QuorumIntersectionCheckerImpl.anyMinQuorumHasDisjointQuorum] at found
      split at found
      · cases found
      dsimp only at found
      split at found
      · rename_i quorum
        split at found
        · have greatest := contractToMaximalQuorum_greatest decides committed
          obtain ⟨other, apart, otherQuorum⟩ := (hasDisjointQuorum_iff decides _).mp found
          obtain ⟨otherInside, disjoint⟩ := Finset.subset_sdiff.mp apart
          exact ⟨_, other, ⟨BitSet.isEmpty_eq_false.mp quorum, greatest.supported⟩, otherQuorum,
            greatest.subset.trans committedInside, otherInside, disjoint.symm⟩
        · cases found
      split at found
      · split at found
        · split at found
          · cases found
          · rename_i more
            have filled := BitSet.isEmpty_eq_false.mp (Bool.eq_false_of_not_eq_true more)
            have chosen := pickSplitNode_mem (rand_uniform committed remaining) qic.mGraph filled
            have fewer := Finset.card_erase_lt_of_mem chosen
            have rest := (Finset.erase_subset (pickSplitNode (rand_uniform committed remaining)
              qic.mGraph remaining) _).trans remainingInside
            rw [← counted] at ih
            split at found
            · rename_i first
              exact ih _ fewer committed (remaining.unset _) committedInside rest first rfl
            · refine ih _ fewer (committed.set _) (remaining.unset _) ?_ rest found rfl
              exact Finset.insert_subset (remainingInside chosen) committedInside
        · cases found
      · cases found

/-- The enumeration finds a minimal quorum that extends what is committed by what remains, where it
holds no more than half of the component and the rest of the component holds a quorum. -/
theorem anyMinQuorumHasDisjointQuorum_complete (decides : Decides qic.mGraph supports)
    (rand_uniform : BitSet → BitSet → Nat → Nat → Nat) {least other : Finset Nat}
    (minimal : Minimal (IsQuorum supports) least)
    (half : least.card ≤ qic.mMaxSCC.bits.card / 2) (otherQuorum : IsQuorum supports other)
    (apart : other ⊆ qic.mMaxSCC.bits \ least) (committed remaining : BitSet)
    (extending : committed.bits ⊆ least) (within : least ⊆ committed.bits ∪ remaining.bits) :
    qic.anyMinQuorumHasDisjointQuorum rand_uniform committed remaining = true := by
  induction counted : remaining.count using Nat.strongRecOn generalizing committed remaining with
  | ind size ih =>
      rw [QuorumIntersectionCheckerImpl.anyMinQuorumHasDisjointQuorum]
      have few := (Finset.card_le_card extending).trans half
      -- what is committed is part of a minimal quorum of at most half the size
      rw [if_neg (by
        unfold QuorumIntersectionCheckerImpl.maxCommit BitSet.count
        omega)]
      dsimp only
      split
      · -- a quorum inside a minimal one is all of it
        rename_i quorum
        have greatest := contractToMaximalQuorum_greatest decides committed
        have isQuorum : IsQuorum supports (contractToMaximalQuorum qic.mGraph committed).bits :=
          ⟨BitSet.isEmpty_eq_false.mp quorum, greatest.supported⟩
        have same : (contractToMaximalQuorum qic.mGraph committed).bits = least :=
          minimal.eq_of_le isQuorum (greatest.subset.trans extending)
        rw [if_pos ((isMinimalQuorum_iff decides isQuorum).mpr (same ▸ minimal)),
          hasDisjointQuorum_iff decides, same]
        exact ⟨other, apart, otherQuorum⟩
      · rename_i empty
        have greatest := contractToMaximalQuorum_greatest decides (committed.union remaining)
        have extension := greatest.largest least within minimal.prop.2
        rw [if_pos (BitSet.isEmpty_eq_false.mpr (minimal.prop.1.mono extension)),
          if_pos (BitSet.isSubsetEq_of_subset (extending.trans extension))]
        split
        · rename_i exhausted
          rw [BitSet.isEmpty_eq_true] at exhausted
          rw [exhausted, Finset.union_empty] at within
          exact absurd ((contractToMaximalQuorum_nonempty decides committed).mpr
            ⟨least, within, minimal.prop⟩) empty
        · rename_i more
          have filled := BitSet.isEmpty_eq_false.mp (Bool.eq_false_of_not_eq_true more)
          have chosen := pickSplitNode_mem (rand_uniform committed remaining) qic.mGraph filled
          have fewer := Finset.card_erase_lt_of_mem chosen
          rw [← counted] at ih
          split
          · rfl
          · rename_i first
            by_cases taken :
                pickSplitNode (rand_uniform committed remaining) qic.mGraph remaining ∈ least
            · refine ih _ fewer (committed.set _) (remaining.unset _) ?_ ?_ rfl
              · exact Finset.insert_subset taken extending
              · intro i member
                have place := within member
                simp only [BitSet.bits_set, BitSet.bits_unset, Finset.mem_union,
                  Finset.mem_insert, Finset.mem_erase] at place ⊢
                tauto
            · refine absurd (ih _ fewer committed (remaining.unset _) extending ?_ rfl) first
              intro i member
              have place := within member
              have different : i ≠
                  pickSplitNode (rand_uniform committed remaining) qic.mGraph remaining := by
                rintro rfl
                exact taken member
              simp only [BitSet.bits_unset, Finset.mem_union, Finset.mem_erase] at place ⊢
              tauto

theorem enumeration_iff (decides : Decides qic.mGraph supports)
    (rand_uniform : BitSet → BitSet → Nat → Nat → Nat) :
    qic.anyMinQuorumHasDisjointQuorum rand_uniform .empty qic.mMaxSCC = true ↔
      ∃ left right, IsQuorum supports left ∧ IsQuorum supports right ∧
        left ⊆ qic.mMaxSCC.bits ∧ right ⊆ qic.mMaxSCC.bits ∧ Disjoint left right := by
  constructor
  · exact anyMinQuorumHasDisjointQuorum_sound decides rand_uniform .empty qic.mMaxSCC
      (Finset.empty_subset _) (Finset.Subset.refl _)
  · rintro ⟨left, right, leftQuorum, rightQuorum, leftInside, rightInside, disjoint⟩
    obtain ⟨least, other, minimal, otherQuorum, inside, apart, half⟩ :=
      exists_minimal_half leftQuorum rightQuorum leftInside rightInside disjoint
    refine anyMinQuorumHasDisjointQuorum_complete decides rand_uniform minimal half otherQuorum
      apart .empty qic.mMaxSCC (Finset.empty_subset _) ?_
    exact inside.trans Finset.subset_union_right

end ViiCore.QuorumIntersection
