import Mathlib.Algebra.Order.BigOperators.Group.List
import ViiCore.Herder.QuorumIntersectionChecker
import ViiCore.Library.QuorumSystem
import ViiCore.SCP.Blocking

/-!
Nodes by their numbers: on bitsets of numbers, `containsQuorumSlice` is the slice test of
`LocalNode.cpp` on the nodes that have these numbers.

Nodes without a known quorum set have no number. They are in no quorum, so a slice inside a quorum
does without them.
-/

namespace ViiCore.QuorumIntersection

open SCP

variable {NodeID : Type} [DecidableEq NodeID]

/-! ### Numbers -/

def named (pubKeys : List NodeID) (numbers : Finset Nat) : List NodeID :=
  pubKeys.filter fun node => pubKeys.idxOf node ∈ numbers

variable {pubKeys : List NodeID} {numbers : Finset Nat}

theorem idxOf_of_getElem? (nodup : pubKeys.Nodup) {i : Nat} {node : NodeID}
    (found : pubKeys[i]? = some node) : pubKeys.idxOf node = i := by
  obtain ⟨inside, rfl⟩ := List.getElem?_eq_some_iff.mp found
  exact nodup.idxOf_getElem i inside

theorem idxOf?_eq_some (nodup : pubKeys.Nodup) {i : Nat} {node : NodeID} :
    pubKeys.idxOf? node = some i ↔ pubKeys[i]? = some node := by
  rw [List.idxOf?_eq_some_iff]
  constructor
  · rintro ⟨inside, same, -⟩
    exact List.getElem?_eq_some_iff.mpr ⟨inside, same⟩
  · intro found
    obtain ⟨inside, same⟩ := List.getElem?_eq_some_iff.mp found
    refine ⟨inside, same, ?_⟩
    intro j earlier again
    have equal := (nodup.getElem_inj_iff).mp (again.trans same.symm)
    omega

theorem mem_named (nodup : pubKeys.Nodup) {node : NodeID} :
    node ∈ named pubKeys numbers ↔ ∃ i ∈ numbers, pubKeys[i]? = some node := by
  rw [named, List.mem_filter, decide_eq_true_iff]
  constructor
  · rintro ⟨known, member⟩
    exact ⟨_, member, List.getElem?_idxOf known⟩
  · rintro ⟨i, member, found⟩
    rw [idxOf_of_getElem? nodup found]
    exact ⟨List.mem_of_getElem? found, member⟩

theorem card_inter_numbers (nodup : pubKeys.Nodup) {nodes : List NodeID} (distinct : nodes.Nodup)
    {bits : Finset Nat} (members : ∀ i, i ∈ bits ↔ ∃ node ∈ nodes, pubKeys[i]? = some node) :
    (numbers ∩ bits).card = nodes.countP fun node => node ∈ named pubKeys numbers := by
  have image : numbers ∩ bits =
      ((nodes.filter fun node => node ∈ named pubKeys numbers).toFinset).image pubKeys.idxOf := by
    ext i
    simp only [Finset.mem_inter, members, Finset.mem_image, List.mem_toFinset, List.mem_filter,
      decide_eq_true_eq, mem_named nodup]
    constructor
    · rintro ⟨member, node, inside, found⟩
      exact ⟨node, ⟨inside, i, member, found⟩, idxOf_of_getElem? nodup found⟩
    · rintro ⟨node, ⟨inside, j, member, found⟩, same⟩
      rw [idxOf_of_getElem? nodup found] at same
      subst j
      exact ⟨member, node, inside, found⟩
  rw [image, Finset.card_image_of_injOn, List.toFinset_card_of_nodup (distinct.filter _),
    List.countP_eq_length_filter]
  intro left leftMember right _ same
  simp only [List.coe_toFinset, Set.mem_ofPred_eq, List.mem_filter, decide_eq_true_eq] at leftMember
  exact (List.idxOf_inj (List.mem_of_mem_filter leftMember.2)).mp same

/-! ### Converted quorum sets -/

theorem mem_convertValidators (nodup : pubKeys.Nodup) (validators : List NodeID) (i : Nat) :
    i ∈ (convertValidators pubKeys validators).bits ↔
      ∃ node ∈ validators, pubKeys[i]? = some node := by
  unfold convertValidators
  suffices general : ∀ start : BitSet,
      i ∈ (validators.foldl (setValidator pubKeys) start).bits ↔
        i ∈ start.bits ∨ ∃ node ∈ validators, pubKeys[i]? = some node by
    simpa using general (BitSet.withCapacity pubKeys.length)
  induction validators with
  | nil => simp
  | cons validator rest ih =>
      intro start
      rw [List.foldl_cons, ih]
      simp only [List.mem_cons, exists_eq_or_imp, ← idxOf?_eq_some nodup]
      unfold setValidator
      cases found : pubKeys.idxOf? validator with
      | none => simp
      | some j =>
          simp only [BitSet.bits_set, Finset.mem_insert, Option.some.injEq]
          rw [eq_comm, or_assoc, or_left_comm]

theorem convertSCPQuorumSetInner_eq (pubKeys : List NodeID)
    (innerSets : List (SCPQuorumSet NodeID)) :
    convertSCPQuorumSetInner pubKeys innerSets = innerSets.map (convertSCPQuorumSet pubKeys) := by
  induction innerSets with
  | nil => rfl
  | cons head tail ih => rw [convertSCPQuorumSetInner, ih, List.map_cons]

theorem mem_getSuccessors (sets : List QBitSet) (out : BitSet) (i : Nat) :
    i ∈ (QBitSet.getSuccessors out sets).bits ↔
      i ∈ out.bits ∨ ∃ inner ∈ sets, i ∈ inner.mAllSuccessors.bits := by
  induction sets generalizing out with
  | nil => simp [QBitSet.getSuccessors]
  | cons head tail ih =>
      rw [QBitSet.getSuccessors, ih]
      simp [or_assoc]

theorem mem_mAllSuccessors (nodup : pubKeys.Nodup) (qSet : SCPQuorumSet NodeID) (i : Nat) :
    i ∈ (convertSCPQuorumSet pubKeys qSet).mAllSuccessors.bits ↔
      ∃ node ∈ allNodes qSet, pubKeys[i]? = some node := by
  induction qSet with
  | mk threshold validators innerSets ih =>
      rw [convertSCPQuorumSet, QBitSet.mAllSuccessors, mem_getSuccessors,
        mem_convertValidators nodup, convertSCPQuorumSetInner_eq, allNodes_mk]
      constructor
      · rintro (⟨node, member, found⟩ | ⟨inner, member, bit⟩)
        · exact ⟨node, List.mem_append_left _ member, found⟩
        · obtain ⟨set, present, rfl⟩ := List.mem_map.mp member
          obtain ⟨node, inside, found⟩ := (ih set present).mp bit
          exact ⟨node, List.mem_append_right _ (List.mem_flatMap.mpr ⟨set, present, inside⟩), found⟩
      · rintro ⟨node, member, found⟩
        rcases List.mem_append.mp member with own | nested
        · exact Or.inl ⟨node, own, found⟩
        · obtain ⟨set, present, inside⟩ := List.mem_flatMap.mp nested
          exact Or.inr ⟨_, List.mem_map_of_mem present, (ih set present).mpr ⟨node, inside, found⟩⟩

/-! ### The slice test -/

theorem containsInnerSlices_iff (bs : BitSet) (sets : List QBitSet) {innerThreshold : Nat}
    (positive : 1 ≤ innerThreshold) {innerFailLimit : Nat}
    (limit : innerFailLimit + innerThreshold = sets.length + 1) :
    containsInnerSlices bs innerThreshold innerFailLimit sets = true ↔
      innerThreshold ≤ sets.countP (containsQuorumSlice bs) := by
  induction sets generalizing innerThreshold innerFailLimit with
  | nil =>
      simp only [containsInnerSlices, List.countP_nil, Bool.false_eq_true, false_iff]
      omega
  | cons head tail ih =>
      rw [containsInnerSlices]
      rw [List.length_cons] at limit
      cases slice : containsQuorumSlice bs head with
      | true =>
          rw [if_pos rfl, List.countP_cons_of_pos slice]
          split
          · simp only [true_iff]
            omega
          · rw [ih (by omega) (by omega)]
            omega
      | false =>
          have miss : ¬ containsQuorumSlice bs head = true := by simp [slice]
          rw [if_neg Bool.false_ne_true, List.countP_cons_of_neg miss]
          split
          · have few : tail.countP (containsQuorumSlice bs) ≤ tail.length := List.countP_le_length
            simp only [Bool.false_eq_true, false_iff]
            omega
          · rw [ih positive (by omega)]

theorem slice_has_node {nodes : List NodeID} {qSet : SCPQuorumSet NodeID}
    (slice : isQuorumSlice nodes qSet = true) :
    0 < (allNodes qSet).countP fun node => node ∈ nodes := by
  by_contra none
  have apart : ∀ node ∈ allNodes qSet, node ∈ nodes ↔ node ∈ ([] : List NodeID) := by
    intro node member
    simpa using List.countP_eq_zero.mp (Nat.eq_zero_of_not_pos none) node member
  rw [isQuorumSlice_congr apart, isQuorumSlice_nil] at slice
  cases slice

theorem passing_le_nodes (nodes : List NodeID) (threshold : Nat) (validators : List NodeID)
    (innerSets : List (SCPQuorumSet NodeID)) :
    passing validators innerSets (fun node => node ∈ nodes) (isQuorumSlice nodes) ≤
      (allNodes (.mk threshold validators innerSets)).countP fun node => node ∈ nodes := by
  rw [allNodes_mk, List.countP_append, List.countP_flatMap]
  refine Nat.add_le_add_left ?_ _
  induction innerSets with
  | nil => simp
  | cons head tail ih =>
      rw [List.map_cons, List.sum_cons, List.countP_cons]
      have hit : (if isQuorumSlice nodes head = true then 1 else 0) ≤
          (allNodes head).countP fun node => node ∈ nodes := by
        split
        · rename_i slice
          exact slice_has_node slice
        · exact Nat.zero_le _
      rw [Nat.add_comm]
      exact Nat.add_le_add hit ih

theorem containsQuorumSlice_convert (nodup : pubKeys.Nodup) (bs : BitSet)
    {qSet : SCPQuorumSet NodeID} (sane : Sane qSet) :
    containsQuorumSlice bs (convertSCPQuorumSet pubKeys qSet) =
      isQuorumSlice (named pubKeys bs.bits) qSet := by
  induction qSet with
  | mk threshold validators innerSets ih =>
      have distinct := sane.distinct
      rw [allNodes_mk] at distinct
      have own : bs.intersectionCount (convertValidators pubKeys validators) =
          validators.countP fun node => node ∈ named pubKeys bs.bits :=
        card_inter_numbers nodup distinct.of_append_left (mem_convertValidators nodup validators)
      have all : bs.intersectionCount
          (convertSCPQuorumSet pubKeys (.mk threshold validators innerSets)).mAllSuccessors =
          (allNodes (.mk threshold validators innerSets)).countP
            fun node => node ∈ named pubKeys bs.bits :=
        card_inter_numbers nodup sane.distinct (mem_mAllSuccessors nodup _)
      have inner : (convertSCPQuorumSetInner pubKeys innerSets).countP (containsQuorumSlice bs) =
          innerSets.countP (isQuorumSlice (named pubKeys bs.bits)) := by
        rw [convertSCPQuorumSetInner_eq, List.countP_map]
        apply List.countP_congr
        intro set member
        rw [Function.comp_apply, ih set member (sane.inner member)]
      have length : (convertSCPQuorumSetInner pubKeys innerSets).length = innerSets.length := by
        rw [convertSCPQuorumSetInner_eq, List.length_map]
      have few : innerSets.countP (isQuorumSlice (named pubKeys bs.bits)) ≤ innerSets.length :=
        List.countP_le_length
      have nodesPass := passing_le_nodes (named pubKeys bs.bits) threshold validators innerSets
      rw [convertSCPQuorumSet, QBitSet.mAllSuccessors] at all
      rw [Bool.eq_iff_iff, isQuorumSlice_iff_passing sane, convertSCPQuorumSet,
        containsQuorumSlice]
      simp only [all, own, length]
      unfold passing at nodesPass ⊢
      split
      · simp only [true_iff]
        omega
      · rename_i missing
        split
        · simp only [Bool.false_eq_true, false_iff]
          omega
        · split
          · simp only [Bool.false_eq_true, false_iff]
            omega
          · rw [containsInnerSlices_iff bs _ (by omega) (by rw [length]; omega), inner]
            omega

/-! ### The numbers of a map -/

variable (qmap : QuorumMap NodeID)

/-- The known quorum sets with their nodes, in the order of their numbers. -/
def known : List (NodeID × SCPQuorumSet NodeID) :=
  qmap.entries.filterMap fun pair => pair.2.map fun qSet => (pair.1, qSet)

omit [DecidableEq NodeID] in
theorem bitNumPubKeys_eq : bitNumPubKeys qmap = (known qmap).map Prod.fst := by
  simp [bitNumPubKeys, known, List.map_filterMap, Option.map_map, Function.comp_def]

theorem buildGraph_eq : buildGraph qmap =
    (known qmap).map fun pair => convertSCPQuorumSet (bitNumPubKeys qmap) pair.2 := by
  simp [buildGraph, known, List.map_filterMap, Option.map_map, Function.comp_def]

omit [DecidableEq NodeID] in
theorem bitNumPubKeys_nodup : (bitNumPubKeys qmap).Nodup := by
  have part : (bitNumPubKeys qmap).Sublist qmap.keys := by
    unfold bitNumPubKeys AList.keys List.keys
    induction qmap.entries with
    | nil => exact List.Sublist.refl _
    | cons pair rest ih =>
        cases found : pair.2 with
        | none =>
            rw [List.filterMap_cons_none (by simp [found]), List.map_cons]
            exact ih.cons _
        | some qSet =>
            rw [List.filterMap_cons_some (b := pair.1) (by simp [found]), List.map_cons]
            exact ih.cons_cons _
  exact qmap.keys_nodup.sublist part

theorem mem_known {node : NodeID} {qSet : SCPQuorumSet NodeID} :
    (node, qSet) ∈ known qmap ↔ qmap.lookup node = some (some qSet) := by
  rw [← Option.mem_def, AList.mem_lookup_iff, known, List.mem_filterMap]
  constructor
  · rintro ⟨⟨key, value⟩, member, same⟩
    obtain ⟨rfl, rfl⟩ : value = some qSet ∧ key = node := by simpa using same
    exact member
  · intro member
    exact ⟨_, member, rfl⟩

def SaneMap : Prop :=
  ∀ node qSet, qmap.lookup node = some (some qSet) → Sane qSet

def Supports (numbers : Finset Nat) (i : Nat) : Prop :=
  ∃ pair, (known qmap)[i]? = some pair ∧
    isQuorumSlice (named (bitNumPubKeys qmap) numbers) pair.2 = true

variable {qmap}

theorem containsQuorumSliceForNode_iff (sane : SaneMap qmap) (bs : BitSet) (i : Nat) :
    containsQuorumSliceForNode (buildGraph qmap) bs i = true ↔
      i ∈ bs.bits ∧ Supports qmap bs.bits i := by
  unfold containsQuorumSliceForNode Supports
  by_cases member : i ∈ bs.bits
  · rw [if_pos (BitSet.get_eq_true.mpr member), buildGraph_eq, List.getElem?_map]
    cases found : (known qmap)[i]? with
    | none => simp
    | some pair =>
        have own : Sane pair.2 :=
          sane pair.1 pair.2 ((mem_known qmap).mp (List.mem_of_getElem? found))
        simp [member, containsQuorumSlice_convert (bitNumPubKeys_nodup qmap) bs own]
  · rw [if_neg (mt BitSet.get_eq_true.mp member)]
    simp [member]

theorem named_subset {small large : Finset Nat} (subset : small ⊆ large) (pubKeys : List NodeID) :
    named pubKeys small ⊆ named pubKeys large := by
  intro node member
  obtain ⟨inside, number⟩ := List.mem_filter.mp member
  exact List.mem_filter.mpr ⟨inside, decide_eq_true (subset (of_decide_eq_true number))⟩

theorem supports_mono {small large : Finset Nat} (subset : small ⊆ large) {i : Nat}
    (supported : Supports qmap small i) : Supports qmap large i := by
  obtain ⟨pair, found, slice⟩ := supported
  exact ⟨pair, found, isQuorumSlice_mono (named_subset subset _) pair.2 slice⟩

end ViiCore.QuorumIntersection
