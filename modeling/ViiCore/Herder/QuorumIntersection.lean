import ViiCore.Herder.MinimalQuorums
import ViiCore.Herder.QuorumNumbers
import ViiCore.Herder.StrongComponents

/-!
What the answer of the quorum intersection checker says about a network.

A minimal quorum lies in one strongly connected component, so two disjoint quorums lie in two
components or in one. The checker looks for the first kind among all components and for the second
kind in the largest one; it does neither where the largest component holds no quorum.
-/

namespace ViiCore.QuorumIntersection

open SCP QuorumSystem

variable {NodeID : Type} [DecidableEq NodeID] {qmap : QuorumMap NodeID}

/-! ### Quorums of a network -/

def IsNetworkQuorum (qmap : QuorumMap NodeID) (nodes : List NodeID) : Prop :=
  nodes ≠ [] ∧ ∀ node ∈ nodes, ∃ qSet, qmap.lookup node = some (some qSet) ∧
    isQuorumSlice nodes qSet = true

def EnjoysQuorumIntersection (qmap : QuorumMap NodeID) : Prop :=
  ∀ left right : List NodeID, IsNetworkQuorum qmap left → IsNetworkQuorum qmap right →
    ∃ node ∈ left, node ∈ right

omit [DecidableEq NodeID] in
theorem getElem?_pubKeys (i : Nat) :
    (bitNumPubKeys qmap)[i]? = ((known qmap)[i]?).map Prod.fst := by
  rw [bitNumPubKeys_eq, List.getElem?_map]

theorem isNetworkQuorum_named {numbers : Finset Nat}
    (quorum : IsQuorum (Supports qmap) numbers) :
    IsNetworkQuorum qmap (named (bitNumPubKeys qmap) numbers) := by
  have nodup := bitNumPubKeys_nodup qmap
  obtain ⟨⟨i, member⟩, supported⟩ := quorum
  constructor
  · obtain ⟨pair, found, -⟩ := supported i member
    apply List.ne_nil_of_mem (a := pair.1)
    rw [mem_named nodup]
    exact ⟨i, member, by rw [getElem?_pubKeys, found]; rfl⟩
  · intro node inside
    obtain ⟨j, number, known⟩ := (mem_named nodup).mp inside
    obtain ⟨pair, found, slice⟩ := supported j number
    rw [getElem?_pubKeys, found] at known
    obtain rfl : pair.1 = node := Option.some.inj known
    exact ⟨pair.2, (mem_known qmap).mp (List.mem_of_getElem? found), slice⟩

def numbersOf (qmap : QuorumMap NodeID) (nodes : List NodeID) : Finset Nat :=
  (nodes.map (bitNumPubKeys qmap).idxOf).toFinset

theorem IsNetworkQuorum.pubKey {nodes : List NodeID} (quorum : IsNetworkQuorum qmap nodes)
    {node : NodeID} (member : node ∈ nodes) : node ∈ bitNumPubKeys qmap := by
  obtain ⟨qSet, found, -⟩ := quorum.2 node member
  rw [bitNumPubKeys_eq]
  exact List.mem_map.mpr ⟨_, (mem_known qmap).mpr found, rfl⟩

theorem IsNetworkQuorum.mem_named {nodes : List NodeID} (quorum : IsNetworkQuorum qmap nodes)
    (node : NodeID) : node ∈ named (bitNumPubKeys qmap) (numbersOf qmap nodes) ↔ node ∈ nodes := by
  rw [named, List.mem_filter, decide_eq_true_iff, numbersOf, List.mem_toFinset, List.mem_map]
  constructor
  · rintro ⟨-, other, member, same⟩
    rw [← (List.idxOf_inj (quorum.pubKey member)).mp same]
    exact member
  · intro member
    exact ⟨quorum.pubKey member, node, member, rfl⟩

theorem numbersOf_subset {nodes : List NodeID} {numbers : Finset Nat}
    (inside : ∀ node ∈ nodes, node ∈ named (bitNumPubKeys qmap) numbers) :
    numbersOf qmap nodes ⊆ numbers := by
  intro i number
  obtain ⟨node, member, rfl⟩ := List.mem_map.mp (List.mem_toFinset.mp number)
  exact of_decide_eq_true (List.mem_filter.mp (inside node member)).2

theorem IsNetworkQuorum.isQuorum {nodes : List NodeID} (quorum : IsNetworkQuorum qmap nodes) :
    IsQuorum (Supports qmap) (numbersOf qmap nodes) := by
  constructor
  · obtain ⟨node, member⟩ := List.exists_mem_of_ne_nil nodes quorum.1
    exact ⟨_, List.mem_toFinset.mpr (List.mem_map_of_mem member)⟩
  · intro i number
    obtain ⟨node, member, rfl⟩ := List.mem_map.mp (List.mem_toFinset.mp number)
    obtain ⟨qSet, found, slice⟩ := quorum.2 node member
    obtain ⟨j, place⟩ := List.getElem?_of_mem ((mem_known qmap).mpr found)
    have key : (bitNumPubKeys qmap)[j]? = some node := by rw [getElem?_pubKeys, place]; rfl
    rw [idxOf_of_getElem? (bitNumPubKeys_nodup qmap) key]
    refine ⟨_, place, ?_⟩
    rw [isQuorumSlice_congr fun other _ => quorum.mem_named other]
    exact slice

theorem enjoysQuorumIntersection_iff : EnjoysQuorumIntersection qmap ↔
    ∀ left right, IsQuorum (Supports qmap) left → IsQuorum (Supports qmap) right →
      ¬ Disjoint left right := by
  have nodup := bitNumPubKeys_nodup qmap
  constructor
  · intro enjoys left right leftQuorum rightQuorum disjoint
    obtain ⟨node, inLeft, inRight⟩ := enjoys _ _ (isNetworkQuorum_named leftQuorum)
      (isNetworkQuorum_named rightQuorum)
    obtain ⟨i, leftNumber, leftKey⟩ := (mem_named nodup).mp inLeft
    obtain ⟨j, rightNumber, rightKey⟩ := (mem_named nodup).mp inRight
    have same := (idxOf_of_getElem? nodup leftKey).symm.trans (idxOf_of_getElem? nodup rightKey)
    subst j
    exact Finset.disjoint_left.mp disjoint leftNumber rightNumber
  · intro meet left right leftQuorum rightQuorum
    obtain ⟨i, inLeft, inRight⟩ :=
      Finset.not_disjoint_iff.mp (meet _ _ leftQuorum.isQuorum rightQuorum.isQuorum)
    obtain ⟨node, leftMember, rfl⟩ := List.mem_map.mp (List.mem_toFinset.mp inLeft)
    obtain ⟨other, rightMember, same⟩ := List.mem_map.mp (List.mem_toFinset.mp inRight)
    rw [(List.idxOf_inj (rightQuorum.pubKey rightMember)).mp same] at rightMember
    exact ⟨node, leftMember, rightMember⟩

/-! ### The graph of a network -/

theorem decides_supports (sane : SaneMap qmap) : Decides (buildGraph qmap) (Supports qmap) where
  test := containsQuorumSliceForNode_iff sane
  mono subset _ := supports_mono subset

theorem edge_iff {i j : Nat} : Edge (buildGraph qmap) i j ↔
    ∃ pair, (known qmap)[i]? = some pair ∧
      ∃ node ∈ allNodes pair.2, (bitNumPubKeys qmap)[j]? = some node := by
  unfold Edge successors
  rw [buildGraph_eq, List.getElem?_map]
  cases found : (known qmap)[i]? with
  | none => simp
  | some pair => simp [mem_mAllSuccessors (bitNumPubKeys_nodup qmap)]

theorem ranged_buildGraph (qmap : QuorumMap NodeID) : Ranged (buildGraph qmap) := by
  intro i j edge
  obtain ⟨-, -, node, -, found⟩ := edge_iff.mp edge
  have inside := (List.getElem?_eq_some_iff.mp found).1
  rw [bitNumPubKeys_eq, List.length_map] at inside
  rw [buildGraph_eq, List.length_map]
  exact inside

theorem along_supports (qmap : QuorumMap NodeID) :
    Along (Edge (buildGraph qmap)) (Supports qmap) := by
  intro set part i subset closed supported
  have nodup := bitNumPubKeys_nodup qmap
  obtain ⟨pair, found, slice⟩ := supported
  refine ⟨pair, found, ?_⟩
  rw [isQuorumSlice_congr] at slice
  · exact slice
  · intro node member
    rw [mem_named nodup, mem_named nodup]
    constructor
    · rintro ⟨j, number, key⟩
      exact ⟨j, closed j number (edge_iff.mpr ⟨pair, found, node, member, key⟩), key⟩
    · rintro ⟨j, number, key⟩
      exact ⟨j, subset number, key⟩

/-! ### The answer -/

theorem maxSCC_mem (sccs : List BitSet) : maxSCC sccs ∈ sccs ∨ maxSCC sccs = .empty := by
  unfold maxSCC
  suffices general : ∀ start : BitSet,
      sccs.foldl (fun largest scc => if scc.count > largest.count then scc else largest) start
        ∈ sccs ∨
      sccs.foldl (fun largest scc => if scc.count > largest.count then scc else largest) start =
        start from general .empty
  induction sccs with
  | nil => exact fun _ => Or.inr rfl
  | cons head tail ih =>
      intro start
      rw [List.foldl_cons]
      split
      · rcases ih head with later | same
        · exact Or.inl (List.mem_cons_of_mem head later)
        · exact Or.inl (by rw [same]; exact List.mem_cons_self)
      · rcases ih start with later | same
        · exact Or.inl (List.mem_cons_of_mem head later)
        · exact Or.inr same

theorem Components.eq_of_mem {graph : QGraph} {sccs : List BitSet}
    (components : Components graph sccs) {left right : BitSet} (leftMember : left ∈ sccs)
    (rightMember : right ∈ sccs) (meet : ¬ Disjoint left.bits right.bits) : left = right := by
  by_contra different
  have symmetric : Std.Symm fun a b : BitSet => Disjoint a.bits b.bits :=
    ⟨fun _ _ disjoint => disjoint.symm⟩
  exact meet (components.disjoint.forall leftMember rightMember different)

theorem Components.of_minimal {sccs : List BitSet}
    (components : Components (buildGraph qmap) sccs) {quorum : Finset Nat}
    (minimal : Minimal (IsQuorum (Supports qmap)) quorum) :
    ∃ c ∈ sccs, quorum ⊆ c.bits := by
  obtain ⟨i, member⟩ := minimal.prop.1
  have inside : i < (buildGraph qmap).length := by
    obtain ⟨pair, found, -⟩ := minimal.prop.2 i member
    rw [buildGraph_eq, List.length_map]
    exact (List.getElem?_eq_some_iff.mp found).1
  obtain ⟨c, present, bit⟩ := components.cover i inside
  refine ⟨c, present, ?_⟩
  intro j other
  rw [components.strong c present i bit]
  exact ⟨minimal_reaches (along_supports qmap) minimal member other,
    minimal_reaches (along_supports qmap) minimal other member⟩

theorem Components.isEqual_iff {graph : QGraph} {sccs : List BitSet}
    (components : Components graph sccs) {left right : BitSet} (leftMember : left ∈ sccs)
    (rightMember : right ∈ sccs) : left.isEqual right = true ↔ left = right := by
  constructor
  · intro equal
    refine components.eq_of_mem leftMember rightMember ?_
    intro disjoint
    rw [(components.tight left leftMember).isEqual_of_disjoint
      (components.tight right rightMember) disjoint] at equal
    cases equal
  · rintro rfl
    exact left.isEqual_refl

section Answer

variable {qic : QuorumIntersectionCheckerImpl} (decides : Decides qic.mGraph (Supports qmap))

include decides

theorem foundDisjoint_iff : qic.foundDisjoint = true ↔
    ∃ scc ∈ qic.mSCCs, scc.isEqual qic.mMaxSCC = false ∧
      ∃ quorum ⊆ scc.bits, IsQuorum (Supports qmap) quorum := by
  unfold QuorumIntersectionCheckerImpl.foundDisjoint
  simp only [List.any_eq_true, Bool.and_eq_true, Bool.not_eq_true',
    contractToMaximalQuorum_nonempty decides]

variable (components : Components (buildGraph qmap) qic.mSCCs) (present : qic.mMaxSCC ∈ qic.mSCCs)

include components present

theorem minimal_in_main (alone : qic.foundDisjoint = false) {quorum : Finset Nat}
    (minimal : Minimal (IsQuorum (Supports qmap)) quorum) : quorum ⊆ qic.mMaxSCC.bits := by
  obtain ⟨c, member, within⟩ := components.of_minimal minimal
  have equal : c.isEqual qic.mMaxSCC = true := by
    by_contra different
    have found := (foundDisjoint_iff decides).mpr
      ⟨c, member, Bool.eq_false_of_not_eq_true different, quorum, within, minimal.prop⟩
    rw [alone] at found
    cases found
  rw [← (components.isEqual_iff member present).mp equal]
  exact within

/-- Where the largest component holds a quorum, there are two disjoint quorums exactly when another
component holds one or the enumeration finds them. -/
theorem disjoint_quorums_iff (rand_uniform : BitSet → BitSet → Nat → Nat → Nat)
    {main : Finset Nat} (mainQuorum : IsQuorum (Supports qmap) main)
    (inside : main ⊆ qic.mMaxSCC.bits) :
    (∃ left right, IsQuorum (Supports qmap) left ∧ IsQuorum (Supports qmap) right ∧
        Disjoint left right) ↔
      qic.foundDisjoint = true ∨
        qic.anyMinQuorumHasDisjointQuorum rand_uniform .empty qic.mMaxSCC = true := by
  rw [enumeration_iff decides]
  constructor
  · rintro ⟨left, right, leftQuorum, rightQuorum, disjoint⟩
    cases found : qic.foundDisjoint with
    | true => exact Or.inl rfl
    | false =>
        obtain ⟨leastLeft, leftInside, leftMinimal⟩ := exists_minimal leftQuorum
        obtain ⟨leastRight, rightInside, rightMinimal⟩ := exists_minimal rightQuorum
        exact Or.inr ⟨leastLeft, leastRight, leftMinimal.prop, rightMinimal.prop,
          minimal_in_main decides components present found leftMinimal,
          minimal_in_main decides components present found rightMinimal,
          disjoint.mono leftInside rightInside⟩
  · rintro (elsewhere | ⟨left, right, leftQuorum, rightQuorum, -, -, disjoint⟩)
    · obtain ⟨scc, member, different, quorum, within, otherQuorum⟩ :=
        (foundDisjoint_iff decides).mp elsewhere
      refine ⟨main, quorum, mainQuorum, otherQuorum, ?_⟩
      by_contra meet
      have same : scc = qic.mMaxSCC := by
        refine components.eq_of_mem member present ?_
        intro disjoint
        exact meet (disjoint.symm.mono inside within)
      rw [same, BitSet.isEqual_refl] at different
      cases different
    · exact ⟨left, right, leftQuorum, rightQuorum, disjoint⟩

end Answer

def MainComponentHasQuorum (qmap : QuorumMap NodeID) : Prop :=
  ∃ quorum, IsNetworkQuorum qmap quorum ∧
    ∀ node ∈ quorum, node ∈ named (bitNumPubKeys qmap)
      (QuorumIntersectionCheckerImpl.create qmap).mMaxSCC.bits

theorem mainComponentHasQuorum_iff : MainComponentHasQuorum qmap ↔
    ∃ quorum ⊆ (QuorumIntersectionCheckerImpl.create qmap).mMaxSCC.bits,
      IsQuorum (Supports qmap) quorum := by
  constructor
  · rintro ⟨quorum, isQuorum, inside⟩
    exact ⟨numbersOf qmap quorum, numbersOf_subset inside, isQuorum.isQuorum⟩
  · rintro ⟨quorum, within, isQuorum⟩
    exact ⟨_, isNetworkQuorum_named isQuorum, fun node member => named_subset within _ member⟩

theorem networkEnjoysQuorumIntersection_eq_true (sane : SaneMap qmap)
    (rand_uniform : BitSet → BitSet → Nat → Nat → Nat) :
    (QuorumIntersectionCheckerImpl.create qmap).networkEnjoysQuorumIntersection rand_uniform = true
      ↔ ¬ MainComponentHasQuorum qmap ∨ EnjoysQuorumIntersection qmap := by
  have decides : Decides (QuorumIntersectionCheckerImpl.create qmap).mGraph (Supports qmap) :=
    decides_supports sane
  have components : Components (buildGraph qmap)
      (QuorumIntersectionCheckerImpl.create qmap).mSCCs :=
    calculateSCCs_spec (ranged_buildGraph qmap)
  rw [mainComponentHasQuorum_iff, ← contractToMaximalQuorum_nonempty decides,
    QuorumIntersectionCheckerImpl.networkEnjoysQuorumIntersection]
  cases halted : (contractToMaximalQuorum (QuorumIntersectionCheckerImpl.create qmap).mGraph
      (QuorumIntersectionCheckerImpl.create qmap).mMaxSCC).isEmpty with
  | true => simp
  | false =>
      obtain ⟨quorum, inside, isQuorum⟩ :=
        (contractToMaximalQuorum_nonempty decides _).mp halted
      have present : (QuorumIntersectionCheckerImpl.create qmap).mMaxSCC ∈
          (QuorumIntersectionCheckerImpl.create qmap).mSCCs := by
        refine (maxSCC_mem _).resolve_right ?_
        intro empty
        change (QuorumIntersectionCheckerImpl.create qmap).mMaxSCC = _ at empty
        rw [empty] at inside
        exact isQuorum.1.ne_empty (Finset.subset_empty.mp inside)
      have disjoint := disjoint_quorums_iff decides components present rand_uniform isQuorum inside
      have enjoys : EnjoysQuorumIntersection qmap ↔
          ¬ ∃ left right, IsQuorum (Supports qmap) left ∧ IsQuorum (Supports qmap) right ∧
            Disjoint left right := by
        rw [enjoysQuorumIntersection_iff]
        simp only [not_exists, not_and]
      rw [enjoys, disjoint]
      cases (QuorumIntersectionCheckerImpl.create qmap).foundDisjoint <;> simp

/-- For sane quorum sets the answer is right where the largest component holds a quorum, and where
there are no disjoint quorums to be missed. -/
theorem networkEnjoysQuorumIntersection_right_iff (qmap : QuorumMap NodeID)
    (sane : ∀ node qSet, qmap.lookup node = some (some qSet) → isQuorumSetSane qSet false = true)
    (rand_uniform : BitSet → BitSet → Nat → Nat → Nat) :
    ((QuorumIntersectionCheckerImpl.create qmap).networkEnjoysQuorumIntersection rand_uniform = true
        ↔ EnjoysQuorumIntersection qmap) ↔
      MainComponentHasQuorum qmap ∨ EnjoysQuorumIntersection qmap := by
  have saneMap : SaneMap qmap :=
    fun node qSet found => sane_of_isQuorumSetSane (sane node qSet found)
  rw [networkEnjoysQuorumIntersection_eq_true saneMap]
  tauto

def fourNodes : QuorumMap Nat where
  entries :=
    [⟨0, some (.mk 2 [1, 2, 3] [])⟩, ⟨1, some (.mk 2 [0, 2, 3] [])⟩,
      ⟨2, some (.mk 2 [0, 1, 3] [])⟩, ⟨3, some (.mk 2 [0, 1, 2] [])⟩]
  nodupKeys := by simp [List.NodupKeys, List.keys]

theorem fourNodes_sane (node : Nat) (qSet : SCPQuorumSet Nat)
    (found : fourNodes.lookup node = some (some qSet)) : isQuorumSetSane qSet false = true := by
  have member := AList.mem_lookup_iff.mp found
  simp only [fourNodes, List.mem_cons, List.not_mem_nil, or_false, Sigma.mk.injEq, heq_eq_eq,
    Option.some.injEq] at member
  rcases member with ⟨-, rfl⟩ | ⟨-, rfl⟩ | ⟨-, rfl⟩ | ⟨-, rfl⟩ <;> decide

theorem networkEnjoysQuorumIntersection_right_four : EnjoysQuorumIntersection fourNodes := by
  have main : MainComponentHasQuorum fourNodes := by
    refine ⟨[0, 1, 2], ⟨by decide, ?_⟩, by decide +kernel⟩
    intro node member
    rcases List.mem_cons.mp member with rfl | member
    · exact ⟨.mk 2 [1, 2, 3] [], rfl, by decide⟩
    rcases List.mem_cons.mp member with rfl | member
    · exact ⟨.mk 2 [0, 2, 3] [], rfl, by decide⟩
    rw [List.mem_singleton.mp member]
    exact ⟨.mk 2 [0, 1, 3] [], rfl, by decide⟩
  exact ((networkEnjoysQuorumIntersection_right_iff fourNodes fourNodes_sane fun _ _ _ _ => 0).mpr
    (Or.inl main)).mp (by decide +kernel)

/-- Two nodes that need nobody else, and a pair that needs them. -/
def haltedPair : QuorumMap Nat where
  entries :=
    [⟨0, some (.mk 1 [0] [])⟩, ⟨1, some (.mk 1 [1] [])⟩,
      ⟨2, some (.mk 3 [3, 0, 1] [])⟩, ⟨3, some (.mk 2 [2, 0] [])⟩]
  nodupKeys := by simp [List.NodupKeys, List.keys]

/-- The pair is the largest component and holds no quorum, so the checker answers yes, but the two
other nodes are disjoint quorums. -/
theorem networkEnjoysQuorumIntersection_misses_split :
    (haltedPair.entries.all fun pair => pair.2.any fun qSet => isQuorumSetSane qSet false) = true ∧
    (QuorumIntersectionCheckerImpl.create haltedPair).networkEnjoysQuorumIntersection
        (fun _ _ _ _ => 0) = true ∧
      IsNetworkQuorum haltedPair [0] ∧ IsNetworkQuorum haltedPair [1] ∧
      ¬ EnjoysQuorumIntersection haltedPair := by
  have left : IsNetworkQuorum haltedPair [0] := by
    refine ⟨by decide, ?_⟩
    intro node member
    rw [List.mem_singleton.mp member]
    exact ⟨.mk 1 [0] [], rfl, by decide⟩
  have right : IsNetworkQuorum haltedPair [1] := by
    refine ⟨by decide, ?_⟩
    intro node member
    rw [List.mem_singleton.mp member]
    exact ⟨.mk 1 [1] [], rfl, by decide⟩
  refine ⟨by decide, by decide +kernel, left, right, ?_⟩
  intro enjoys
  obtain ⟨node, first, second⟩ := enjoys [0] [1] left right
  rw [List.mem_singleton.mp first] at second
  cases List.mem_singleton.mp second

/-! ### The enumeration on any component -/

def HasDisjointQuorums (qmap : QuorumMap NodeID) (scc : BitSet) : Prop :=
  ∃ left right, IsNetworkQuorum qmap left ∧ IsNetworkQuorum qmap right ∧
    (∀ node ∈ left, node ∈ named (bitNumPubKeys qmap) scc.bits) ∧
    (∀ node ∈ right, node ∈ named (bitNumPubKeys qmap) scc.bits) ∧ ∀ node ∈ left, node ∉ right

theorem hasDisjointQuorums_iff (scc : BitSet) : HasDisjointQuorums qmap scc ↔
    ∃ left right, IsQuorum (Supports qmap) left ∧ IsQuorum (Supports qmap) right ∧
      left ⊆ scc.bits ∧ right ⊆ scc.bits ∧ Disjoint left right := by
  have nodup := bitNumPubKeys_nodup qmap
  constructor
  · rintro ⟨left, right, leftQuorum, rightQuorum, leftInside, rightInside, apart⟩
    refine ⟨numbersOf qmap left, numbersOf qmap right, leftQuorum.isQuorum, rightQuorum.isQuorum,
      numbersOf_subset leftInside, numbersOf_subset rightInside, ?_⟩
    rw [Finset.disjoint_left]
    intro i inLeft inRight
    obtain ⟨node, leftMember, rfl⟩ := List.mem_map.mp (List.mem_toFinset.mp inLeft)
    obtain ⟨other, rightMember, same⟩ := List.mem_map.mp (List.mem_toFinset.mp inRight)
    rw [(List.idxOf_inj (rightQuorum.pubKey rightMember)).mp same] at rightMember
    exact apart node leftMember rightMember
  · rintro ⟨left, right, leftQuorum, rightQuorum, leftInside, rightInside, disjoint⟩
    refine ⟨_, _, isNetworkQuorum_named leftQuorum, isNetworkQuorum_named rightQuorum,
      fun node member => named_subset leftInside _ member,
      fun node member => named_subset rightInside _ member, ?_⟩
    intro node inLeft inRight
    obtain ⟨i, leftNumber, leftKey⟩ := (mem_named nodup).mp inLeft
    obtain ⟨j, rightNumber, rightKey⟩ := (mem_named nodup).mp inRight
    have same := (idxOf_of_getElem? nodup leftKey).symm.trans (idxOf_of_getElem? nodup rightKey)
    subst j
    exact Finset.disjoint_left.mp disjoint leftNumber rightNumber

/-- Started on a component, or on any other set of nodes, the enumeration answers whether two
disjoint quorums lie inside. No branch is cut off that holds a minimal quorum of at most half the
size with a quorum in the rest. -/
theorem anyMinQuorumHasDisjointQuorum_iff (qmap : QuorumMap NodeID)
    (sane : ∀ node qSet, qmap.lookup node = some (some qSet) → isQuorumSetSane qSet false = true)
    (rand_uniform : BitSet → BitSet → Nat → Nat → Nat) (scc : BitSet) :
    (({ QuorumIntersectionCheckerImpl.create qmap with mMaxSCC := scc } :
          QuorumIntersectionCheckerImpl).anyMinQuorumHasDisjointQuorum rand_uniform .empty scc = true
        ↔ HasDisjointQuorums qmap scc) ∧
      ∀ committed remaining least, Minimal (IsQuorum (Supports qmap)) least →
        least.card ≤ scc.count / 2 →
        (∃ other ⊆ scc.bits \ least, IsQuorum (Supports qmap) other) →
        committed.bits ⊆ least → least ⊆ committed.bits ∪ remaining.bits →
        ({ QuorumIntersectionCheckerImpl.create qmap with mMaxSCC := scc } :
          QuorumIntersectionCheckerImpl).anyMinQuorumHasDisjointQuorum rand_uniform committed
            remaining = true := by
  have decides : Decides ({ QuorumIntersectionCheckerImpl.create qmap with mMaxSCC := scc } :
      QuorumIntersectionCheckerImpl).mGraph (Supports qmap) :=
    decides_supports fun node qSet found => sane_of_isQuorumSetSane (sane node qSet found)
  constructor
  · rw [hasDisjointQuorums_iff]
    exact enumeration_iff decides rand_uniform
  · intro committed remaining least minimal half ⟨other, apart, otherQuorum⟩ extending within
    exact anyMinQuorumHasDisjointQuorum_complete decides rand_uniform minimal half otherQuorum apart
      committed remaining extending within

/-- The four nodes are one component, and no two quorums inside are disjoint. -/
theorem anyMinQuorumHasDisjointQuorum_four :
    (QuorumIntersectionCheckerImpl.create fourNodes).mSCCs.map BitSet.toList = [[0, 1, 2, 3]] ∧
      ¬ HasDisjointQuorums fourNodes (QuorumIntersectionCheckerImpl.create fourNodes).mMaxSCC := by
  refine ⟨by decide +kernel, ?_⟩
  rw [← (anyMinQuorumHasDisjointQuorum_iff fourNodes fourNodes_sane (fun _ _ _ _ => 0) _).1]
  decide +kernel

end ViiCore.QuorumIntersection
