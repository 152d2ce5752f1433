import ViiCore.Herder.StrongComponents

/-!
What `calculateSCCs` yields is the partition of the nodes into strongly connected components.

The bound on the nesting of the calls is never met: a larger one changes nothing.
-/

namespace ViiCore.QuorumIntersection

namespace TarjanSCCCalculator

variable {graph : QGraph} {before t : TarjanSCCCalculator} {grays : List Nat} {i : Nat}

/-- `calculateSCCs` with another bound on the nesting of the calls of `scc`. -/
def calculateSCCsWithin (graph : QGraph) (depth : Nat) : TarjanSCCCalculator :=
  (List.range graph.length).foldl
    (fun t i => if (t.mNodes i).mIndex = -1 then scc graph depth i t else t) {}

/-! ### No component is empty -/

def Inhabited (t : TarjanSCCCalculator) : Prop := ∀ c ∈ t.mSCCs, c.bits.Nonempty

theorem Inhabited.popTo (inhabited : Inhabited t) (stack : List Nat) (nodes : Nat → SCCNode)
    {newScc : BitSet} (some : newScc.bits.Nonempty) : Inhabited (popTo i t stack nodes newScc) := by
  have extended {newScc : BitSet} (some : newScc.bits.Nonempty) :
      ∀ c ∈ t.mSCCs ++ [newScc], c.bits.Nonempty := by
    intro c member
    rcases List.mem_append.mp member with old | new
    · exact inhabited c old
    · rwa [List.mem_singleton.mp new]
  induction stack generalizing nodes newScc with
  | nil => exact extended some
  | cons j rest ih =>
      have some' : (newScc.set j).bits.Nonempty := by
        rw [BitSet.bits_set]
        exact Finset.insert_nonempty _ _
      unfold TarjanSCCCalculator.popTo
      dsimp only
      split
      · exact ih _ some'
      · exact extended some'

theorem Inhabited.close (inhabited : Inhabited t) (i : Nat) : Inhabited (t.close i) := by
  unfold TarjanSCCCalculator.close
  split
  · refine inhabited.popTo _ _ ?_
    rw [BitSet.bits_set]
    exact Finset.insert_nonempty _ _
  · exact inhabited

theorem Inhabited.scc (inhabited : Inhabited t) (graph : QGraph) (depth i : Nat) :
    Inhabited (scc graph depth i t) := by
  induction depth generalizing i t with
  | zero => exact inhabited
  | succ depth ih =>
      have followed (edges : List Nat) {t : TarjanSCCCalculator} (inhabited : Inhabited t) :
          Inhabited (edges.foldl (followEdge (TarjanSCCCalculator.scc graph depth) i) t) := by
        induction edges generalizing t with
        | nil => exact inhabited
        | cons j rest ihEdges =>
            rw [List.foldl_cons]
            apply ihEdges
            unfold followEdge
            split
            · exact ih inhabited j
            · split
              · exact inhabited
              · exact inhabited
      rw [TarjanSCCCalculator.scc]
      apply Inhabited.close
      exact followed _ inhabited

theorem inhabited_calculateSCCs (graph : QGraph) : Inhabited (calculateSCCs graph) := by
  unfold calculateSCCs
  refine List.foldlRecOn (List.range graph.length) _ ?_ ?_
  · intro c member
    exact absurd member List.not_mem_nil
  · intro t inhabited i _
    split
    · exact inhabited.scc graph graph.length i
    · exact inhabited

/-! ### The bound on the nesting -/

theorem followEdge_congr {visit visit' : Nat → TarjanSCCCalculator → TarjanSCCCalculator} {j : Nat}
    (same : t.index j = -1 → visit j t = visit' j t) :
    t.followEdge visit i j = t.followEdge visit' i j := by
  unfold followEdge
  by_cases missing : (t.mNodes j).mIndex = -1
  · rw [if_pos missing, if_pos missing, same missing]
  · rw [if_neg missing, if_neg missing]

theorem Scanning.foldl_congr (ranged : Ranged graph) {depth : Nat}
    {visit visit' : Nat → TarjanSCCCalculator → TarjanSCCCalculator} (sound : Sound graph depth visit)
    (agree : ∀ j t grays, Standing graph t grays → t.index j = -1 → j < graph.length →
      (∀ g ∈ grays, Reaches graph g j) → unvisited graph t ≤ depth → visit j t = visit' j t)
    (fresh : ∀ v, before.index v = -1 ∨ 0 ≤ before.index v)
    (few : unvisited graph before ≤ depth + 1) (edges : List Nat)
    (out : ∀ j ∈ edges, Edge graph i j) {seen : Nat → Prop}
    (scanning : Scanning graph before grays i seen t) :
    edges.foldl (TarjanSCCCalculator.followEdge visit i) t =
      edges.foldl (TarjanSCCCalculator.followEdge visit' i) t := by
  induction edges generalizing t seen with
  | nil => rfl
  | cons j rest ih =>
      have fewer := scanning.unvisited_lt fresh
      have edge := out j List.mem_cons_self
      have same : t.followEdge visit i j = t.followEdge visit' i j :=
        followEdge_congr fun missing =>
          agree j t _ scanning.standing missing (ranged i j edge) (scanning.led edge) (by omega)
      have next := scanning.followEdge ranged sound edge (by omega)
      rw [List.foldl_cons, List.foldl_cons, ← same]
      exact ih (fun k later => out k (List.mem_cons_of_mem j later)) next

theorem scc_deeper (ranged : Ranged graph) (depth j : Nat) (t : TarjanSCCCalculator)
    (grays : List Nat) (standing : Standing graph t grays) (new : t.index j = -1)
    (inside : j < graph.length) (led : ∀ g ∈ grays, Reaches graph g j)
    (few : unvisited graph t ≤ depth) : scc graph depth j t = scc graph (depth + 1) j t := by
  induction depth generalizing j t grays with
  | zero =>
      have some : 0 < unvisited graph t := by
        apply Finset.card_pos.mpr
        exact ⟨j, Finset.mem_filter.mpr ⟨Finset.mem_range.mpr inside, new⟩⟩
      omega
  | succ depth ih =>
      have same := (standing.scanning new inside led).foldl_congr ranged (scc_sound ranged depth) ih
        standing.fresh few (successors graph j).toList
        (fun k member => BitSet.mem_toList.mp member)
      rw [scc, scc, same]

theorem unvisited_le (graph : QGraph) (t : TarjanSCCCalculator) :
    unvisited graph t ≤ graph.length := by
  unfold unvisited
  exact (Finset.card_filter_le _ _).trans_eq (Finset.card_range _)

theorem scc_within (ranged : Ranged graph) {depth : Nat} (enough : graph.length ≤ depth)
    (standing : Standing graph t []) (new : t.index i = -1) (inside : i < graph.length) :
    scc graph depth i t = scc graph graph.length i t := by
  induction depth, enough using Nat.le_induction with
  | base => rfl
  | succ depth enough ih =>
      rw [← ih]
      exact (scc_deeper ranged depth i t [] standing new inside (by simp)
        ((unvisited_le graph t).trans enough)).symm

theorem calculateSCCsWithin_eq (ranged : Ranged graph) {depth : Nat}
    (enough : graph.length ≤ depth) : calculateSCCsWithin graph depth = calculateSCCs graph := by
  have agree (nodes : List Nat) (inside : ∀ i ∈ nodes, i < graph.length)
      (t : TarjanSCCCalculator) (standing : Standing graph t []) :
      nodes.foldl (fun t i => if (t.mNodes i).mIndex = -1 then scc graph depth i t else t) t =
        nodes.foldl
          (fun t i => if (t.mNodes i).mIndex = -1 then scc graph graph.length i t else t) t := by
    induction nodes generalizing t with
    | nil => rfl
    | cons i rest ih =>
        have here := inside i List.mem_cons_self
        have later := fun j member => inside j (List.mem_cons_of_mem i member)
        rw [List.foldl_cons, List.foldl_cons]
        by_cases new : (t.mNodes i).mIndex = -1
        · rw [if_pos new, if_pos new, scc_within ranged enough standing new here]
          exact ih later _ (scc_sound ranged graph.length i t [] standing new here (by simp)
            (unvisited_le graph t)).1
        · rw [if_neg new, if_neg new]
          exact ih later t standing
  exact agree _ (fun i member => List.mem_range.mp member) _ standing_start

end TarjanSCCCalculator

/-! ### The partition -/

def stronglyConnected (graph : QGraph) (v : Nat) : Set Nat :=
  {w | Reaches graph v w ∧ Reaches graph w v}

/-- The nodes of the components of a graph are the classes of mutual reachability, each once. -/
structure Partitions (graph : QGraph) (sccs : List BitSet) : Prop where
  nonempty : ∀ c ∈ sccs, c.bits.Nonempty
  disjoint : sccs.Pairwise fun a b => Disjoint a.bits b.bits
  cover : ∀ v, (∃ c ∈ sccs, v ∈ c.bits) ↔ v < graph.length
  classes : ∀ nodes : Set Nat, (∃ c ∈ sccs, (c.bits : Set Nat) = nodes) ↔
    ∃ v < graph.length, nodes = stronglyConnected graph v

theorem Components.partitions {graph : QGraph} {sccs : List BitSet}
    (components : Components graph sccs) (nonempty : ∀ c ∈ sccs, c.bits.Nonempty) :
    Partitions graph sccs := by
  have isClass {c : BitSet} (member : c ∈ sccs) {v : Nat} (bit : v ∈ c.bits) :
      (c.bits : Set Nat) = stronglyConnected graph v := by
    ext w
    exact components.strong c member v bit w
  constructor
  case nonempty => exact nonempty
  case disjoint => exact components.disjoint
  case cover =>
    intro v
    constructor
    · intro ⟨c, member, bit⟩
      exact components.inside c member v bit
    · exact components.cover v
  case classes =>
    intro nodes
    constructor
    · intro ⟨c, member, same⟩
      obtain ⟨v, bit⟩ := nonempty c member
      exact ⟨v, components.inside c member v bit, same ▸ isClass member bit⟩
    · intro ⟨v, inside, same⟩
      obtain ⟨c, member, bit⟩ := components.cover v inside
      exact ⟨c, member, same ▸ isClass member bit⟩

/-- The calculation partitions the nodes of a graph into its strongly connected components, and no
larger bound on the nesting of its calls changes it. -/
theorem calculateSCCs_partitions {graph : QGraph} (ranged : Ranged graph) :
    Partitions graph (TarjanSCCCalculator.calculateSCCs graph).mSCCs ∧
      ∀ depth ≥ graph.length, TarjanSCCCalculator.calculateSCCsWithin graph depth =
        TarjanSCCCalculator.calculateSCCs graph :=
  ⟨(calculateSCCs_spec ranged).partitions (TarjanSCCCalculator.inhabited_calculateSCCs graph),
    fun _ enough => TarjanSCCCalculator.calculateSCCsWithin_eq ranged enough⟩

def threeNodes : QGraph :=
  [.mk 1 (BitSet.empty.set 1) [], .mk 1 (BitSet.empty.set 0) [],
    .mk 1 (BitSet.empty.set 0) [.mk 1 (BitSet.empty.set 1) []]]

theorem ranged_threeNodes : Ranged threeNodes := by
  have listed : ∀ qbs ∈ threeNodes, ∀ v ∈ qbs.mAllSuccessors.bits, v < 3 := by decide
  intro u v edge
  unfold Edge successors at edge
  split at edge
  · rename_i qbs found
    exact listed qbs (List.mem_of_getElem? found) v edge
  · exact absurd edge (Finset.notMem_empty v)

theorem calculateSCCs_partitions_three :
    (TarjanSCCCalculator.calculateSCCs threeNodes).mSCCs.map BitSet.toList = [[0, 1], [2]] ∧
      Partitions threeNodes (TarjanSCCCalculator.calculateSCCs threeNodes).mSCCs :=
  ⟨by decide +kernel, (calculateSCCs_partitions ranged_threeNodes).1⟩

end ViiCore.QuorumIntersection
