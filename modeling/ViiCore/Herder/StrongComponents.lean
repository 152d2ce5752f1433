import ViiCore.Herder.ComponentSearch

/-!
Tarjan's algorithm finds the strongly connected components.

Where the low link of a node is its own index, nothing above it on the stack leads below it, and what
is taken off the stack is its component.
-/

namespace ViiCore.QuorumIntersection

namespace TarjanSCCCalculator

variable {graph : QGraph} {t t' : TarjanSCCCalculator} {grays : List Nat} {i : Nat}

/-! ### The end of a call -/

section Closing

variable {before : TarjanSCCCalculator}

theorem Scanning.gray_lt {seen : Nat → Prop} (scanning : Scanning graph before grays i seen t)
    {g : Nat} (gray : g ∈ grays) : t.index g < t.index i :=
  (List.pairwise_cons.mp scanning.standing.path).1 g gray

theorem Scanning.explored (scanning : Scanning graph before grays i (Edge graph i) t) {v w : Nat}
    (old : 0 ≤ t.index v) (black : v ∉ grays) (edge : Edge graph v w) : 0 ≤ t.index w := by
  by_cases same : v = i
  · subst v
    exact (scanning.followed w edge).1
  · refine scanning.standing.explored v old ?_ w edge
    rw [List.mem_cons, not_or]
    exact ⟨same, black⟩

theorem Scanning.stays (scanning : Scanning graph before grays i (Edge graph i) t)
    (below : t.lowLink i ≠ t.index i) : Standing graph t grays ∧ Returned graph before i t := by
  have standing := scanning.standing
  have smaller : t.lowLink i < t.index i := lt_of_le_of_ne scanning.low_le below
  obtain ⟨w, stacked, same, reaches⟩ := scanning.link
  obtain ⟨g, gray, onwards, lower⟩ := standing.returns w stacked
  have outer : g ∈ grays := by
    rcases List.mem_cons.mp gray with rfl | outer
    · omega
    · exact outer
  constructor
  · exact
      { descending := standing.descending
        onStack := standing.onStack
        fresh := standing.fresh
        below := standing.below
        entered := standing.entered
        apart := standing.apart
        active := fun h member => standing.active h (List.mem_cons_of_mem i member)
        path := (List.pairwise_cons.mp standing.path).2
        returns := by
          intro v member
          obtain ⟨h, back, leads, order⟩ := standing.returns v member
          rcases List.mem_cons.mp back with rfl | kept
          · exact ⟨g, outer, leads.trans (reaches.trans onwards), by omega⟩
          · exact ⟨h, kept, leads, order⟩
        leads := fun h member => standing.leads h (List.mem_cons_of_mem i member)
        explored := fun v old black u edge => scanning.explored old black edge
        closed := standing.closed
        components := standing.components
        disjoint := standing.disjoint
        tight := standing.tight
        bounded := standing.bounded }
  · obtain ⟨seg, stack, bounds⟩ := scanning.stack
    refine
      { entered := standing.stacked scanning.self_mem
        keeps := scanning.keeps
        low_le := scanning.low_le
        link := fun _ => scanning.link
        stack := ⟨seg ++ [i], by rw [stack, List.append_assoc]; rfl, ?_⟩
        alone := fun off => absurd scanning.self_mem off }
    intro u member
    rcases List.mem_append.mp member with above | self
    · exact bounds u above
    · rw [List.mem_singleton.mp self]
      refine ⟨scanning.own.ge, ?_⟩
      intro v edge inStack
      exact (scanning.followed v edge).2 inStack

variable {seg : List Nat}

theorem Scanning.above_iff {seen : Nat → Prop} (scanning : Scanning graph before grays i seen t)
    (stack : t.mStack = seg ++ i :: before.mStack) {u : Nat} :
    u ∈ seg ++ [i] ↔ u ∈ t.mStack ∧ t.index i ≤ t.index u := by
  have descending := scanning.standing.descending
  rw [stack, List.pairwise_append, List.pairwise_cons] at descending
  obtain ⟨-, ⟨lower, -⟩, upper⟩ := descending
  rw [stack]
  constructor
  · intro member
    rcases List.mem_append.mp member with above | self
    · exact ⟨List.mem_append_left _ above, le_of_lt (upper u above i List.mem_cons_self)⟩
    · rw [List.mem_singleton.mp self]
      exact ⟨List.mem_append_right _ List.mem_cons_self, le_rfl⟩
  · rintro ⟨member, order⟩
    rcases List.mem_append.mp member with above | rest
    · exact List.mem_append_left _ above
    · rcases List.mem_cons.mp rest with rfl | under
      · exact List.mem_append_right _ List.mem_cons_self
      · have less := lower u under
        omega

/-- Where the low link is the index, edges lead only upwards or to what was taken off. -/
theorem Scanning.edge_above (scanning : Scanning graph before grays i (Edge graph i) t)
    (stack : t.mStack = seg ++ i :: before.mStack)
    (bounds : ∀ u ∈ seg, ∀ w, Edge graph u w → w ∈ t.mStack → t.lowLink i ≤ t.index w)
    (root : t.lowLink i = t.index i) {u w : Nat} (member : u ∈ seg ++ [i])
    (edge : Edge graph u w) : w ∈ seg ++ [i] ∨ t.Popped w := by
  obtain ⟨stacked, order⟩ := (scanning.above_iff stack).mp member
  have black : u ∉ grays := by
    intro gray
    have less := scanning.gray_lt gray
    omega
  have visited := scanning.explored (scanning.standing.stacked stacked) black edge
  rcases (scanning.standing.entered w).mp visited with inStack | popped
  · refine Or.inl ((scanning.above_iff stack).mpr ⟨inStack, ?_⟩)
    rw [← root]
    rcases List.mem_append.mp member with above | self
    · exact bounds u above w edge inStack
    · rw [List.mem_singleton.mp self] at edge
      exact (scanning.followed w edge).2 inStack
  · exact Or.inr popped

theorem Scanning.reaches_above (scanning : Scanning graph before grays i (Edge graph i) t)
    (stack : t.mStack = seg ++ i :: before.mStack)
    (bounds : ∀ u ∈ seg, ∀ w, Edge graph u w → w ∈ t.mStack → t.lowLink i ≤ t.index w)
    (root : t.lowLink i = t.index i) {u w : Nat} (member : u ∈ seg ++ [i])
    (reaches : Reaches graph u w) : w ∈ seg ++ [i] ∨ t.Popped w := by
  induction reaches with
  | refl => exact Or.inl member
  | tail _ edge ih =>
      rcases ih with above | popped
      · exact scanning.edge_above stack bounds root above edge
      · exact Or.inr (scanning.standing.closed _ _ popped edge)

theorem Scanning.component (scanning : Scanning graph before grays i (Edge graph i) t)
    (stack : t.mStack = seg ++ i :: before.mStack)
    (bounds : ∀ u ∈ seg, ∀ w, Edge graph u w → w ∈ t.mStack → t.lowLink i ≤ t.index w)
    (root : t.lowLink i = t.index i) {v : Nat} (member : v ∈ seg ++ [i]) (w : Nat) :
    w ∈ seg ++ [i] ↔ Reaches graph v w ∧ Reaches graph w v := by
  have standing := scanning.standing
  have down : ∀ u ∈ seg ++ [i], Reaches graph i u := by
    intro u above
    obtain ⟨stacked, order⟩ := (scanning.above_iff stack).mp above
    exact standing.leads i List.mem_cons_self u stacked order
  have up : ∀ u ∈ seg ++ [i], Reaches graph u i := by
    intro u above
    obtain ⟨stacked, -⟩ := (scanning.above_iff stack).mp above
    obtain ⟨g, gray, reaches, -⟩ := standing.returns u stacked
    rcases scanning.reaches_above stack bounds root above reaches with inside | popped
    · rcases List.mem_cons.mp gray with rfl | outer
      · exact reaches
      · have less := scanning.gray_lt outer
        have order := ((scanning.above_iff stack).mp inside).2
        omega
    · exact absurd popped (standing.apart g (standing.active g gray))
  constructor
  · intro above
    exact ⟨(up v member).trans (down w above), (up w above).trans (down v member)⟩
  · rintro ⟨forth, back⟩
    rcases scanning.reaches_above stack bounds root member forth with above | popped
    · exact above
    · have stacked := ((scanning.above_iff stack).mp member).1
      exact absurd (standing.popped_of_reaches popped back) (standing.apart v stacked)

theorem Scanning.pops (scanning : Scanning graph before grays i (Edge graph i) t)
    (stack : t.mStack = seg ++ i :: before.mStack)
    (bounds : ∀ u ∈ seg, ∀ w, Edge graph u w → w ∈ t.mStack → t.lowLink i ≤ t.index w)
    (root : t.lowLink i = t.index i)
    (popped : PoppedTo t i seg before.mStack t.mNodes (BitSet.empty.set i) t') :
    Standing graph t' grays ∧ Returned graph before i t' := by
  have standing := scanning.standing
  have nodup := standing.stack_nodup
  rw [stack, List.append_cons, List.nodup_append] at nodup
  obtain ⟨-, -, separate⟩ := nodup
  obtain ⟨c, appended, tight, bits⟩ := popped.component
  have members : ∀ v, v ∈ c.bits ↔ v ∈ seg ++ [i] := by
    intro v
    rw [bits]
    simp only [BitSet.bits_set, BitSet.bits_empty, Finset.mem_insert, Finset.notMem_empty,
      List.mem_append, List.mem_singleton]
    tauto
  have index : ∀ v, t'.index v = t.index v := popped.index
  have inStack : ∀ v, v ∈ t.mStack ↔ v ∈ seg ++ [i] ∨ v ∈ before.mStack := by
    intro v
    rw [stack, List.append_cons, List.mem_append]
  have gone : ∀ v, t'.Popped v ↔ t.Popped v ∨ v ∈ seg ++ [i] := by
    intro v
    unfold Popped
    rw [appended]
    simp only [List.mem_append, List.mem_singleton, or_and_right, exists_or, exists_eq_left,
      members]
  have under : ∀ v ∈ before.mStack, t.index v < t.index i := by
    intro v member
    by_contra order
    have stacked := (inStack v).mpr (Or.inr member)
    have above := (scanning.above_iff stack).mpr ⟨stacked, not_lt.mp order⟩
    exact separate v above v member rfl
  constructor
  · constructor
    · rw [popped.stack]
      have descending := standing.descending
      rw [stack, List.append_cons, List.pairwise_append] at descending
      exact descending.2.1.imp (by simp [index])
    · intro v
      rw [popped.onStack, popped.stack, standing.onStack, inStack]
      constructor
      · rintro ⟨above | rest, off⟩
        · exact absurd above off
        · exact rest
      · intro rest
        exact ⟨Or.inr rest, fun above => separate v above v rest rfl⟩
    · intro v
      rw [index]
      exact standing.fresh v
    · intro v
      rw [index, popped.counter]
      exact standing.below v
    · intro v
      rw [index, standing.entered, popped.stack, gone, inStack]
      tauto
    · intro v member
      rw [popped.stack] at member
      rw [gone, not_or]
      refine ⟨standing.apart v ((inStack v).mpr (Or.inr member)), ?_⟩
      intro above
      exact separate v above v member rfl
    · intro g gray
      rw [popped.stack]
      have less := scanning.gray_lt gray
      refine ((inStack g).mp (standing.active g (List.mem_cons_of_mem i gray))).resolve_left ?_
      intro above
      have order := ((scanning.above_iff stack).mp above).2
      omega
    · exact (List.pairwise_cons.mp standing.path).2.imp (by simp [index])
    · intro v member
      rw [popped.stack] at member
      obtain ⟨g, gray, reaches, order⟩ := standing.returns v ((inStack v).mpr (Or.inr member))
      refine ⟨g, ?_, reaches, by rw [index, index]; exact order⟩
      rcases List.mem_cons.mp gray with rfl | outer
      · have less := under v member
        omega
      · exact outer
    · intro g gray v member order
      rw [popped.stack] at member
      rw [index, index] at order
      exact standing.leads g (List.mem_cons_of_mem i gray) v ((inStack v).mpr (Or.inr member))
        order
    · intro v old black w edge
      rw [index] at old ⊢
      exact scanning.explored old black edge
    · intro v w wasPopped edge
      rw [gone] at wasPopped ⊢
      rcases wasPopped with earlier | above
      · exact Or.inl (standing.closed v w earlier edge)
      · exact (scanning.edge_above stack bounds root above edge).symm
    · intro d member v inside w
      rw [appended] at member
      rcases List.mem_append.mp member with old | new
      · exact standing.components d old v inside w
      · rw [List.mem_singleton.mp new, members] at inside ⊢
        exact scanning.component stack bounds root inside w
    · rw [appended, List.pairwise_append]
      refine ⟨standing.disjoint, List.pairwise_singleton _ _, ?_⟩
      intro d old e new
      rw [List.mem_singleton.mp new, Finset.disjoint_left]
      intro v first second
      rw [members] at second
      exact standing.apart v ((inStack v).mpr (Or.inl second)) ⟨d, old, first⟩
    · intro d member
      rw [appended] at member
      rcases List.mem_append.mp member with old | new
      · exact standing.tight d old
      · rw [List.mem_singleton.mp new]
        exact tight
    · intro v
      rw [index]
      exact standing.bounded v
  · have low : t'.lowLink i = t.lowLink i := popped.lowLink i
    refine
      { entered := by rw [index]; exact standing.stacked scanning.self_mem
        keeps := fun v old => ⟨(index v).trans (scanning.keeps v old).1,
          (popped.lowLink v).trans (scanning.keeps v old).2⟩
        low_le := by rw [low, index]; exact scanning.low_le
        link := ?_
        stack := ⟨[], popped.stack, by simp⟩
        alone := fun _ => by rw [low, root]; exact scanning.own.ge }
    intro stacked
    rw [popped.stack] at stacked
    exact absurd rfl (separate i (List.mem_append_right _ List.mem_cons_self) i stacked)

theorem Scanning.close (scanning : Scanning graph before grays i (Edge graph i) t) :
    Standing graph (t.close i) grays ∧ Returned graph before i (t.close i) := by
  unfold TarjanSCCCalculator.close
  split
  · rename_i root
    obtain ⟨seg, stack, bounds⟩ := scanning.stack
    have above : i ∉ seg := by
      have nodup := scanning.standing.stack_nodup
      rw [stack] at nodup
      exact fun member => (List.disjoint_of_nodup_append nodup) member List.mem_cons_self
    rw [stack]
    exact scanning.pops stack (fun u member => (bounds u member).2) root
      (popTo_poppedTo t above before.mStack t.mNodes (BitSet.tight_set_empty i))
  · rename_i below
    exact scanning.stays below

end Closing

/-! ### Whole runs -/

theorem scc_sound (ranged : Ranged graph) (depth : Nat) : Sound graph depth (scc graph depth) := by
  induction depth with
  | zero =>
      intro j t grays standing new inside led few
      have some : 0 < unvisited graph t := by
        apply Finset.card_pos.mpr
        exact ⟨j, Finset.mem_filter.mpr ⟨Finset.mem_range.mpr inside, new⟩⟩
      omega
  | succ depth ih =>
      intro j t grays standing new inside led few
      rw [scc]
      have scanned := (standing.scanning new inside led).foldl_followEdge ranged ih standing.fresh
        few (successors graph j).toList (fun k member => BitSet.mem_toList.mp member)
      simp only [false_or, BitSet.mem_toList] at scanned
      exact Scanning.close scanned

theorem foldl_scc (ranged : Ranged graph) (nodes : List Nat)
    (inside : ∀ i ∈ nodes, i < graph.length) (standing : Standing graph t []) :
    let after := nodes.foldl
      (fun t i => if (t.mNodes i).mIndex = -1 then scc graph graph.length i t else t) t
    Standing graph after [] ∧ (∀ v, 0 ≤ t.index v → 0 ≤ after.index v) ∧
      ∀ i ∈ nodes, 0 ≤ after.index i := by
  induction nodes generalizing t with
  | nil => exact ⟨standing, fun _ old => old, by simp⟩
  | cons i rest ih =>
      have few : unvisited graph t ≤ graph.length := by
        unfold unvisited
        exact (Finset.card_filter_le _ _).trans_eq (Finset.card_range _)
      have rest_inside : ∀ j ∈ rest, j < graph.length :=
        fun j later => inside j (List.mem_cons_of_mem i later)
      rw [List.foldl_cons]
      split
      · rename_i new
        obtain ⟨next, returned⟩ := scc_sound ranged graph.length i t [] standing new
          (inside i List.mem_cons_self) (by simp) few
        obtain ⟨after, keeps, all⟩ := ih rest_inside next
        refine ⟨after, ?_, ?_⟩
        · intro v old
          exact keeps v (by rw [(returned.keeps v old).1]; exact old)
        · exact List.forall_mem_cons.mpr ⟨keeps i returned.entered, all⟩
      · rename_i entered
        obtain ⟨after, keeps, all⟩ := ih rest_inside standing
        have old := (standing.fresh i).resolve_left entered
        exact ⟨after, keeps, List.forall_mem_cons.mpr ⟨keeps i old, all⟩⟩

end TarjanSCCCalculator

/-- A list of bitsets that are the strongly connected components of a graph, each once. -/
structure Components (graph : QGraph) (sccs : List BitSet) : Prop where
  cover : ∀ v < graph.length, ∃ c ∈ sccs, v ∈ c.bits
  inside : ∀ c ∈ sccs, ∀ v ∈ c.bits, v < graph.length
  strong : ∀ c ∈ sccs, ∀ v ∈ c.bits, ∀ w, w ∈ c.bits ↔ Reaches graph v w ∧ Reaches graph w v
  disjoint : sccs.Pairwise fun a b => Disjoint a.bits b.bits
  tight : ∀ c ∈ sccs, c.Tight

theorem calculateSCCs_spec {graph : QGraph} (ranged : Ranged graph) :
    Components graph (TarjanSCCCalculator.calculateSCCs graph).mSCCs := by
  obtain ⟨standing, -, all⟩ := TarjanSCCCalculator.foldl_scc ranged (List.range graph.length)
    (fun i member => List.mem_range.mp member) TarjanSCCCalculator.standing_start
  have popped : ∀ v, 0 ≤ (TarjanSCCCalculator.calculateSCCs graph).index v →
      (TarjanSCCCalculator.calculateSCCs graph).Popped v := by
    intro v entered
    refine ((standing.entered v).mp entered).resolve_left ?_
    rw [standing.stack_nil]
    exact List.not_mem_nil
  exact
    { cover := fun v low => popped v (all v (List.mem_range.mpr low))
      inside := fun c member v bit =>
        standing.bounded v ((standing.entered v).mpr (Or.inr ⟨c, member, bit⟩))
      strong := standing.components
      disjoint := standing.disjoint
      tight := standing.tight }

end ViiCore.QuorumIntersection
