import Mathlib.Logic.Relation
import ViiCore.Herder.QuorumIntersectionChecker

/-!
The search of Tarjan's algorithm: what holds between calls, and in a call after each edge.

Nodes on the stack lead back to a node whose call has not returned, and such a node leads to
everything above it on the stack. The low link of a call is the least index of a stacked node that an
edge from the nodes it stacked goes to.
-/

namespace ViiCore.QuorumIntersection

open Relation

def Edge (graph : QGraph) (u v : Nat) : Prop :=
  v ∈ (successors graph u).bits

def Reaches (graph : QGraph) : Nat → Nat → Prop :=
  ReflTransGen (Edge graph)

def Ranged (graph : QGraph) : Prop :=
  ∀ u v, Edge graph u v → v < graph.length

namespace TarjanSCCCalculator

variable {graph : QGraph} {t t' : TarjanSCCCalculator} {grays : List Nat} {i : Nat}

def index (t : TarjanSCCCalculator) (v : Nat) : Int := (t.mNodes v).mIndex

def lowLink (t : TarjanSCCCalculator) (v : Nat) : Int := (t.mNodes v).mLowLink

def Popped (t : TarjanSCCCalculator) (v : Nat) : Prop :=
  ∃ c ∈ t.mSCCs, v ∈ c.bits

/-! ### What the steps do to the nodes -/

theorem index_enter (t : TarjanSCCCalculator) (i v : Nat) :
    (t.enter i).index v = if v = i then t.mIndex else t.index v := by
  unfold index enter
  by_cases same : v = i
  · subst v
    simp
  · simp [same]

theorem lowLink_enter (t : TarjanSCCCalculator) (i v : Nat) :
    (t.enter i).lowLink v = if v = i then t.mIndex else t.lowLink v := by
  unfold lowLink enter
  by_cases same : v = i
  · subst v
    simp
  · simp [same]

theorem onStack_enter (t : TarjanSCCCalculator) (i v : Nat) :
    ((t.enter i).mNodes v).mOnStack = true ↔ v = i ∨ (t.mNodes v).mOnStack = true := by
  unfold enter
  by_cases same : v = i
  · subst v
    simp
  · simp [same]

theorem index_lower (t : TarjanSCCCalculator) (i v : Nat) (link : Int) :
    (t.lower i link).index v = t.index v := by
  unfold index lower
  by_cases same : v = i
  · subst v
    simp
  · simp [same]

theorem lowLink_lower (t : TarjanSCCCalculator) (i v : Nat) (link : Int) :
    (t.lower i link).lowLink v = if v = i then min (t.lowLink i) link else t.lowLink v := by
  unfold lowLink lower
  by_cases same : v = i
  · subst v
    simp
  · simp [same]

theorem onStack_lower (t : TarjanSCCCalculator) (i v : Nat) (link : Int) :
    ((t.lower i link).mNodes v).mOnStack = (t.mNodes v).mOnStack := by
  unfold lower
  by_cases same : v = i
  · subst v
    simp
  · simp [same]

/-- What is left after a segment of the stack, down to a node, was taken off. -/
structure PoppedTo (t : TarjanSCCCalculator) (i : Nat) (seg rest : List Nat)
    (nodes : Nat → SCCNode) (newScc : BitSet) (t' : TarjanSCCCalculator) : Prop where
  stack : t'.mStack = rest
  counter : t'.mIndex = t.mIndex
  index : ∀ v, t'.index v = (nodes v).mIndex
  lowLink : ∀ v, t'.lowLink v = (nodes v).mLowLink
  onStack : ∀ v, (t'.mNodes v).mOnStack = true ↔ (nodes v).mOnStack = true ∧ v ∉ seg ++ [i]
  component : ∃ c, t'.mSCCs = t.mSCCs ++ [c] ∧ c.Tight ∧
    ∀ v, v ∈ c.bits ↔ v ∈ newScc.bits ∨ v ∈ seg ++ [i]

theorem popTo_poppedTo (t : TarjanSCCCalculator) {i : Nat} {seg : List Nat} (above : i ∉ seg)
    (rest : List Nat) (nodes : Nat → SCCNode) {newScc : BitSet} (tight : newScc.Tight) :
    PoppedTo t i seg rest nodes newScc (popTo i t (seg ++ i :: rest) nodes newScc) := by
  induction seg generalizing nodes newScc with
  | nil =>
      simp only [List.nil_append, popTo, ne_eq, not_true_eq_false, if_false]
      refine ⟨rfl, rfl, ?_, ?_, ?_, ⟨_, rfl, tight.set i, ?_⟩⟩
      · intro v
        by_cases same : v = i
        · subst v
          simp [TarjanSCCCalculator.index]
        · simp [TarjanSCCCalculator.index, same]
      · intro v
        by_cases same : v = i
        · subst v
          simp [TarjanSCCCalculator.lowLink]
        · simp [TarjanSCCCalculator.lowLink, same]
      · intro v
        by_cases same : v = i
        · subst v
          simp
        · simp [same]
      · intro v
        simp [or_comm]
  | cons j seg ih =>
      obtain ⟨different, above⟩ := not_or.mp (mt List.mem_cons.mpr above)
      rw [List.cons_append, popTo, if_pos (Ne.symm different)]
      have inner := ih above (Function.update nodes j { nodes j with mOnStack := false })
        (tight.set j)
      refine ⟨inner.stack, inner.counter, ?_, ?_, ?_, ?_⟩
      · intro v
        rw [inner.index]
        by_cases same : v = j
        · subst v
          simp
        · simp [same]
      · intro v
        rw [inner.lowLink]
        by_cases same : v = j
        · subst v
          simp
        · simp [same]
      · intro v
        rw [inner.onStack]
        by_cases same : v = j
        · subst v
          simp
        · simp [same]
      · obtain ⟨c, appended, tightC, members⟩ := inner.component
        refine ⟨c, appended, tightC, ?_⟩
        intro v
        rw [members]
        simp only [BitSet.bits_set, Finset.mem_insert, List.cons_append, List.mem_cons]
        tauto

/-! ### The invariant between calls -/

/-- A state of the search, with the nodes whose calls have not returned, the latest one first. -/
structure Standing (graph : QGraph) (t : TarjanSCCCalculator) (grays : List Nat) : Prop where
  descending : t.mStack.Pairwise fun u v => t.index v < t.index u
  onStack : ∀ v, (t.mNodes v).mOnStack = true ↔ v ∈ t.mStack
  fresh : ∀ v, t.index v = -1 ∨ 0 ≤ t.index v
  below : ∀ v, t.index v < t.mIndex
  entered : ∀ v, 0 ≤ t.index v ↔ v ∈ t.mStack ∨ t.Popped v
  apart : ∀ v ∈ t.mStack, ¬ t.Popped v
  active : ∀ g ∈ grays, g ∈ t.mStack
  path : grays.Pairwise fun u v => t.index v < t.index u
  returns : ∀ v ∈ t.mStack, ∃ g ∈ grays, Reaches graph v g ∧ t.index g ≤ t.index v
  leads : ∀ g ∈ grays, ∀ v ∈ t.mStack, t.index g ≤ t.index v → Reaches graph g v
  explored : ∀ v, 0 ≤ t.index v → v ∉ grays → ∀ w, Edge graph v w → 0 ≤ t.index w
  closed : ∀ v w, t.Popped v → Edge graph v w → t.Popped w
  components : ∀ c ∈ t.mSCCs, ∀ v ∈ c.bits, ∀ w,
    w ∈ c.bits ↔ Reaches graph v w ∧ Reaches graph w v
  disjoint : t.mSCCs.Pairwise fun a b => Disjoint a.bits b.bits
  tight : ∀ c ∈ t.mSCCs, c.Tight
  bounded : ∀ v, 0 ≤ t.index v → v < graph.length

theorem standing_start : Standing graph {} [] where
  descending := List.Pairwise.nil
  onStack := by simp
  fresh := by simp [index]
  below := by simp [index]
  entered := by simp [index, Popped]
  apart := by simp
  active := by simp
  path := List.Pairwise.nil
  returns := by simp
  leads := by simp
  explored := by simp [index]
  closed := by simp [Popped]
  components := by simp
  disjoint := List.Pairwise.nil
  tight := by simp
  bounded := by simp [index]

theorem Standing.lower (standing : Standing graph t grays) (i : Nat) (link : Int) :
    Standing graph (t.lower i link) grays where
  descending := standing.descending.imp (by simp [index_lower])
  onStack v := by
    rw [onStack_lower]
    exact standing.onStack v
  fresh v := by
    rw [index_lower]
    exact standing.fresh v
  below v := by
    rw [index_lower]
    exact standing.below v
  entered v := by
    rw [index_lower]
    exact standing.entered v
  apart := standing.apart
  active := standing.active
  path := standing.path.imp (by simp [index_lower])
  returns v member := by
    simp only [index_lower]
    exact standing.returns v member
  leads g gray v member := by
    simp only [index_lower]
    exact standing.leads g gray v member
  explored v := by
    simp only [index_lower]
    exact standing.explored v
  closed := standing.closed
  components := standing.components
  disjoint := standing.disjoint
  tight := standing.tight
  bounded v := by
    rw [index_lower]
    exact standing.bounded v

theorem Standing.stacked (standing : Standing graph t grays) {v : Nat} (member : v ∈ t.mStack) :
    0 ≤ t.index v :=
  (standing.entered v).mpr (Or.inl member)

theorem Standing.stack_nodup (standing : Standing graph t grays) : t.mStack.Nodup := by
  refine standing.descending.imp ?_
  intro u v smaller same
  subst v
  exact lt_irrefl _ smaller

theorem Standing.popped_of_reaches (standing : Standing graph t grays) {v w : Nat}
    (popped : t.Popped v) (reaches : Reaches graph v w) : t.Popped w := by
  induction reaches with
  | refl => exact popped
  | tail _ edge ih => exact standing.closed _ _ ih edge

theorem Standing.stack_nil (standing : Standing graph t []) : t.mStack = [] := by
  rw [List.eq_nil_iff_forall_not_mem]
  intro v member
  obtain ⟨g, gray, -⟩ := standing.returns v member
  cases gray

theorem index_enter_self (t : TarjanSCCCalculator) (i : Nat) : (t.enter i).index i = t.mIndex := by
  rw [index_enter, if_pos rfl]

theorem index_enter_of_ne (t : TarjanSCCCalculator) {i v : Nat} (different : v ≠ i) :
    (t.enter i).index v = t.index v := by
  rw [index_enter, if_neg different]

theorem Standing.enter (standing : Standing graph t grays) (new : t.index i = -1)
    (inside : i < graph.length) (led : ∀ g ∈ grays, Reaches graph g i) :
    Standing graph (t.enter i) (i :: grays) := by
  have nonneg : 0 ≤ t.mIndex := by
    have bound := standing.below i
    omega
  have different : ∀ v, 0 ≤ t.index v → v ≠ i := by
    intro v old same
    subst v
    omega
  have kept : ∀ v, 0 ≤ t.index v → (t.enter i).index v = t.index v :=
    fun v old => index_enter_of_ne t (different v old)
  have keptStack : ∀ v ∈ t.mStack, (t.enter i).index v = t.index v :=
    fun v member => kept v (standing.stacked member)
  have popped : ∀ v, (t.enter i).Popped v ↔ t.Popped v := fun v => Iff.rfl
  have visited : ∀ v, 0 ≤ (t.enter i).index v ↔ v = i ∨ 0 ≤ t.index v := by
    intro v
    by_cases same : v = i
    · subst v
      rw [index_enter_self]
      simp [nonneg]
    · rw [index_enter_of_ne t same]
      simp [same]
  constructor
  · refine List.pairwise_cons.mpr ⟨?_, ?_⟩
    · intro v member
      rw [index_enter_self, keptStack v member]
      exact standing.below v
    · refine standing.descending.imp_of_mem ?_
      intro u v uMember vMember smaller
      rw [keptStack u uMember, keptStack v vMember]
      exact smaller
  · intro v
    rw [onStack_enter, standing.onStack]
    exact List.mem_cons.symm
  · intro v
    by_cases same : v = i
    · subst v
      rw [index_enter_self]
      exact Or.inr nonneg
    · rw [index_enter_of_ne t same]
      exact standing.fresh v
  · intro v
    change (t.enter i).index v < t.mIndex + 1
    by_cases same : v = i
    · subst v
      rw [index_enter_self]
      omega
    · rw [index_enter_of_ne t same]
      have bound := standing.below v
      omega
  · intro v
    rw [visited, popped, standing.entered]
    change _ ↔ v ∈ i :: t.mStack ∨ _
    rw [List.mem_cons, or_assoc]
  · intro v member
    rw [popped]
    rcases List.mem_cons.mp member with rfl | old
    · intro wasPopped
      have old := (standing.entered v).mpr (Or.inr wasPopped)
      omega
    · exact standing.apart v old
  · intro g gray
    rcases List.mem_cons.mp gray with rfl | old
    · exact List.mem_cons_self
    · exact List.mem_cons_of_mem i (standing.active g old)
  · refine List.pairwise_cons.mpr ⟨?_, ?_⟩
    · intro g gray
      rw [index_enter_self, keptStack g (standing.active g gray)]
      exact standing.below g
    · refine standing.path.imp_of_mem ?_
      intro u v uGray vGray smaller
      rw [keptStack u (standing.active u uGray), keptStack v (standing.active v vGray)]
      exact smaller
  · intro v member
    rcases List.mem_cons.mp member with rfl | old
    · exact ⟨v, List.mem_cons_self, .refl, le_rfl⟩
    · obtain ⟨g, gray, reaches, lower⟩ := standing.returns v old
      refine ⟨g, List.mem_cons_of_mem i gray, reaches, ?_⟩
      rw [keptStack g (standing.active g gray), keptStack v old]
      exact lower
  · intro g gray v member above
    rcases List.mem_cons.mp gray with rfl | grayOld
    · rcases List.mem_cons.mp member with rfl | old
      · exact .refl
      · rw [index_enter_self, keptStack v old] at above
        have bound := standing.below v
        omega
    · rcases List.mem_cons.mp member with rfl | old
      · exact led g grayOld
      · rw [keptStack g (standing.active g grayOld), keptStack v old] at above
        exact standing.leads g grayOld v old above
  · intro v old black w edge
    obtain ⟨notSelf, notGray⟩ := not_or.mp (mt List.mem_cons.mpr black)
    have before := ((visited v).mp old).resolve_left notSelf
    exact (visited w).mpr (Or.inr (standing.explored v before notGray w edge))
  · exact standing.closed
  · exact standing.components
  · exact standing.disjoint
  · exact standing.tight
  · intro v old
    rcases (visited v).mp old with rfl | before
    · exact inside
    · exact standing.bounded v before

/-! ### The loop over the edges of a node -/

/-- The state inside the call for a node, after the edges to some nodes were followed: what the loop
has left alone, and what the low link of the node bounds. -/
structure Scanning (graph : QGraph) (before : TarjanSCCCalculator) (grays : List Nat) (i : Nat)
    (seen : Nat → Prop) (t : TarjanSCCCalculator) : Prop where
  standing : Standing graph t (i :: grays)
  new : before.index i = -1
  keeps : ∀ v, 0 ≤ before.index v → t.index v = before.index v ∧ t.lowLink v = before.lowLink v
  own : t.index i = before.mIndex
  low_le : t.lowLink i ≤ t.index i
  link : ∃ w ∈ t.mStack, t.index w = t.lowLink i ∧ Reaches graph i w
  stack : ∃ seg, t.mStack = seg ++ i :: before.mStack ∧
    ∀ u ∈ seg, before.mIndex ≤ t.index u ∧
      ∀ w, Edge graph u w → w ∈ t.mStack → t.lowLink i ≤ t.index w
  followed : ∀ w, seen w → 0 ≤ t.index w ∧ (w ∈ t.mStack → t.lowLink i ≤ t.index w)

theorem Standing.scanning (standing : Standing graph t grays) (new : t.index i = -1)
    (inside : i < graph.length) (led : ∀ g ∈ grays, Reaches graph g i) :
    Scanning graph t grays i (fun _ => False) (t.enter i) where
  standing := standing.enter new inside led
  new := new
  keeps v old := by
    have different : v ≠ i := by
      intro same
      subst v
      omega
    rw [index_enter_of_ne t different, lowLink_enter, if_neg different]
    exact ⟨rfl, rfl⟩
  own := index_enter_self t i
  low_le := by rw [index_enter_self, lowLink_enter, if_pos rfl]
  link := by
    refine ⟨i, List.mem_cons_self, ?_, .refl⟩
    rw [index_enter_self, lowLink_enter, if_pos rfl]
  stack := ⟨[], rfl, by simp⟩
  followed _ absurd := absurd.elim

structure Returned (graph : QGraph) (before : TarjanSCCCalculator) (i : Nat)
    (t : TarjanSCCCalculator) : Prop where
  entered : 0 ≤ t.index i
  keeps : ∀ v, 0 ≤ before.index v → t.index v = before.index v ∧ t.lowLink v = before.lowLink v
  low_le : t.lowLink i ≤ t.index i
  link : i ∈ t.mStack → ∃ w ∈ t.mStack, t.index w = t.lowLink i ∧ Reaches graph i w
  stack : ∃ seg, t.mStack = seg ++ before.mStack ∧
    ∀ u ∈ seg, before.mIndex ≤ t.index u ∧
      ∀ w, Edge graph u w → w ∈ t.mStack → t.lowLink i ≤ t.index w
  alone : i ∉ t.mStack → before.mIndex ≤ t.lowLink i

section Edges

variable {before : TarjanSCCCalculator} {seen : Nat → Prop}

theorem Scanning.self_mem (scanning : Scanning graph before grays i seen t) : i ∈ t.mStack :=
  scanning.standing.active i List.mem_cons_self

theorem Scanning.old_ne (scanning : Scanning graph before grays i seen t) {v : Nat}
    (old : 0 ≤ before.index v) : v ≠ i := by
  intro same
  subst v
  have new := scanning.new
  omega

theorem Scanning.low_lt (scanning : Scanning graph before grays i seen t) :
    t.lowLink i < t.mIndex :=
  lt_of_le_of_lt scanning.low_le (scanning.standing.below i)

theorem Scanning.skip (scanning : Scanning graph before grays i seen t) {j : Nat}
    (old : 0 ≤ t.index j) (off : j ∉ t.mStack) :
    Scanning graph before grays i (fun w => seen w ∨ w = j) t where
  standing := scanning.standing
  new := scanning.new
  keeps := scanning.keeps
  own := scanning.own
  low_le := scanning.low_le
  link := scanning.link
  stack := scanning.stack
  followed w := by
    rintro (earlier | rfl)
    · exact scanning.followed w earlier
    · exact ⟨old, fun member => absurd member off⟩

/-- The low link after a call that a followed edge made, or that needed none, where the stack may
have grown by nodes whose edges are bounded by the link. -/
theorem Scanning.lowered (scanning : Scanning graph before grays i seen t) {j : Nat} {link : Int}
    (standing : Standing graph t' (i :: grays))
    (keeps : ∀ v, 0 ≤ t.index v → t'.index v = t.index v ∧ t'.lowLink v = t.lowLink v)
    (grown : ∃ seg, t'.mStack = seg ++ t.mStack ∧
      ∀ u ∈ seg, t.mIndex ≤ t'.index u ∧
        ∀ w, Edge graph u w → w ∈ t'.mStack → link ≤ t'.index w)
    (entered : 0 ≤ t'.index j) (bound : j ∈ t'.mStack → link ≤ t'.index j)
    (target : (∃ w ∈ t'.mStack, t'.index w = link ∧ Reaches graph i w) ∨ t.lowLink i ≤ link) :
    Scanning graph before grays i (fun w => seen w ∨ w = j) (t'.lower i link) := by
  have keptStack : ∀ v ∈ t.mStack, t'.index v = t.index v :=
    fun v member => (keeps v (scanning.standing.stacked member)).1
  have self := keeps i (scanning.standing.stacked scanning.self_mem)
  have low : (t'.lower i link).lowLink i = min (t.lowLink i) link := by
    rw [lowLink_lower, if_pos rfl, self.2]
  obtain ⟨seg, grew, segBound⟩ := grown
  -- nodes that the call stacked come after everything the old low link bounds
  have stays : ∀ w ∈ t'.mStack, (w ∈ t.mStack → t.lowLink i ≤ t.index w) →
      t.lowLink i ≤ t'.index w := by
    intro w member bounded
    rw [grew] at member
    rcases List.mem_append.mp member with added | old
    · have late := (segBound w added).1
      have early := scanning.low_lt
      omega
    · rw [keptStack w old]
      exact bounded old
  constructor
  · exact standing.lower i link
  · exact scanning.new
  · intro v old
    rw [index_lower, lowLink_lower, if_neg (scanning.old_ne old)]
    have first := scanning.keeps v old
    have second := keeps v (by omega)
    exact ⟨second.1.trans first.1, second.2.trans first.2⟩
  · rw [index_lower, self.1]
    exact scanning.own
  · rw [low, index_lower, self.1]
    exact (min_le_left _ _).trans scanning.low_le
  · rw [low]
    simp only [index_lower]
    rcases le_total (t.lowLink i) link with smaller | smaller
    · obtain ⟨w, member, same, reaches⟩ := scanning.link
      refine ⟨w, ?_, ?_, reaches⟩
      · change w ∈ t'.mStack
        rw [grew]
        exact List.mem_append_right seg member
      · rw [min_eq_left smaller, keptStack w member]
        exact same
    · rw [min_eq_right smaller]
      rcases target with found | larger
      · exact found
      · obtain ⟨w, member, same, reaches⟩ := scanning.link
        refine ⟨w, ?_, ?_, reaches⟩
        · change w ∈ t'.mStack
          rw [grew]
          exact List.mem_append_right seg member
        · rw [keptStack w member, same]
          omega
  · obtain ⟨earlier, stack, bounds⟩ := scanning.stack
    refine ⟨seg ++ earlier, ?_, ?_⟩
    · change t'.mStack = _
      rw [grew, stack, List.append_assoc]
    · intro u member
      rw [low]
      simp only [index_lower]
      rcases List.mem_append.mp member with added | old
      · obtain ⟨late, edges⟩ := segBound u added
        have own := scanning.own
        have bound := scanning.standing.below i
        refine ⟨by omega, ?_⟩
        intro w edge stacked
        exact (min_le_right _ _).trans (edges w edge stacked)
      · have stacked : u ∈ t.mStack := by
          rw [stack]
          exact List.mem_append_left _ old
        obtain ⟨late, edges⟩ := bounds u old
        refine ⟨by rw [keptStack u stacked]; exact late, ?_⟩
        intro w edge inStack
        exact (min_le_left _ _).trans (stays w inStack (edges w edge))
  · intro w followed
    rw [low, index_lower]
    rcases followed with earlier | rfl
    · obtain ⟨old, bounded⟩ := scanning.followed w earlier
      refine ⟨by rw [(keeps w old).1]; exact old, ?_⟩
      intro inStack
      exact (min_le_left _ _).trans (stays w inStack bounded)
    · exact ⟨entered, fun inStack => (min_le_right _ _).trans (bound inStack)⟩

def unvisited (graph : QGraph) (t : TarjanSCCCalculator) : Nat :=
  ((Finset.range graph.length).filter fun v => t.index v = -1).card

theorem Scanning.unvisited_lt (scanning : Scanning graph before grays i seen t)
    (fresh : ∀ v, before.index v = -1 ∨ 0 ≤ before.index v) :
    unvisited graph t < unvisited graph before := by
  have entered := scanning.standing.stacked scanning.self_mem
  apply Finset.card_lt_card
  rw [Finset.ssubset_iff_of_subset]
  · refine ⟨i, ?_, ?_⟩
    · rw [Finset.mem_filter, Finset.mem_range]
      exact ⟨scanning.standing.bounded i entered, scanning.new⟩
    · rw [Finset.mem_filter]
      rintro ⟨-, missing⟩
      omega
  · intro v member
    obtain ⟨inside, missing⟩ := Finset.mem_filter.mp member
    refine Finset.mem_filter.mpr ⟨inside, ?_⟩
    rcases fresh v with same | old
    · exact same
    · have kept := (scanning.keeps v old).1
      omega

/-- What a call promises, for nodes that were not entered and a state with few of them left. -/
def Sound (graph : QGraph) (depth : Nat)
    (visit : Nat → TarjanSCCCalculator → TarjanSCCCalculator) : Prop :=
  ∀ j t grays, Standing graph t grays → t.index j = -1 → j < graph.length →
    (∀ g ∈ grays, Reaches graph g j) → unvisited graph t ≤ depth →
    Standing graph (visit j t) grays ∧ Returned graph t j (visit j t)

theorem Scanning.led (scanning : Scanning graph before grays i seen t) {j : Nat}
    (edge : Edge graph i j) : ∀ g ∈ i :: grays, Reaches graph g j := by
  have standing := scanning.standing
  intro g gray
  have order : t.index g ≤ t.index i := by
    rcases List.mem_cons.mp gray with rfl | outer
    · exact le_rfl
    · exact le_of_lt ((List.pairwise_cons.mp standing.path).1 g outer)
  exact (standing.leads g gray i scanning.self_mem order).tail edge

theorem Scanning.followEdge (ranged : Ranged graph) {depth : Nat}
    {visit : Nat → TarjanSCCCalculator → TarjanSCCCalculator} (sound : Sound graph depth visit)
    (scanning : Scanning graph before grays i seen t) {j : Nat} (edge : Edge graph i j)
    (few : unvisited graph t ≤ depth) :
    Scanning graph before grays i (fun w => seen w ∨ w = j) (t.followEdge visit i j) := by
  unfold TarjanSCCCalculator.followEdge
  have standing := scanning.standing
  split
  · rename_i missing
    obtain ⟨after, returned⟩ := sound j t (i :: grays) standing missing (ranged i j edge)
      (scanning.led edge) few
    refine scanning.lowered after returned.keeps returned.stack returned.entered
      (fun _ => returned.low_le) ?_
    by_cases stacked : j ∈ (visit j t).mStack
    · obtain ⟨w, member, same, reaches⟩ := returned.link stacked
      exact Or.inl ⟨w, member, same, reaches.head edge⟩
    · have late := returned.alone stacked
      have early := scanning.low_lt
      exact Or.inr (le_of_lt (lt_of_lt_of_le early late))
  · rename_i present
    have old : 0 ≤ t.index j := (standing.fresh j).resolve_left present
    split
    · rename_i on
      have stacked := (standing.onStack j).mp on
      exact scanning.lowered standing (fun v _ => ⟨rfl, rfl⟩) ⟨[], rfl, by simp⟩ old
        (fun _ => le_rfl) (Or.inl ⟨j, stacked, rfl, .single edge⟩)
    · rename_i off
      exact scanning.skip old (mt (standing.onStack j).mpr off)

theorem Scanning.foldl_followEdge (ranged : Ranged graph) {depth : Nat}
    {visit : Nat → TarjanSCCCalculator → TarjanSCCCalculator} (sound : Sound graph depth visit)
    (fresh : ∀ v, before.index v = -1 ∨ 0 ≤ before.index v)
    (few : unvisited graph before ≤ depth + 1) (edges : List Nat)
    (out : ∀ j ∈ edges, Edge graph i j) (scanning : Scanning graph before grays i seen t) :
    Scanning graph before grays i (fun w => seen w ∨ w ∈ edges)
      (edges.foldl (TarjanSCCCalculator.followEdge visit i) t) := by
  induction edges generalizing t seen with
  | nil => simpa using scanning
  | cons j rest ih =>
      have fewer := scanning.unvisited_lt fresh
      have next := scanning.followEdge ranged sound (out j List.mem_cons_self) (by omega)
      have all := ih (fun k later => out k (List.mem_cons_of_mem j later)) next
      simpa only [List.foldl_cons, List.mem_cons, or_assoc] using all

end Edges

end TarjanSCCCalculator

end ViiCore.QuorumIntersection
