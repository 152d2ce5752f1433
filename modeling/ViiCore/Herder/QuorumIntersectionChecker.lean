import Mathlib.Data.List.AList
import ViiCore.SCP.QuorumSet
import ViiCore.Util.BitSet

/-!
The search for disjoint quorums of `QuorumIntersectionCheckerImpl.cpp`.

Nodes with a known quorum set are numbered, quorum sets become bitsets of numbers, Tarjan's
algorithm splits the numbers into strongly connected components, and the minimal quorums of the
largest component are enumerated. Counters, logs and the record of the split that was found are left
out.
-/

namespace ViiCore.QuorumIntersection

open SCP

inductive QBitSet where
  | mk (mThreshold : Nat) (mNodes : BitSet) (mInnerSets : List QBitSet)

namespace QBitSet

mutual
def mAllSuccessors : QBitSet → BitSet
  | .mk _ nodes innerSets => getSuccessors nodes innerSets

def getSuccessors : BitSet → List QBitSet → BitSet
  | out, [] => out
  | out, inner :: rest => getSuccessors (out.union (mAllSuccessors inner)) rest
end

end QBitSet

abbrev QGraph := List QBitSet

def successors (graph : QGraph) (i : Nat) : BitSet :=
  match graph[i]? with
  | some qbs => qbs.mAllSuccessors
  | none => .empty

/-! ### Strongly connected components -/

structure SCCNode where
  mIndex : Int := -1
  mLowLink : Int := -1
  mOnStack : Bool := false

/-- The stack is listed from its top. -/
structure TarjanSCCCalculator where
  mNodes : Nat → SCCNode := fun _ => {}
  mStack : List Nat := []
  mIndex : Int := 0
  mSCCs : List BitSet := []

namespace TarjanSCCCalculator

def enter (t : TarjanSCCCalculator) (i : Nat) : TarjanSCCCalculator :=
  { t with
    mNodes := Function.update t.mNodes i
      { mIndex := t.mIndex, mLowLink := t.mIndex, mOnStack := true }
    mIndex := t.mIndex + 1
    mStack := i :: t.mStack }

def lower (t : TarjanSCCCalculator) (i : Nat) (link : Int) : TarjanSCCCalculator :=
  { t with
    mNodes := Function.update t.mNodes i
      { t.mNodes i with mLowLink := min (t.mNodes i).mLowLink link } }

/-- One edge of the loop of `scc`, with the recursive call as a parameter. -/
def followEdge (scc : Nat → TarjanSCCCalculator → TarjanSCCCalculator) (i : Nat)
    (t : TarjanSCCCalculator) (j : Nat) : TarjanSCCCalculator :=
  if (t.mNodes j).mIndex = -1 then
    let t := scc j t
    t.lower i (t.mNodes j).mLowLink
  else if (t.mNodes j).mOnStack then t.lower i (t.mNodes j).mIndex
  else t

def popTo (i : Nat) (t : TarjanSCCCalculator) :
    List Nat → (Nat → SCCNode) → BitSet → TarjanSCCCalculator
  | [], nodes, newScc =>
      { t with mNodes := nodes, mStack := [], mSCCs := t.mSCCs ++ [newScc] }
  | j :: rest, nodes, newScc =>
      let newScc := newScc.set j
      let nodes := Function.update nodes j { nodes j with mOnStack := false }
      if j ≠ i then popTo i t rest nodes newScc
      else { t with mNodes := nodes, mStack := rest, mSCCs := t.mSCCs ++ [newScc] }

def close (t : TarjanSCCCalculator) (i : Nat) : TarjanSCCCalculator :=
  if (t.mNodes i).mLowLink = (t.mNodes i).mIndex then
    popTo i t t.mStack t.mNodes (BitSet.empty.set i)
  else t

/-- Every call is for a node that was not entered before, so calls are nested no deeper than there
are nodes. -/
def scc (graph : QGraph) : Nat → Nat → TarjanSCCCalculator → TarjanSCCCalculator
  | 0, _, t => t
  | depth + 1, i, t =>
      ((successors graph i).toList.foldl (followEdge (scc graph depth) i) (t.enter i)).close i

def calculateSCCs (graph : QGraph) : TarjanSCCCalculator :=
  (List.range graph.length).foldl
    (fun t i => if (t.mNodes i).mIndex = -1 then scc graph graph.length i t else t) {}

end TarjanSCCCalculator

/-! ### The graph -/

section Graph

variable {NodeID : Type} [DecidableEq NodeID]

abbrev QuorumMap (NodeID : Type) := AList fun _ : NodeID => Option (SCPQuorumSet NodeID)

/-- A validator without a number, one whose quorum set is missing, is passed over. -/
def setValidator (pubKeys : List NodeID) (nodeBits : BitSet) (v : NodeID) : BitSet :=
  match pubKeys.idxOf? v with
  | some i => nodeBits.set i
  | none => nodeBits

def convertValidators (pubKeys : List NodeID) (validators : List NodeID) : BitSet :=
  validators.foldl (setValidator pubKeys) (BitSet.withCapacity pubKeys.length)

mutual
def convertSCPQuorumSet (pubKeys : List NodeID) : SCPQuorumSet NodeID → QBitSet
  | .mk threshold validators innerSets =>
      .mk threshold (convertValidators pubKeys validators)
        (convertSCPQuorumSetInner pubKeys innerSets)

def convertSCPQuorumSetInner (pubKeys : List NodeID) :
    List (SCPQuorumSet NodeID) → List QBitSet
  | [] => []
  | inner :: rest =>
      convertSCPQuorumSet pubKeys inner :: convertSCPQuorumSetInner pubKeys rest
end

def bitNumPubKeys (qmap : QuorumMap NodeID) : List NodeID :=
  qmap.entries.filterMap fun pair => pair.2.map fun _ => pair.1

def buildGraph (qmap : QuorumMap NodeID) : QGraph :=
  qmap.entries.filterMap fun pair => pair.2.map (convertSCPQuorumSet (bitNumPubKeys qmap))

end Graph

structure QuorumIntersectionCheckerImpl where
  mGraph : QGraph
  mSCCs : List BitSet
  mMaxSCC : BitSet

def maxSCC (sccs : List BitSet) : BitSet :=
  sccs.foldl (fun largest scc => if scc.count > largest.count then scc else largest) .empty

def QuorumIntersectionCheckerImpl.create {NodeID : Type} [DecidableEq NodeID]
    (qmap : QuorumMap NodeID) : QuorumIntersectionCheckerImpl :=
  let graph := buildGraph qmap
  let sccs := (TarjanSCCCalculator.calculateSCCs graph).mSCCs
  { mGraph := graph, mSCCs := sccs, mMaxSCC := maxSCC sccs }

/-! ### Quorums -/

mutual
def containsQuorumSlice (bs : BitSet) : QBitSet → Bool
  | .mk threshold nodes innerSets =>
      let intersecting := bs.intersectionCount nodes
      if intersecting ≥ threshold then true
      else
        let innerThreshold := threshold - intersecting
        if innerThreshold > innerSets.length then false
        else if bs.intersectionCount (QBitSet.getSuccessors nodes innerSets) < threshold then false
        else
          containsInnerSlices bs innerThreshold (innerSets.length - innerThreshold + 1) innerSets

def containsInnerSlices (bs : BitSet) : Nat → Nat → List QBitSet → Bool
  | _, _, [] => false
  | innerThreshold, innerFailLimit, inner :: rest =>
      if containsQuorumSlice bs inner then
        if innerThreshold - 1 = 0 then true
        else containsInnerSlices bs (innerThreshold - 1) innerFailLimit rest
      else if innerFailLimit - 1 = 0 then false
      else containsInnerSlices bs innerThreshold (innerFailLimit - 1) rest
end

def containsQuorumSliceForNode (graph : QGraph) (bs : BitSet) (node : Nat) : Bool :=
  if bs.get node then
    match graph[node]? with
    | some qbs => containsQuorumSlice bs qbs
    | none => false
  else false

def filtered (graph : QGraph) (nodes : BitSet) : BitSet :=
  nodes.toList.foldl
    (fun filtered i =>
      if containsQuorumSliceForNode graph nodes i then filtered.set i else filtered)
    (BitSet.withCapacity nodes.count)

theorem bits_foldl_set (keep : Nat → Bool) (items : List Nat) (start : BitSet) :
    (items.foldl (fun filtered i => if keep i then filtered.set i else filtered) start).bits =
      start.bits ∪ (items.filter keep).toFinset := by
  induction items generalizing start with
  | nil => simp
  | cons i rest ih =>
      rw [List.foldl_cons, ih]
      cases kept : keep i with
      | false => simp [kept]
      | true =>
          ext j
          simp [kept]

theorem bits_filtered (graph : QGraph) (nodes : BitSet) :
    (filtered graph nodes).bits =
      nodes.bits.filter fun i => containsQuorumSliceForNode graph nodes i = true := by
  ext i
  rw [filtered, bits_foldl_set]
  simp

theorem filtered_subset (graph : QGraph) (nodes : BitSet) :
    (filtered graph nodes).bits ⊆ nodes.bits := by
  rw [bits_filtered]
  exact Finset.filter_subset _ _

def contractToMaximalQuorum (graph : QGraph) (nodes : BitSet) : BitSet :=
  if (filtered graph nodes).count = nodes.count ∨ (filtered graph nodes).isEmpty then
    filtered graph nodes
  else contractToMaximalQuorum graph (filtered graph nodes)
termination_by nodes.count
decreasing_by
  rename_i shrunk
  rw [not_or] at shrunk
  exact Nat.lt_of_le_of_ne (Finset.card_le_card (filtered_subset graph nodes)) shrunk.1

def isAQuorum (graph : QGraph) (nodes : BitSet) : Bool :=
  !(contractToMaximalQuorum graph nodes).isEmpty

def noSmallerQuorum (graph : QGraph) : BitSet → List Nat → Bool
  | _, [] => true
  | minQ, i :: rest =>
      if isAQuorum graph (minQ.unset i) then false
      else noSmallerQuorum graph ((minQ.unset i).set i) rest

def isMinimalQuorum (graph : QGraph) (nodes : BitSet) : Bool :=
  if nodes.isEmpty then false else noSmallerQuorum graph nodes nodes.toList

namespace QuorumIntersectionCheckerImpl

variable (qic : QuorumIntersectionCheckerImpl)

def hasDisjointQuorum (nodes : BitSet) : Bool :=
  !(contractToMaximalQuorum qic.mGraph (qic.mMaxSCC.difference nodes)).isEmpty

end QuorumIntersectionCheckerImpl

/-! ### The enumeration of minimal quorums -/

structure SplitSearch where
  inDegrees : Nat → Nat := fun _ => 0
  maxNode : Nat
  maxCount : Nat := 1
  maxDegree : Nat := 0
  draws : Nat := 0

/-- One edge of the search. The random draws of `rand_uniform` are given by their number and upper
bound. -/
def SplitSearch.countEdge (rand_uniform : Nat → Nat → Nat) (search : SplitSearch) (j : Nat) :
    SplitSearch :=
  let currDegree := search.inDegrees j + 1
  let search := { search with inDegrees := Function.update search.inDegrees j currDegree }
  if currDegree ≥ search.maxDegree then
    if currDegree = search.maxDegree then
      let maxCount := search.maxCount + 1
      let search := { search with maxCount := maxCount, draws := search.draws + 1 }
      if rand_uniform search.draws maxCount = 0 then search
      else { search with maxDegree := currDegree, maxNode := j }
    else { search with maxCount := 1, maxDegree := currDegree, maxNode := j }
  else search

def pickSplitNode (rand_uniform : Nat → Nat → Nat) (graph : QGraph) (remaining : BitSet) : Nat :=
  (remaining.toList.foldl
    (fun search i =>
      ((successors graph i).intersection remaining).toList.foldl
        (SplitSearch.countEdge rand_uniform) search)
    { maxNode := remaining.max }).maxNode

theorem SplitSearch.countEdge_maxNode (rand_uniform : Nat → Nat → Nat) (search : SplitSearch)
    (j : Nat) : (search.countEdge rand_uniform j).maxNode = search.maxNode ∨
      (search.countEdge rand_uniform j).maxNode = j := by
  unfold SplitSearch.countEdge
  dsimp only
  split_ifs <;> simp

theorem SplitSearch.foldl_maxNode (rand_uniform : Nat → Nat → Nat) {remaining : BitSet}
    (edges : List Nat) (inside : ∀ j ∈ edges, j ∈ remaining.bits) (search : SplitSearch)
    (start : search.maxNode ∈ remaining.bits) :
    (edges.foldl (SplitSearch.countEdge rand_uniform) search).maxNode ∈ remaining.bits := by
  induction edges generalizing search with
  | nil => exact start
  | cons j rest ih =>
      refine ih (fun k later => inside k (List.mem_cons_of_mem j later)) _ ?_
      rcases search.countEdge_maxNode rand_uniform j with same | taken
      · rw [same]
        exact start
      · rw [taken]
        exact inside j List.mem_cons_self

theorem pickSplitNode_mem (rand_uniform : Nat → Nat → Nat) (graph : QGraph) {remaining : BitSet}
    (filled : remaining.bits.Nonempty) :
    pickSplitNode rand_uniform graph remaining ∈ remaining.bits := by
  unfold pickSplitNode
  suffices general : ∀ (sources : List Nat) (search : SplitSearch),
      search.maxNode ∈ remaining.bits →
        (sources.foldl
          (fun search i =>
            ((successors graph i).intersection remaining).toList.foldl
              (SplitSearch.countEdge rand_uniform) search) search).maxNode ∈ remaining.bits from
    general _ _ (BitSet.max_mem filled)
  intro sources
  induction sources with
  | nil => exact fun _ start => start
  | cons i rest ih =>
      intro search start
      refine ih _ (SplitSearch.foldl_maxNode rand_uniform _ ?_ search start)
      intro j member
      exact (Finset.mem_inter.mp (BitSet.mem_toList.mp member)).2

namespace QuorumIntersectionCheckerImpl

variable (qic : QuorumIntersectionCheckerImpl)

def maxCommit : Nat :=
  qic.mMaxSCC.count / 2 + 1

/-- The enumerators of one search differ in what they have committed to and what remains, so these
tell which random draws an enumerator sees. -/
def anyMinQuorumHasDisjointQuorum (rand_uniform : BitSet → BitSet → Nat → Nat → Nat)
    (committed remaining : BitSet) : Bool :=
  if committed.count > qic.maxCommit then false
  else
    let committedQuorum := contractToMaximalQuorum qic.mGraph committed
    if committedQuorum.isEmpty = false then
      if isMinimalQuorum qic.mGraph committedQuorum then qic.hasDisjointQuorum committedQuorum
      else false
    else
      let extensionQuorum := contractToMaximalQuorum qic.mGraph (committed.union remaining)
      if extensionQuorum.isEmpty = false then
        if committed.isSubsetEq extensionQuorum then
          if _exhausted : remaining.isEmpty then false
          else
            let split := pickSplitNode (rand_uniform committed remaining) qic.mGraph remaining
            if anyMinQuorumHasDisjointQuorum rand_uniform committed (remaining.unset split) then
              true
            else
              anyMinQuorumHasDisjointQuorum rand_uniform (committed.set split)
                (remaining.unset split)
        else false
      else false
termination_by remaining.count
decreasing_by
  all_goals
    have filled := BitSet.isEmpty_eq_false.mp (Bool.eq_false_of_not_eq_true _exhausted)
    exact Finset.card_erase_lt_of_mem (pickSplitNode_mem _ _ filled)

def foundDisjoint : Bool :=
  qic.mSCCs.any fun scc =>
    !scc.isEqual qic.mMaxSCC && !(contractToMaximalQuorum qic.mGraph scc).isEmpty

/-- Where the largest component holds no quorum the answer does not depend on what was found in the
others. -/
def networkEnjoysQuorumIntersection (rand_uniform : BitSet → BitSet → Nat → Nat → Nat) : Bool :=
  if (contractToMaximalQuorum qic.mGraph qic.mMaxSCC).isEmpty then true
  else if qic.foundDisjoint then false
  else !qic.anyMinQuorumHasDisjointQuorum rand_uniform .empty qic.mMaxSCC

end QuorumIntersectionCheckerImpl

end ViiCore.QuorumIntersection
