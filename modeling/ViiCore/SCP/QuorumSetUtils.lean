import Mathlib.Algebra.Group.Nat.Defs
import Mathlib.Data.List.Sort
import ViiCore.SCP.QuorumSet

/-!
Normalisation of quorum sets (`QuorumSetUtils.cpp`) and the weight of a node in one
(`LocalNode.cpp`).
-/

namespace ViiCore.SCP

def UINT64_MAX : Nat := 2 ^ 64 - 1

variable {NodeID : Type} [LinearOrder NodeID]

/-! ### Normalisation -/

def soleValidator : SCPQuorumSet NodeID → Option NodeID
  | .mk 1 [validator] [] => some validator
  | _ => none

mutual
def normalizeQSetSimplify (idToRemove : Option NodeID) : SCPQuorumSet NodeID → SCPQuorumSet NodeID
  | .mk threshold validators innerSets =>
      let kept := validators.filter fun validator => some validator ≠ idToRemove
      let removed := validators.length - kept.length
      -- `threshold -= removed` on a `uint32`
      let threshold := (threshold + (UINT32_MAX + 1) - removed) % (UINT32_MAX + 1)
      let simplified := normalizeQSetSimplifyInner idToRemove innerSets
      let v := kept ++ simplified.filterMap soleValidator
      let i := simplified.filter fun inner => (soleValidator inner).isNone
      match threshold, v, i with
      | 1, [], [inner] => inner
      | threshold, v, i => .mk threshold v i

def normalizeQSetSimplifyInner (idToRemove : Option NodeID) :
    List (SCPQuorumSet NodeID) → List (SCPQuorumSet NodeID)
  | [] => []
  | inner :: rest =>
      normalizeQSetSimplify idToRemove inner :: normalizeQSetSimplifyInner idToRemove rest
end

def compareNodes (left right : NodeID) : Int :=
  if left < right then -1 else if right < left then 1 else 0

def intLexicographicalCompare {α : Type} (comp : α → α → Int) : List α → List α → Int
  | [], [] => 0
  | [], _ :: _ => -1
  | _ :: _, [] => 1
  | left :: lefts, right :: rights =>
      if comp left right ≠ 0 then comp left right else intLexicographicalCompare comp lefts rights

mutual
def qSetCompareInt : SCPQuorumSet NodeID → SCPQuorumSet NodeID → Int
  | .mk lthreshold lvals li, r =>
      let validators := intLexicographicalCompare compareNodes lvals r.validators
      if validators ≠ 0 then validators
      else
        let inner := qSetCompareIntInner li r.innerSets
        if inner ≠ 0 then inner
        else if lthreshold < r.threshold then -1
        else if lthreshold = r.threshold then 0
        else 1

/-- The lexicographical comparison by `qSetCompareInt`. -/
def qSetCompareIntInner : List (SCPQuorumSet NodeID) → List (SCPQuorumSet NodeID) → Int
  | [], [] => 0
  | [], _ :: _ => -1
  | _ :: _, [] => 1
  | left :: lefts, right :: rights =>
      if qSetCompareInt left right ≠ 0 then qSetCompareInt left right
      else qSetCompareIntInner lefts rights
end

mutual
/-- Inner sets that compare equal are equal, so the order of ties does not matter. -/
def normalizeQuorumSetReorder : SCPQuorumSet NodeID → SCPQuorumSet NodeID
  | .mk threshold validators innerSets =>
      .mk threshold (validators.mergeSort fun left right => left ≤ right)
        ((normalizeQuorumSetReorderInner innerSets).mergeSort fun left right =>
          0 ≤ qSetCompareInt right left)

def normalizeQuorumSetReorderInner : List (SCPQuorumSet NodeID) → List (SCPQuorumSet NodeID)
  | [] => []
  | inner :: rest => normalizeQuorumSetReorder inner :: normalizeQuorumSetReorderInner rest
end

def normalizeQSet (qSet : SCPQuorumSet NodeID) (idToRemove : Option NodeID) : SCPQuorumSet NodeID :=
  normalizeQuorumSetReorder (normalizeQSetSimplify idToRemove qSet)

/-! ### Weights -/

mutual
def allNodes : SCPQuorumSet NodeID → List NodeID
  | .mk _ validators innerSets => validators ++ allNodesInner innerSets

def allNodesInner : List (SCPQuorumSet NodeID) → List NodeID
  | [] => []
  | inner :: rest => allNodes inner ++ allNodesInner rest
end

/-- Rounded up; not defined where the assertion fails. -/
def computeWeight (m total threshold : Nat) : Option Nat :=
  if threshold ≤ total then some ((m * threshold + total - 1) / total) else none

theorem lawful_nodes : LawfulBEq NodeID := inferInstance

section

attribute [local instance] lawful_nodes

mutual
def getNodeWeight (nodeID : NodeID) : SCPQuorumSet NodeID → Option Nat
  | .mk threshold validators innerSets =>
      let d := innerSets.length + validators.length
      if nodeID ∈ validators then computeWeight UINT64_MAX d threshold
      else do
        let leafW ← getNodeWeightInner nodeID innerSets
        if leafW = 0 then return 0 else computeWeight leafW d threshold

def getNodeWeightInner (nodeID : NodeID) : List (SCPQuorumSet NodeID) → Option Nat
  | [] => some 0
  | inner :: rest => do
      let leafW ← getNodeWeight nodeID inner
      if leafW = 0 then getNodeWeightInner nodeID rest else return leafW
end

end

end ViiCore.SCP
