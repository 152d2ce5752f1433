import Mathlib.Algebra.Group.Nat.Defs
import Mathlib.Data.List.Sort
import ViiCore.Library.Pruning
import ViiCore.SCP.QuorumSet

/-!
The tests of `LocalNode.cpp` on the latest statements of the nodes, the search for the v-blocking
set that is closest to being missing, and what the loop of `isQuorum` decides: whether some nodes
that pass the filter satisfy, all together, the quorum set of each of them and the one asked about.
-/

namespace ViiCore.SCP.LocalNode

open ViiCore.Pruning

variable {NodeID Statement : Type} [DecidableEq NodeID]

def filterNodes (map : AList fun _ : NodeID => Statement) (filter : Statement → Bool) :
    List NodeID :=
  (map.entries.filter fun entry => filter entry.2).map fun entry => entry.1

def quorumFilter (map : AList fun _ : NodeID => Statement)
    (qfun : Statement → Option (SCPQuorumSet NodeID)) (pNodes : List NodeID) (nodeID : NodeID) :
    Bool :=
  match (map.lookup nodeID).bind qfun with
  | some qSet => isQuorumSlice pNodes qSet
  | none => false

/-- A round that goes on drops a node, so one round more than there are nodes is enough. -/
def isQuorum (qSet : SCPQuorumSet NodeID) (map : AList fun _ : NodeID => Statement)
    (qfun : Statement → Option (SCPQuorumSet NodeID)) (filter : Statement → Bool) : Bool :=
  let pNodes := filterNodes map filter
  isQuorumSlice (loop (quorumFilter map qfun) (pNodes.length + 1) pNodes) qSet

/-! ### The closest v-blocking set -/

/-- `leftTillBlock--` on a `size_t`. -/
def decrement64 (left : Nat) : Nat :=
  (left + (2 ^ 64 - 1)) % 2 ^ 64

/-- The countdown of `findClosestVBlocking` over entries that are blocked already: what is left to
block, or nothing where the function returns an empty list early. -/
def tillBlock : Nat → List Bool → Option Nat
  | left, [] => some left
  | left, false :: rest => tillBlock left rest
  | left, true :: rest =>
      if decrement64 left = 0 then none else tillBlock (decrement64 left) rest

/-- The end of `findClosestVBlocking`: as many validators as are needed, and then the shortest
lists for inner sets. The multiset keeps lists of one size in the order in which they came. -/
def cheapest (left : Nat) (res : List NodeID) (found : List (List NodeID)) : List NodeID :=
  let resInternals := (found.filter fun v => v.length ≠ 0).insertionSort
    fun v1 v2 => v1.length ≤ v2.length
  let res := res.take left
  res ++ (resInternals.take (left - res.length)).flatten

mutual
def findClosestVBlocking (nodes : List NodeID) (excluded : Option NodeID) :
    SCPQuorumSet NodeID → List NodeID
  | .mk threshold validators innerSets =>
      let leftTillBlock := (1 + validators.length + innerSets.length + (2 ^ 64 - threshold)) % 2 ^ 64
      let considered := validators.filter fun validator => excluded ≠ some validator
      match tillBlock leftTillBlock (considered.map fun validator => decide (validator ∉ nodes)) with
      | none => []
      | some left =>
          let res := considered.filter fun validator => validator ∈ nodes
          let found := findClosestVBlockingInner nodes excluded innerSets
          match tillBlock left (found.map fun v => decide (v.length = 0)) with
          | none => []
          | some left => cheapest left res found

def findClosestVBlockingInner (nodes : List NodeID) (excluded : Option NodeID) :
    List (SCPQuorumSet NodeID) → List (List NodeID)
  | [] => []
  | inner :: rest =>
      findClosestVBlocking nodes excluded inner :: findClosestVBlockingInner nodes excluded rest
end

/-! ### What the quorum test decides -/

variable {map : AList fun _ : NodeID => Statement}
  {qfun : Statement → Option (SCPQuorumSet NodeID)} {filter : Statement → Bool}

theorem mem_filterNodes {nodeID : NodeID} :
    nodeID ∈ filterNodes map filter ↔ ∃ st, map.lookup nodeID = some st ∧ filter st = true := by
  constructor
  · intro member
    obtain ⟨entry, present, rfl⟩ := List.mem_map.mp member
    obtain ⟨inMap, passes⟩ := List.mem_filter.mp present
    exact ⟨entry.2, AList.mem_lookup_iff.mpr inMap, passes⟩
  · intro ⟨st, found, passes⟩
    have inMap : ⟨nodeID, st⟩ ∈ map.entries := AList.mem_lookup_iff.mp found
    exact List.mem_map.mpr ⟨⟨nodeID, st⟩, List.mem_filter.mpr ⟨inMap, passes⟩, rfl⟩

theorem quorumFilter_eq_true {pNodes : List NodeID} {nodeID : NodeID} :
    quorumFilter map qfun pNodes nodeID = true ↔
      ∃ st, map.lookup nodeID = some st ∧ ∃ own, qfun st = some own ∧
        isQuorumSlice pNodes own = true := by
  unfold quorumFilter
  cases found : map.lookup nodeID with
  | none => simp
  | some st =>
      cases resolved : qfun st with
      | none => simp [resolved]
      | some own => simp [resolved]

theorem quorumFilter_mono (small large : List NodeID) (nodeID : NodeID) (subset : small ⊆ large)
    (kept : quorumFilter map qfun small nodeID = true) :
    quorumFilter map qfun large nodeID = true := by
  obtain ⟨st, found, own, resolved, slice⟩ := quorumFilter_eq_true.mp kept
  exact quorumFilter_eq_true.mpr
    ⟨st, found, own, resolved, isQuorumSlice_mono subset own slice⟩

/-- Nodes of the map that pass the filter and satisfy the quorum set of each of them. -/
def Supported (map : AList fun _ : NodeID => Statement)
    (qfun : Statement → Option (SCPQuorumSet NodeID)) (filter : Statement → Bool)
    (nodes : List NodeID) : Prop :=
  ∀ nodeID ∈ nodes, ∃ st, map.lookup nodeID = some st ∧ filter st = true ∧
    ∃ own, qfun st = some own ∧ isQuorumSlice nodes own = true

theorem loop_supported {fuel : Nat} (enough : (filterNodes map filter).length < fuel) :
    Supported map qfun filter (loop (quorumFilter map qfun) fuel (filterNodes map filter)) := by
  intro nodeID member
  have passed := (loop_sublist fuel _).subset member
  rw [← loop_stable enough] at member
  obtain ⟨_, kept⟩ := List.mem_filter.mp member
  obtain ⟨st, found, passes⟩ := mem_filterNodes.mp passed
  obtain ⟨same, again, own, resolved, slice⟩ := quorumFilter_eq_true.mp kept
  rw [found] at again
  cases again
  exact ⟨st, found, passes, own, resolved, slice⟩

theorem isQuorum_supported {qSet : SCPQuorumSet NodeID}
    (quorum : isQuorum qSet map qfun filter = true) :
    ∃ nodes, Supported map qfun filter nodes ∧ isQuorumSlice nodes qSet = true :=
  ⟨_, loop_supported (Nat.lt_succ_self _), quorum⟩

theorem isQuorum_of_supported {qSet : SCPQuorumSet NodeID} {nodes : List NodeID}
    (supported : Supported map qfun filter nodes) (slice : isQuorumSlice nodes qSet = true) :
    isQuorum qSet map qfun filter = true := by
  have passed : nodes ⊆ filterNodes map filter := by
    intro nodeID member
    obtain ⟨st, found, passes, -⟩ := supported nodeID member
    exact mem_filterNodes.mpr ⟨st, found, passes⟩
  have kept : ∀ nodeID ∈ nodes, quorumFilter map qfun nodes nodeID = true := by
    intro nodeID member
    obtain ⟨st, found, -, own, resolved, satisfied⟩ := supported nodeID member
    exact quorumFilter_eq_true.mpr ⟨st, found, own, resolved, satisfied⟩
  exact isQuorumSlice_mono (loop_greatest quorumFilter_mono kept _ passed) qSet slice

/-- The loop of `isQuorum` ends with a round that drops nothing, and its answer is whether there
are nodes that pass the filter and satisfy the quorum set of each of them and the one asked
about. -/
theorem isQuorum_iff (qSet : SCPQuorumSet NodeID) (map : AList fun _ : NodeID => Statement)
    (qfun : Statement → Option (SCPQuorumSet NodeID)) (filter : Statement → Bool) :
    (∃ rounds ≤ (filterNodes map filter).length,
      ((round (quorumFilter map qfun))^[rounds + 1] (filterNodes map filter)).length =
        ((round (quorumFilter map qfun))^[rounds] (filterNodes map filter)).length ∧
      isQuorum qSet map qfun filter =
        isQuorumSlice ((round (quorumFilter map qfun))^[rounds + 1] (filterNodes map filter))
          qSet) ∧
    (isQuorum qSet map qfun filter = true ↔ ∃ nodes : List NodeID,
      (∀ nodeID ∈ nodes, ∃ st, map.lookup nodeID = some st ∧ filter st = true ∧
        ∃ own, qfun st = some own ∧ isQuorumSlice nodes own = true) ∧
      isQuorumSlice nodes qSet = true) := by
  constructor
  · obtain ⟨rounds, few, drops, ends⟩ :=
      loop_ends (filterNodes map filter)
    refine ⟨rounds, few, drops, ?_⟩
    rw [← ends _ (Nat.lt_succ_of_le few)]
    rfl
  · constructor
    · exact isQuorum_supported
    · intro ⟨nodes, supported, slice⟩
      exact isQuorum_of_supported supported slice

end ViiCore.SCP.LocalNode
