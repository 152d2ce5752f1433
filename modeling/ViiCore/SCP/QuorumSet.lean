import Mathlib.Data.List.AList
import Mathlib.Order.Lattice
import Mathlib.Tactic.Common

/-!
Quorum sets and the three tests federated voting is built on: quorum slices,
v-blocking sets and quorums (`LocalNode.cpp`), with the sanity check that guards
every received statement (`QuorumSetUtils.cpp`).

Node lists stand for the sorted node vectors of the source; every test below only
asks for membership.
-/

namespace ViiCore.SCP

def UINT32_MAX : Nat := 4294967295

inductive SCPQuorumSet (NodeID : Type) where
  | mk (threshold : Nat) (validators : List NodeID) (innerSets : List (SCPQuorumSet NodeID))

variable {NodeID : Type}

def SCPQuorumSet.threshold : SCPQuorumSet NodeID → Nat
  | .mk threshold _ _ => threshold

def SCPQuorumSet.validators : SCPQuorumSet NodeID → List NodeID
  | .mk _ validators _ => validators

def SCPQuorumSet.innerSets : SCPQuorumSet NodeID → List (SCPQuorumSet NodeID)
  | .mk _ _ innerSets => innerSets

def buildSingletonQSet (nodeID : NodeID) : SCPQuorumSet NodeID :=
  .mk 1 [nodeID] []

/-- `thresholdLeft--` on a `uint32`. -/
def decrement32 (left : Nat) : Nat :=
  (left + UINT32_MAX) % (UINT32_MAX + 1)

/-- The countdown of `isQuorumSliceInternal`: each hit decrements the threshold, and
the search succeeds at the hit that brings it to zero. -/
def sliceCountdown : Nat → List Bool → Bool
  | _, [] => false
  | left, false :: rest => sliceCountdown left rest
  | left, true :: rest =>
      if decrement32 left ≤ 0 then true else sliceCountdown (decrement32 left) rest

def blockCountdown : Int → List Bool → Bool
  | _, [] => false
  | left, false :: rest => blockCountdown left rest
  | left, true :: rest =>
      if left - 1 ≤ 0 then true else blockCountdown (left - 1) rest

section Membership

variable [DecidableEq NodeID]

mutual
def isQuorumSlice (nodeSet : List NodeID) : SCPQuorumSet NodeID → Bool
  | .mk threshold validators innerSets =>
      sliceCountdown threshold
        (validators.map (fun validator => decide (validator ∈ nodeSet)) ++
          isQuorumSliceInner nodeSet innerSets)

def isQuorumSliceInner (nodeSet : List NodeID) : List (SCPQuorumSet NodeID) → List Bool
  | [] => []
  | inner :: rest => isQuorumSlice nodeSet inner :: isQuorumSliceInner nodeSet rest
end

mutual
def isVBlocking (nodeSet : List NodeID) : SCPQuorumSet NodeID → Bool
  | .mk threshold validators innerSets =>
      if threshold = 0 then false else
        -- The difference of two `size_t` is cast to `int`.
        blockCountdown
          (((1 + validators.length + innerSets.length : Int) - threshold).bmod (UINT32_MAX + 1))
          (validators.map (fun validator => decide (validator ∈ nodeSet)) ++
            isVBlockingInner nodeSet innerSets)

def isVBlockingInner (nodeSet : List NodeID) : List (SCPQuorumSet NodeID) → List Bool
  | [] => []
  | inner :: rest => isVBlocking nodeSet inner :: isVBlockingInner nodeSet rest
end

/-! ### Sanity -/

structure SanityState (NodeID : Type) where
  knownNodes : List NodeID
  count : Nat

def insertKnownNodes (known : List NodeID) : List NodeID → Option (List NodeID)
  | [] => some known
  | node :: rest => if node ∈ known then none else insertKnownNodes (node :: known) rest

mutual
def checkSanity (extraChecks : Bool) :
    Nat → SanityState NodeID → SCPQuorumSet NodeID → Option (SanityState NodeID)
  | depth, state, .mk threshold validators innerSets =>
      if depth > 2 then none
      else if threshold < 1 then none
      else if threshold > validators.length + innerSets.length then none
      else if extraChecks ∧
          threshold < validators.length + innerSets.length - threshold + 1 then none
      else
        match insertKnownNodes state.knownNodes validators with
        | none => none
        | some known =>
            checkSanityInner extraChecks (depth + 1)
              { knownNodes := known, count := state.count + validators.length } innerSets

def checkSanityInner (extraChecks : Bool) :
    Nat → SanityState NodeID → List (SCPQuorumSet NodeID) → Option (SanityState NodeID)
  | _, state, [] => some state
  | depth, state, inner :: rest =>
      match checkSanity extraChecks depth state inner with
      | none => none
      | some next => checkSanityInner extraChecks depth next rest
end

def isQuorumSetSane (qSet : SCPQuorumSet NodeID) (extraChecks : Bool) : Bool :=
  match checkSanity extraChecks 0 { knownNodes := [], count := 0 } qSet with
  | none => false
  | some state => decide (1 ≤ state.count ∧ state.count ≤ 1000)

theorem buildSingletonQSet_sane (nodeID : NodeID) :
    isQuorumSetSane (buildSingletonQSet nodeID) false = true := by
  simp [isQuorumSetSane, buildSingletonQSet, checkSanity, checkSanityInner, insertKnownNodes]

/-! ### Quorum slices are monotone -/

theorem decrement32_succ (left : Nat) (bounded : left ≤ UINT32_MAX) :
    decrement32 (left + 1) = left := by
  unfold decrement32
  have shifted : left + 1 + UINT32_MAX = left + (UINT32_MAX + 1) := by omega
  rw [shifted, Nat.add_mod_right]
  exact Nat.mod_eq_of_lt (Nat.lt_succ_of_le bounded)

def HitsLe : List Bool → List Bool → Prop
  | [], [] => True
  | left :: lefts, right :: rights => (left = true → right = true) ∧ HitsLe lefts rights
  | _, _ => False

/-- A countdown that starts lower, on a list with more hits, still succeeds. The
wrapped value of a zero threshold is the largest start, so it is ordered by its
predecessor. -/
theorem sliceCountdown_mono (lower higher : Nat) (few many : List Bool)
    (starts : (lower + UINT32_MAX) % (UINT32_MAX + 1) ≤ (higher + UINT32_MAX) % (UINT32_MAX + 1))
    (hits : HitsLe few many) (found : sliceCountdown higher few = true) :
    sliceCountdown lower many = true := by
  induction few generalizing lower higher many with
  | nil => simp [sliceCountdown] at found
  | cons head tail ih =>
      cases many with
      | nil => exact hits.elim
      | cons other others =>
          obtain ⟨implies, rest⟩ := hits
          cases head with
          | false =>
              simp only [sliceCountdown] at found
              cases other with
              | false =>
                  simp only [sliceCountdown]
                  exact ih lower higher others starts rest found
              | true =>
                  simp only [sliceCountdown]
                  by_cases reached : decrement32 lower ≤ 0
                  · rw [if_pos reached]
                  · rw [if_neg reached]
                    refine ih (decrement32 lower) higher others ?_ rest found
                    unfold decrement32 at reached ⊢
                    simp only [UINT32_MAX] at starts reached ⊢
                    omega
          | true =>
              have present : other = true := implies rfl
              subst other
              simp only [sliceCountdown] at found ⊢
              by_cases reached : decrement32 lower ≤ 0
              · rw [if_pos reached]
              · rw [if_neg reached]
                have pending : ¬ decrement32 higher ≤ 0 := by
                  unfold decrement32 at reached ⊢
                  simp only [UINT32_MAX] at starts reached ⊢
                  omega
                rw [if_neg pending] at found
                refine ih (decrement32 lower) (decrement32 higher) others ?_ rest found
                unfold decrement32 at reached pending ⊢
                simp only [UINT32_MAX] at starts reached pending ⊢
                omega

theorem hitsLe_append {left right left' right' : List Bool}
    (first : HitsLe left right) (second : HitsLe left' right') :
    HitsLe (left ++ left') (right ++ right') := by
  induction left generalizing right with
  | nil =>
      cases right with
      | nil => exact second
      | cons head tail => exact first.elim
  | cons head tail ih =>
      cases right with
      | nil => exact first.elim
      | cons other others => exact ⟨first.1, ih first.2⟩

theorem hitsLe_validators {small large : List NodeID} (subset : small ⊆ large)
    (validators : List NodeID) :
    HitsLe (validators.map (fun validator => decide (validator ∈ small)))
      (validators.map (fun validator => decide (validator ∈ large))) := by
  induction validators with
  | nil => trivial
  | cons validator rest ih =>
      refine ⟨fun present => ?_, ih⟩
      exact decide_eq_true (subset (of_decide_eq_true present))

mutual
theorem isQuorumSlice_mono {small large : List NodeID} (subset : small ⊆ large) :
    (qSet : SCPQuorumSet NodeID) →
    isQuorumSlice small qSet = true → isQuorumSlice large qSet = true
  | .mk threshold validators innerSets, found => by
      simp only [isQuorumSlice] at found ⊢
      exact sliceCountdown_mono threshold threshold _ _ (Nat.le_refl _)
        (hitsLe_append (hitsLe_validators subset validators)
          (isQuorumSliceInner_mono subset innerSets)) found

theorem isQuorumSliceInner_mono {small large : List NodeID} (subset : small ⊆ large) :
    (innerSets : List (SCPQuorumSet NodeID)) →
    HitsLe (isQuorumSliceInner small innerSets) (isQuorumSliceInner large innerSets)
  | [] => trivial
  | inner :: rest =>
      ⟨isQuorumSlice_mono subset inner, isQuorumSliceInner_mono subset rest⟩
end

end Membership

end ViiCore.SCP
