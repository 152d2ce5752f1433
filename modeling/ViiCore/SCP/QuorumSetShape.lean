import Mathlib.Algebra.BigOperators.Group.List.Basic
import ViiCore.SCP.QuorumSetUtils

/-!
The shape of quorum sets: induction over the nesting, the tests of `LocalNode.cpp` as counts of
entries, and what the sanity check promises at every level.
-/

namespace ViiCore.SCP

variable {NodeID : Type}

/-! ### Induction over the nesting -/

namespace SCPQuorumSet

mutual
theorem induction_mk {motive : SCPQuorumSet NodeID → Prop}
    (mk : ∀ threshold validators innerSets, (∀ inner ∈ innerSets, motive inner) →
      motive (.mk threshold validators innerSets)) :
    (qSet : SCPQuorumSet NodeID) → motive qSet
  | .mk threshold validators innerSets =>
      mk threshold validators innerSets (induction_inner mk innerSets)

theorem induction_inner {motive : SCPQuorumSet NodeID → Prop}
    (mk : ∀ threshold validators innerSets, (∀ inner ∈ innerSets, motive inner) →
      motive (.mk threshold validators innerSets)) :
    (innerSets : List (SCPQuorumSet NodeID)) → ∀ inner ∈ innerSets, motive inner
  | [] => fun _ absent => nomatch absent
  | head :: tail => List.forall_mem_cons.mpr ⟨induction_mk mk head, induction_inner mk tail⟩
end

@[elab_as_elim, induction_eliminator]
theorem induction {motive : SCPQuorumSet NodeID → Prop}
    (mk : ∀ threshold validators innerSets, (∀ inner ∈ innerSets, motive inner) →
      motive (.mk threshold validators innerSets)) (qSet : SCPQuorumSet NodeID) : motive qSet :=
  induction_mk mk qSet

end SCPQuorumSet

theorem allNodesInner_eq (innerSets : List (SCPQuorumSet NodeID)) :
    allNodesInner innerSets = innerSets.flatMap allNodes := by
  induction innerSets with
  | nil => rfl
  | cons head tail ih => rw [allNodesInner, ih, List.flatMap_cons]

theorem allNodes_mk (threshold : Nat) (validators : List NodeID)
    (innerSets : List (SCPQuorumSet NodeID)) :
    allNodes (.mk threshold validators innerSets) = validators ++ innerSets.flatMap allNodes := by
  rw [allNodes, allNodesInner_eq]

theorem mem_allNodes_inner {threshold : Nat} {validators : List NodeID}
    {innerSets : List (SCPQuorumSet NodeID)} {inner : SCPQuorumSet NodeID}
    (member : inner ∈ innerSets) {node : NodeID} (inside : node ∈ allNodes inner) :
    node ∈ allNodes (.mk threshold validators innerSets) := by
  rw [allNodes_mk]
  exact List.mem_append_right _ (List.mem_flatMap.mpr ⟨inner, member, inside⟩)

/-! ### Sanity at every level -/

/-- A threshold that can be met and is not met by nothing, here and in all inner sets. -/
inductive Meetable : SCPQuorumSet NodeID → Prop
  | mk {threshold : Nat} {validators : List NodeID} {innerSets : List (SCPQuorumSet NodeID)}
      (positive : 1 ≤ threshold) (reachable : threshold ≤ validators.length + innerSets.length)
      (inner : ∀ inner ∈ innerSets, Meetable inner) :
      Meetable (.mk threshold validators innerSets)

theorem Meetable.entries_le {qSet : SCPQuorumSet NodeID} (meetable : Meetable qSet) :
    1 ≤ qSet.validators.length + qSet.innerSets.length ∧
      qSet.validators.length + qSet.innerSets.length ≤ (allNodes qSet).length := by
  induction qSet with
  | mk threshold validators innerSets ih =>
      obtain ⟨positive, reachable, inner⟩ := meetable
      simp only [SCPQuorumSet.validators, SCPQuorumSet.innerSets]
      refine ⟨by omega, ?_⟩
      rw [allNodes_mk, List.length_append, List.length_flatMap]
      have each : ∀ size ∈ innerSets.map fun inner => (allNodes inner).length, 1 ≤ size := by
        intro size member
        obtain ⟨set, present, rfl⟩ := List.mem_map.mp member
        have bounds := ih set present (inner set present)
        omega
      have many := List.length_le_sum_of_one_le _ each
      rw [List.length_map] at many
      omega

variable [DecidableEq NodeID]

theorem insertKnownNodes_some {known validators after : List NodeID}
    (inserted : insertKnownNodes known validators = some after) :
    after.Perm (validators ++ known) ∧ (known.Nodup → after.Nodup) := by
  induction validators generalizing known with
  | nil =>
      cases inserted
      exact ⟨List.Perm.refl _, id⟩
  | cons node rest ih =>
      rw [insertKnownNodes] at inserted
      split at inserted
      · cases inserted
      · rename_i fresh
        obtain ⟨perm, nodup⟩ := ih inserted
        refine ⟨perm.trans List.perm_middle, ?_⟩
        intro distinct
        exact nodup (List.nodup_cons.mpr ⟨fresh, distinct⟩)

structure Checked (before after : SanityState NodeID) (nodes : List NodeID) : Prop where
  known : after.knownNodes.Perm (nodes ++ before.knownNodes)
  distinct : before.knownNodes.Nodup → after.knownNodes.Nodup
  count : after.count = before.count + nodes.length

omit [DecidableEq NodeID] in
theorem Checked.trans {before middle after : SanityState NodeID} {first second : List NodeID}
    (early : Checked before middle first) (late : Checked middle after second) :
    Checked before after (first ++ second) where
  known := by
    refine late.known.trans ((early.known.append_left second).trans ?_)
    rw [← List.append_assoc]
    exact List.perm_append_comm.append_right _
  distinct nodup := late.distinct (early.distinct nodup)
  count := by
    rw [late.count, early.count, List.length_append]
    omega

theorem checkSanityInner_checked {extraChecks : Bool} {depth : Nat}
    {innerSets : List (SCPQuorumSet NodeID)}
    (each : ∀ inner ∈ innerSets, ∀ depth before after,
      checkSanity extraChecks depth before inner = some after →
        Checked before after (allNodes inner) ∧ Meetable inner)
    {before after : SanityState NodeID}
    (passed : checkSanityInner extraChecks depth before innerSets = some after) :
    Checked before after (innerSets.flatMap allNodes) ∧ ∀ inner ∈ innerSets, Meetable inner := by
  induction innerSets generalizing before with
  | nil =>
      rw [checkSanityInner] at passed
      cases passed
      refine ⟨⟨List.Perm.refl _, id, rfl⟩, ?_⟩
      intro inner absent
      cases absent
  | cons head tail ih =>
      rw [checkSanityInner] at passed
      split at passed
      · cases passed
      · rename_i middle first
        obtain ⟨headChecked, headMeetable⟩ := each head List.mem_cons_self _ _ _ first
        obtain ⟨tailChecked, tailMeetable⟩ :=
          ih (fun inner member => each inner (List.mem_cons_of_mem head member)) passed
        refine ⟨headChecked.trans tailChecked, ?_⟩
        intro inner member
        rcases List.mem_cons.mp member with rfl | later
        · exact headMeetable
        · exact tailMeetable inner later

theorem checkSanity_checked {extraChecks : Bool} (qSet : SCPQuorumSet NodeID) (depth : Nat)
    (before after : SanityState NodeID)
    (passed : checkSanity extraChecks depth before qSet = some after) :
    Checked before after (allNodes qSet) ∧ Meetable qSet := by
  induction qSet generalizing depth before after with
  | mk threshold validators innerSets ih =>
      rw [checkSanity] at passed
      split at passed
      · cases passed
      split at passed
      · cases passed
      rename_i positive
      split at passed
      · cases passed
      rename_i reachable
      split at passed
      · cases passed
      split at passed
      · cases passed
      rename_i known inserted
      obtain ⟨perm, nodup⟩ := insertKnownNodes_some inserted
      obtain ⟨checked, inner⟩ := checkSanityInner_checked ih passed
      have own : Checked before ⟨known, before.count + validators.length⟩ validators :=
        ⟨perm, nodup, rfl⟩
      rw [allNodes_mk]
      exact ⟨own.trans checked, .mk (by omega) (by omega) inner⟩

/-- What a sane quorum set is: thresholds that can be met at every level, no node twice, and no
more nodes than allowed. -/
structure Sane (qSet : SCPQuorumSet NodeID) : Prop where
  meetable : Meetable qSet
  distinct : (allNodes qSet).Nodup
  few : (allNodes qSet).length ≤ 1000

theorem sane_of_isQuorumSetSane {qSet : SCPQuorumSet NodeID} {extraChecks : Bool}
    (sane : isQuorumSetSane qSet extraChecks = true) : Sane qSet := by
  unfold isQuorumSetSane at sane
  split at sane
  · cases sane
  · rename_i state passed
    obtain ⟨checked, meetable⟩ := checkSanity_checked _ _ _ _ passed
    have known : state.knownNodes.Perm (allNodes qSet) := by simpa using checked.known
    have counted : state.count = (allNodes qSet).length := by simpa using checked.count
    have bounds := of_decide_eq_true sane
    exact ⟨meetable, known.nodup_iff.mp (checked.distinct List.nodup_nil), by omega⟩

omit [DecidableEq NodeID] in
theorem Sane.inner {threshold : Nat} {validators : List NodeID}
    {innerSets : List (SCPQuorumSet NodeID)}
    (sane : Sane (.mk threshold validators innerSets)) {inner : SCPQuorumSet NodeID}
    (member : inner ∈ innerSets) : Sane inner := by
  obtain ⟨⟨_, _, meetable⟩, distinct, few⟩ := sane
  rw [allNodes_mk] at distinct few
  have part : (allNodes inner).Sublist (validators ++ innerSets.flatMap allNodes) :=
    (List.sublist_flatten_of_mem (List.mem_map_of_mem member)).trans
      (List.sublist_append_right _ _)
  exact ⟨meetable inner member, distinct.sublist part, part.length_le.trans few⟩

end ViiCore.SCP
