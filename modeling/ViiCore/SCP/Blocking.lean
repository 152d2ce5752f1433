import ViiCore.SCP.QuorumSetShape

/-!
Quorum slices and v-blocking sets of sane quorum sets.

Both tests of `LocalNode.cpp` count entries down from a start and stop early; they decide whether
enough entries are hit. A set of nodes blocks a quorum set exactly when the nodes outside it hold
no slice.
-/

namespace ViiCore.SCP

variable {NodeID : Type} [DecidableEq NodeID]

/-! ### The countdowns count -/

theorem sliceCountdown_iff {left : Nat} (positive : 1 ≤ left) (fits : left ≤ UINT32_MAX)
    (hits : List Bool) : sliceCountdown left hits = true ↔ left ≤ hits.count true := by
  induction hits generalizing left with
  | nil =>
      simp only [sliceCountdown, List.count_nil, Bool.false_eq_true, false_iff]
      omega
  | cons head rest ih =>
      cases head with
      | false =>
          rw [sliceCountdown, ih positive fits]
          simp
      | true =>
          obtain ⟨before, rfl⟩ : ∃ before, left = before + 1 := ⟨left - 1, by omega⟩
          rw [sliceCountdown, decrement32_succ before (by omega), List.count_cons_self]
          split
          · simp only [true_iff]
            omega
          · rw [ih (by omega) (by omega)]
            omega

theorem blockCountdown_iff (left : Int) (hits : List Bool) :
    blockCountdown left hits = true ↔ 0 < hits.count true ∧ left ≤ hits.count true := by
  induction hits generalizing left with
  | nil => simp [blockCountdown]
  | cons head rest ih =>
      cases head with
      | false =>
          rw [blockCountdown, ih]
          simp
      | true =>
          rw [blockCountdown, List.count_cons_self]
          split
          · simp only [true_iff]
            omega
          · rw [ih]
            omega

theorem sliceCountdown_count (left : Nat) (hits : List Bool) :
    sliceCountdown left hits = sliceCountdown left (List.replicate (hits.count true) true) := by
  induction hits generalizing left with
  | nil => rfl
  | cons head rest ih =>
      cases head with
      | false =>
          rw [sliceCountdown, ih]
          simp
      | true =>
          rw [List.count_cons_self, List.replicate_succ, sliceCountdown, sliceCountdown, ih]

theorem isQuorumSliceInner_eq (nodes : List NodeID) (innerSets : List (SCPQuorumSet NodeID)) :
    isQuorumSliceInner nodes innerSets = innerSets.map (isQuorumSlice nodes) := by
  induction innerSets with
  | nil => rfl
  | cons head tail ih => rw [isQuorumSliceInner, ih, List.map_cons]

theorem isVBlockingInner_eq (nodes : List NodeID) (innerSets : List (SCPQuorumSet NodeID)) :
    isVBlockingInner nodes innerSets = innerSets.map (isVBlocking nodes) := by
  induction innerSets with
  | nil => rfl
  | cons head tail ih => rw [isVBlockingInner, ih, List.map_cons]

theorem count_map_true {α : Type} (test : α → Bool) (items : List α) :
    (items.map test).count true = items.countP test := by
  rw [List.count, List.countP_map]
  apply List.countP_congr
  intro item _
  simp

section Counts

variable {threshold : Nat} {validators : List NodeID} {innerSets : List (SCPQuorumSet NodeID)}

/-- How many entries of a quorum set pass, from a test of validators and one of inner sets. -/
def passing (validators : List NodeID) (innerSets : List (SCPQuorumSet NodeID))
    (nodeTest : NodeID → Bool) (setTest : SCPQuorumSet NodeID → Bool) : Nat :=
  validators.countP nodeTest + innerSets.countP setTest

section

omit [DecidableEq NodeID]

theorem passing_not (nodeTest : NodeID → Bool) (setTest : SCPQuorumSet NodeID → Bool) :
    passing validators innerSets nodeTest setTest +
        passing validators innerSets (fun node => !nodeTest node) (fun set => !setTest set) =
      validators.length + innerSets.length := by
  have nodes : validators.length =
      validators.countP nodeTest + validators.countP fun node => !nodeTest node := by
    simpa using validators.length_eq_countP_add_countP nodeTest
  have sets : innerSets.length =
      innerSets.countP setTest + innerSets.countP fun set => !setTest set := by
    simpa using innerSets.length_eq_countP_add_countP setTest
  simp only [passing]
  omega

theorem passing_congr {nodeTest nodeTest' : NodeID → Bool}
    {setTest setTest' : SCPQuorumSet NodeID → Bool}
    (nodes : ∀ node ∈ validators, nodeTest node = nodeTest' node)
    (sets : ∀ inner ∈ innerSets, setTest inner = setTest' inner) :
    passing validators innerSets nodeTest setTest =
      passing validators innerSets nodeTest' setTest' := by
  unfold passing
  congr 1
  · apply List.countP_congr
    intro node member
    rw [nodes node member]
  · apply List.countP_congr
    intro inner member
    rw [sets inner member]

theorem passing_eq_zero {nodeTest : NodeID → Bool} {setTest : SCPQuorumSet NodeID → Bool}
    (nodes : ∀ node ∈ validators, nodeTest node = false)
    (sets : ∀ inner ∈ innerSets, setTest inner = false) :
    passing validators innerSets nodeTest setTest = 0 := by
  unfold passing
  rw [Nat.add_eq_zero_iff, List.countP_eq_zero, List.countP_eq_zero]
  constructor
  · intro node member
    simp [nodes node member]
  · intro inner member
    simp [sets inner member]

end

theorem isQuorumSlice_iff_passing (sane : Sane (.mk threshold validators innerSets))
    (nodes : List NodeID) :
    isQuorumSlice nodes (.mk threshold validators innerSets) = true ↔
      threshold ≤ passing validators innerSets (fun node => node ∈ nodes) (isQuorumSlice nodes) := by
  have entries := sane.meetable.entries_le
  obtain ⟨⟨positive, reachable, -⟩, -, few⟩ := sane
  simp only [SCPQuorumSet.validators, SCPQuorumSet.innerSets] at entries
  rw [isQuorumSlice, isQuorumSliceInner_eq, sliceCountdown_iff positive, List.count_append,
    count_map_true, count_map_true]
  · rfl
  · simp only [UINT32_MAX]
    omega

theorem isQuorumSlice_eq_countdown (threshold : Nat) (validators : List NodeID)
    (innerSets : List (SCPQuorumSet NodeID)) (nodes : List NodeID) :
    isQuorumSlice nodes (.mk threshold validators innerSets) =
      sliceCountdown threshold (List.replicate (passing validators innerSets
        (fun node => node ∈ nodes) (isQuorumSlice nodes)) true) := by
  rw [isQuorumSlice, isQuorumSliceInner_eq, sliceCountdown_count, List.count_append,
    count_map_true, count_map_true]
  rfl

theorem isVBlocking_iff (threshold : Nat) (validators : List NodeID)
    (innerSets : List (SCPQuorumSet NodeID)) (nodes : List NodeID) :
    isVBlocking nodes (.mk threshold validators innerSets) = true ↔ threshold ≠ 0 ∧
      0 < passing validators innerSets (fun node => node ∈ nodes) (isVBlocking nodes) ∧
        ((1 + validators.length + innerSets.length : Int) - threshold).bmod (UINT32_MAX + 1) ≤
          passing validators innerSets (fun node => node ∈ nodes) (isVBlocking nodes) := by
  rw [isVBlocking]
  split
  · rename_i zero
    simp [zero]
  · rename_i nonzero
    rw [isVBlockingInner_eq, blockCountdown_iff, List.count_append, count_map_true,
      count_map_true]
    simp [passing, nonzero]

theorem isVBlocking_iff_passing (sane : Sane (.mk threshold validators innerSets))
    (nodes : List NodeID) :
    isVBlocking nodes (.mk threshold validators innerSets) = true ↔
      validators.length + innerSets.length <
        threshold + passing validators innerSets (fun node => node ∈ nodes) (isVBlocking nodes) := by
  have entries := sane.meetable.entries_le
  obtain ⟨⟨positive, reachable, -⟩, -, few⟩ := sane
  simp only [SCPQuorumSet.validators, SCPQuorumSet.innerSets] at entries
  have small : ((1 + validators.length + innerSets.length : Int) - threshold).bmod (UINT32_MAX + 1) =
      1 + validators.length + innerSets.length - threshold := by
    apply Int.bmod_eq_of_le
    · simp only [UINT32_MAX]
      omega
    · simp only [UINT32_MAX]
      omega
  rw [isVBlocking_iff, small]
  omega

end Counts

theorem isVBlocking_mono {small large : List NodeID} (subset : small ⊆ large)
    (qSet : SCPQuorumSet NodeID) (blocks : isVBlocking small qSet = true) :
    isVBlocking large qSet = true := by
  induction qSet with
  | mk threshold validators innerSets ih =>
      rw [isVBlocking_iff] at blocks ⊢
      have nodeHits : validators.countP (fun node => node ∈ small) ≤
          validators.countP fun node => node ∈ large := by
        apply List.countP_mono_left
        intro node _ present
        exact decide_eq_true (subset (of_decide_eq_true present))
      have setHits : innerSets.countP (isVBlocking small) ≤ innerSets.countP (isVBlocking large) :=
        List.countP_mono_left ih
      unfold passing at blocks ⊢
      omega

theorem isVBlocking_congr {qSet : SCPQuorumSet NodeID} {nodes others : List NodeID}
    (same : ∀ node ∈ allNodes qSet, node ∈ nodes ↔ node ∈ others) :
    isVBlocking nodes qSet = isVBlocking others qSet := by
  induction qSet with
  | mk threshold validators innerSets ih =>
      rw [Bool.eq_iff_iff, isVBlocking_iff, isVBlocking_iff,
        passing_congr (fun node member => ?_) fun set member => ?_]
      · rw [decide_eq_decide]
        apply same
        rw [allNodes_mk]
        exact List.mem_append_left _ member
      · exact ih set member fun node inside => same node (mem_allNodes_inner member inside)

theorem isQuorumSlice_congr {qSet : SCPQuorumSet NodeID} {nodes others : List NodeID}
    (same : ∀ node ∈ allNodes qSet, node ∈ nodes ↔ node ∈ others) :
    isQuorumSlice nodes qSet = isQuorumSlice others qSet := by
  induction qSet with
  | mk threshold validators innerSets ih =>
      rw [isQuorumSlice_eq_countdown, isQuorumSlice_eq_countdown,
        passing_congr (fun node member => ?_) fun set member => ?_]
      · rw [decide_eq_decide]
        apply same
        rw [allNodes_mk]
        exact List.mem_append_left _ member
      · exact ih set member fun node inside => same node (mem_allNodes_inner member inside)

theorem isVBlocking_nil (qSet : SCPQuorumSet NodeID) : isVBlocking [] qSet = false := by
  induction qSet with
  | mk threshold validators innerSets ih =>
      have none : passing validators innerSets (fun node => node ∈ []) (isVBlocking []) = 0 :=
        passing_eq_zero (fun _ _ => rfl) ih
      rw [Bool.eq_false_iff, ne_eq, isVBlocking_iff, none]
      omega

theorem isQuorumSlice_nil (qSet : SCPQuorumSet NodeID) : isQuorumSlice [] qSet = false := by
  induction qSet with
  | mk threshold validators innerSets ih =>
      have none : passing validators innerSets (fun node => node ∈ []) (isQuorumSlice []) = 0 :=
        passing_eq_zero (fun _ _ => rfl) ih
      rw [isQuorumSlice_eq_countdown, none]
      rfl

theorem isVBlocking_eq_not {qSet : SCPQuorumSet NodeID} (sane : Sane qSet)
    {nodes others : List NodeID} (split : ∀ node ∈ allNodes qSet, node ∈ others ↔ node ∉ nodes) :
    isVBlocking nodes qSet = !isQuorumSlice others qSet := by
  induction qSet with
  | mk threshold validators innerSets ih =>
      have nodeHits : ∀ node ∈ validators, decide (node ∈ others) = !decide (node ∈ nodes) := by
        intro node member
        have inside := split node (by rw [allNodes_mk]; exact List.mem_append_left _ member)
        simp [inside]
      have setHits : ∀ inner ∈ innerSets,
          isQuorumSlice others inner = !isVBlocking nodes inner := by
        intro inner member
        rw [ih inner member (sane.inner member)
          fun node inside => split node (mem_allNodes_inner member inside), Bool.not_not]
      rw [Bool.eq_iff_iff, isVBlocking_iff_passing sane, Bool.not_eq_true',
        Bool.eq_false_iff, ne_eq, isQuorumSlice_iff_passing sane, passing_congr nodeHits setHits]
      have total : passing validators innerSets (fun node => node ∈ nodes) (isVBlocking nodes) +
          _ = _ := passing_not _ _
      omega

/-- A set of nodes blocks a sane quorum set exactly when the other nodes of the quorum set hold no
slice of it. -/
theorem isVBlocking_iff_no_slice (qSet : SCPQuorumSet NodeID) (extraChecks : Bool)
    (sane : isQuorumSetSane qSet extraChecks = true) (nodes : List NodeID) :
    isVBlocking nodes qSet = true ↔
      isQuorumSlice ((allNodes qSet).filter fun node => node ∉ nodes) qSet = false := by
  have dual : isVBlocking nodes qSet =
      !isQuorumSlice ((allNodes qSet).filter fun node => node ∉ nodes) qSet := by
    apply isVBlocking_eq_not (sane_of_isQuorumSetSane sane)
    intro node inside
    simp [inside]
  rw [dual, Bool.not_eq_true']

/-- Two of three organisations of three nodes each; the nodes 1 and 2 block the first and 4 and 5
the second. -/
theorem isVBlocking_iff_no_slice_nested :
    isVBlocking [1, 2, 4, 5] (.mk 2 [] [.mk 2 [1, 2, 3] [], .mk 2 [4, 5, 6] [], .mk 2 [7, 8, 9] []])
        = true ∧
      isQuorumSlice [3, 6, 7, 8, 9]
        (.mk 2 [] [.mk 2 [1, 2, 3] [], .mk 2 [4, 5, 6] [], .mk 2 [7, 8, 9] []]) = false := by
  have blocks : isVBlocking [1, 2, 4, 5]
      (.mk 2 [] [.mk 2 [1, 2, 3] [], .mk 2 [4, 5, 6] [], .mk 2 [7, 8, 9] []]) = true := by decide
  exact ⟨blocks, (isVBlocking_iff_no_slice _ false (by decide) [1, 2, 4, 5]).mp blocks⟩

end ViiCore.SCP
