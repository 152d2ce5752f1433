import ViiCore.Main.GeneratedNesting

/-!
Any two slices of a generated quorum set have a node in common, as long as the number of validators
is a 32-bit number.
-/

namespace ViiCore.Config

open SCP ValidatorQuality

variable {NodeID : Type}

section Intersection

variable [LinearOrder NodeID]

/-- Two slices of a generated quorum set have a node in common. -/
theorem generateQuorumSet_intersects (validators todo : List (ValidatorEntry NodeID))
    (qSet : SCPQuorumSet NodeID) (nonempty : validators ≠ []) (fits : validators.length < 2 ^ 32)
    (sorts : SortsTo validators todo) (generated : generateQuorumSet todo = .ok qSet)
    (first second : List NodeID) (one : isQuorumSlice first qSet = true)
    (two : isQuorumSlice second qSet = true) : ∃ node, node ∈ first ∧ node ∈ second := by
  obtain ⟨res, levels, rfl⟩ := generateQuorumSet_levels sorts generated
  have same := sorts.perm.length_eq
  have also : todo ≠ [] := by
    rintro rfl
    exact nonempty sorts.perm.symm.eq_nil
  obtain ⟨majority, fitsRes⟩ := levels.majority also (by omega)
  exact normalizeQSet_intersects majority fitsRes one two

end Intersection

def lowValidators (count : Nat) : List (ValidatorEntry Nat) :=
  (List.range count).map fun key => ⟨"validator", "domain", VALIDATOR_LOW_QUALITY, key⟩

theorem lowValidators_sortsTo (count : Nat) :
    SortsTo (lowValidators count) (lowValidators count) where
  perm := List.Perm.refl _
  sorted := by
    apply List.pairwise_of_forall_mem_list
    intro l inL r inR
    obtain ⟨key, -, rfl⟩ := List.mem_map.mp inL
    obtain ⟨other, -, rfl⟩ := List.mem_map.mp inR
    simp only [sortsBefore, gt_iff_lt, lt_irrefl, if_false, decide_false]

theorem sameDomain_all {it : ValidatorEntry NodeID} {entries : List (ValidatorEntry NodeID)}
    (alike : ∀ entry ∈ entries,
      entry.mHomeDomain = it.mHomeDomain ∧ entry.mQuality = it.mQuality) :
    sameDomain it entries = .ok (entries.map (·.mKey), []) := by
  induction entries with
  | nil => rfl
  | cons head tail ih =>
      obtain ⟨domain, quality⟩ := alike head List.mem_cons_self
      rw [sameDomain, if_pos domain, if_neg (not_not.mpr quality),
        ih fun entry member => alike entry (List.mem_cons_of_mem head member)]
      rfl

theorem domainSets_one {it : ValidatorEntry NodeID} {entries : List (ValidatorEntry NodeID)}
    (low : it.mQuality = VALIDATOR_LOW_QUALITY)
    (alike : ∀ entry ∈ entries,
      entry.mHomeDomain = it.mHomeDomain ∧ entry.mQuality = it.mQuality) :
    domainSets VALIDATOR_LOW_QUALITY (it :: entries) = .ok ([leafSet (it :: entries)], []) := by
  have collected := sameDomain_all alike
  have few : ¬ ((it.mKey :: entries.map (·.mKey)).length < 3 ∧
      it.mQuality = VALIDATOR_HIGH_QUALITY) := by
    rw [low]
    exact fun both => nomatch both.2
  exact domainSets_cons low collected few (by rw [domainSets])

theorem generateQuorumSet_lowValidators (count : Nat) (positive : 1 ≤ count) :
    generateQuorumSet (lowValidators count) = .ok (normalizeQSet
      (.mk 1 [] [.mk 1 [] [leafSet (lowValidators count)]]) none) := by
  obtain ⟨it, rest, split⟩ : ∃ it rest, lowValidators count = it :: rest := by
    apply List.exists_cons_of_ne_nil
    apply List.ne_nil_of_length_pos
    rw [lowValidators, List.length_map, List.length_range]
    exact positive
  have low : ∀ entry ∈ it :: rest,
      entry.mHomeDomain = "domain" ∧ entry.mQuality = VALIDATOR_LOW_QUALITY := by
    intro entry member
    rw [← split] at member
    obtain ⟨key, -, rfl⟩ := List.mem_map.mp member
    exact ⟨rfl, rfl⟩
  have first := low it List.mem_cons_self
  have found : domainSets VALIDATOR_LOW_QUALITY (it :: rest) = .ok ([leafSet (it :: rest)], []) :=
    domainSets_one first.2 fun entry member => by
      have same := low entry (List.mem_cons_of_mem it member)
      rw [first.1, first.2]
      exact same
  have noneHigh : domainSets VALIDATOR_HIGH_QUALITY (it :: rest) = .ok ([], it :: rest) :=
    domainSets_other (by rw [first.2]; decide)
  have lower : generateQuorumSetHelper (it :: rest) it.mQuality =
      .ok (.mk 1 [] [leafSet (it :: rest)]) := by
    rw [first.2, generateQuorumSetHelper_last found, computeDefaultThreshold_one (by rfl)]
  have upper : generateQuorumSetHelper (it :: rest) VALIDATOR_HIGH_QUALITY =
      .ok (.mk 1 [] [.mk 1 [] [leafSet (it :: rest)]]) := by
    rw [generateQuorumSetHelper_lower noneHigh (by rw [first.2]; decide) lower,
      computeDefaultThreshold_one (by rfl), List.nil_append]
  rw [split, generateQuorumSet, upper]
  rfl

theorem isQuorumSlice_lowValidators {count : Nat} (wraps : count % 2 ^ 32 = 1) {key : Nat}
    (member : key < count) : isQuorumSlice [key] (normalizeQSet
      (.mk 1 [] [.mk 1 [] [leafSet (lowValidators count)]]) none) = true := by
  have keys : (lowValidators count).map (·.mKey) = List.range count := by
    rw [lowValidators, List.map_map]
    exact List.map_id _
  have threshold : computeDefaultThreshold (.mk 0 (List.range count) []) true = 1 := by
    apply computeDefaultThreshold_one
    change ((List.range count).length + 0) % 2 ^ 32 = 1
    rw [List.length_range]
    exact wraps
  have leaf : leafSet (lowValidators count) = .mk 1 (List.range count) [] := by
    rw [leafSet, keys, threshold]
  have fits : Fits (.mk 1 [] [.mk 1 [] [.mk 1 (List.range count) []]]) := by
    refine .mk (by decide) fun outer inside => ?_
    obtain rfl := List.mem_singleton.mp inside
    refine .mk (by decide) fun inner inside => ?_
    obtain rfl := List.mem_singleton.mp inside
    exact .mk (by decide) fun _ absent => absurd absent List.not_mem_nil
  rw [leaf, normalizeQSet, isQuorumSlice_reorder, isQuorumSlice_simplify_fits _ fits,
    isQuorumSlice_lone, isQuorumSlice_lone, isQuorumSlice_eq_countdown,
    sliceCountdown_iff (Nat.le_refl 1) (by decide), List.count_replicate_self]
  unfold passing
  have one : 0 < (List.range count).countP fun node => node ∈ [key] :=
    List.countP_pos_iff.mpr ⟨key, List.mem_range.mpr member,
      decide_eq_true (List.mem_singleton.mpr rfl)⟩
  omega

theorem isQuorumSlice_seven {nodes : List Nat}
    (slice : isQuorumSlice nodes (.mk 2 [] [.mk 2 [0, 1, 2] [],
      .mk 2 [] [.mk 1 [3] [], .mk 2 [] [.mk 2 [4, 5] [], .mk 1 [6] []]]]) = true) :
    isQuorumSlice nodes (normalizeQSet (.mk 2 [] [.mk 2 [0, 1, 2] [],
      .mk 2 [] [.mk 1 [3] [], .mk 2 [] [.mk 2 [4, 5] [], .mk 1 [6] []]]]) none) = true := by
  have pair {one two : SCPQuorumSet Nat} (first : Fits one) (second : Fits two) :
      ∀ inner ∈ [one, two], Fits inner := by
    simp [first, second]
  have leaf {threshold : Nat} (validators : List Nat) (small : threshold < 2 ^ 32) :
      Fits (.mk threshold validators []) := .mk small fun _ absent => absurd absent List.not_mem_nil
  have low : Fits (.mk 2 [] [.mk 2 [4, 5] [], .mk 1 [6] []]) :=
    .mk (by decide) (pair (leaf _ (by decide)) (leaf _ (by decide)))
  have med : Fits (.mk 2 [] [.mk 1 [3] [], .mk 2 [] [.mk 2 [4, 5] [], .mk 1 [6] []]]) :=
    .mk (by decide) (pair (leaf _ (by decide)) low)
  rw [normalizeQSet, isQuorumSlice_reorder, isQuorumSlice_simplify_fits]
  · exact slice
  · exact .mk (by decide) (pair (leaf _ (by decide)) med)

/-- Two of the three best validators are enough beside the others. -/
theorem generateQuorumSet_intersects_seven :
    ∃ qSet, generateQuorumSet sevenValidators = .ok qSet ∧
      isQuorumSlice [0, 1, 3, 4, 5, 6] qSet = true ∧ isQuorumSlice [1, 2, 3, 4, 5, 6] qSet = true ∧
      ∃ node, node ∈ [0, 1, 3, 4, 5, 6] ∧ node ∈ [1, 2, 3, 4, 5, 6] := by
  have one := @isQuorumSlice_seven [0, 1, 3, 4, 5, 6] (by decide)
  have two := @isQuorumSlice_seven [1, 2, 3, 4, 5, 6] (by decide)
  exact ⟨_, generateQuorumSet_seven, one, two,
    generateQuorumSet_intersects sevenValidators sevenValidators _ (List.cons_ne_nil _ _) (by decide)
      sevenValidators_sortsTo generateQuorumSet_seven _ _ one two⟩

/-- The size of 2^32 + 1 validators is cast to 1: each of them is a slice. -/
theorem generateQuorumSet_apart :
    ∃ qSet, SortsTo (lowValidators (2 ^ 32 + 1)) (lowValidators (2 ^ 32 + 1)) ∧
      generateQuorumSet (lowValidators (2 ^ 32 + 1)) = .ok qSet ∧
      isQuorumSlice [0] qSet = true ∧ isQuorumSlice [1] qSet = true ∧
      ¬ ∃ node, node ∈ [0] ∧ node ∈ [1] := by
  refine ⟨_, lowValidators_sortsTo _, generateQuorumSet_lowValidators _ (Nat.le_add_left 1 _), ?_,
    ?_, by decide⟩
  · exact @isQuorumSlice_lowValidators (2 ^ 32 + 1) (by decide) 0 (by decide)
  · exact @isQuorumSlice_lowValidators (2 ^ 32 + 1) (by decide) 1 (by decide)

end ViiCore.Config
