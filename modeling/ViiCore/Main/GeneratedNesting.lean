import ViiCore.Main.GeneratedQuorumSet

/-!
How deep a generated quorum set is nested after it was simplified. With all three qualities the
home domains of low quality come three deep, one more than the sanity check allows, unless each of
them is one validator or there is only one of them.
-/

namespace ViiCore.Config

open SCP ValidatorQuality

variable {NodeID : Type}

/-- Validators of all qualities; of low quality two in one home domain, and one in another. -/
def TooDeep (validators : List (ValidatorEntry NodeID)) : Prop :=
  (∃ high ∈ validators, high.mQuality = VALIDATOR_HIGH_QUALITY) ∧
  (∃ med ∈ validators, med.mQuality = VALIDATOR_MED_QUALITY) ∧
  ∃ a ∈ validators, ∃ b ∈ validators, ∃ c ∈ validators,
    a.mQuality = VALIDATOR_LOW_QUALITY ∧ b.mQuality = VALIDATOR_LOW_QUALITY ∧
    c.mQuality = VALIDATOR_LOW_QUALITY ∧ a.mKey ≠ b.mKey ∧ a.mHomeDomain = b.mHomeDomain ∧
    c.mHomeDomain ≠ a.mHomeDomain

section Nesting

variable [LinearOrder NodeID] {groups : List (List (ValidatorEntry NodeID))}
  {lower : List (SCPQuorumSet NodeID)}

/-- Groups of validators that are not empty, few enough to be counted in 32 bits. -/
structure Counted (groups : List (List (ValidatorEntry NodeID)))
    (lower : List (SCPQuorumSet NodeID)) : Prop where
  few : groups.length + lower.length < 2 ^ 32
  nonempty : ∀ group ∈ groups, group ≠ []
  small : ∀ group ∈ groups, group.length < 2 ^ 32

def levelThreshold (groups : List (List (ValidatorEntry NodeID)))
    (lower : List (SCPQuorumSet NodeID)) : Nat :=
  computeDefaultThreshold (.mk 0 [] (groups.map leafSet ++ lower)) false

omit [LinearOrder NodeID] in
theorem levelSet_eq : levelSet groups lower =
    .mk (levelThreshold groups lower) [] (groups.map leafSet ++ lower) := rfl

omit [LinearOrder NodeID] in
theorem liftLone_flat (threshold : Nat) (v : List NodeID) :
    liftLone threshold v ([] : List (SCPQuorumSet NodeID)) = .mk threshold v [] := by
  obtain ⟨inner, -, -, lone, -⟩ | ⟨-, same⟩ := liftLone_cases threshold v []
  · cases lone
  · exact same

theorem simplify_leafSet {group : List (ValidatorEntry NodeID)} (nonempty : group ≠ [])
    (small : group.length < 2 ^ 32) :
    normalizeQSetSimplify none (leafSet group) = leafSet group := by
  obtain ⟨_, ⟨here, _⟩⟩ := leafSet_majority nonempty small
  rw [leafSet, normalizeQSetSimplify_mk, Nat.mod_eq_of_lt here, List.map_nil]
  change liftLone _ (group.map (·.mKey) ++ []) [] = _
  rw [List.append_nil, liftLone_flat]

omit [LinearOrder NodeID] in
theorem soleValidator_leafSet {group : List (ValidatorEntry NodeID)} (nonempty : group ≠ []) :
    soleValidator (leafSet group) = none ↔ 2 ≤ group.length := by
  match group, nonempty with
  | [only], _ =>
      have sole : soleValidator (leafSet [only]) = some only.mKey :=
        soleValidator_eq_some.mpr ⟨computeDefaultThreshold_one (by rfl), rfl, rfl⟩
      rw [sole]
      constructor
      · intro impossible
        cases impossible
      · intro several
        exact absurd several (Nat.lt_irrefl 1)
  | first :: second :: rest, _ =>
      constructor
      · intro _
        exact Nat.le_add_left 2 _
      · intro _
        refine Option.eq_none_iff_forall_ne_some.mpr fun validator sole => ?_
        obtain ⟨-, single, -⟩ := soleValidator_eq_some.mp sole
        cases single

def simplifiedInner (groups : List (List (ValidatorEntry NodeID)))
    (lower : List (SCPQuorumSet NodeID)) : List (SCPQuorumSet NodeID) :=
  groups.map leafSet ++ lower.map (normalizeQSetSimplify none)

theorem simplify_levelSet (counted : Counted groups lower) :
    normalizeQSetSimplify none (levelSet groups lower) =
      liftLone (levelThreshold groups lower) (soles (simplifiedInner groups lower))
        (composed (simplifiedInner groups lower)) := by
  have small : (levelThreshold groups lower) < 2 ^ 32 := computeDefaultThreshold_lt _ _
  have inner : (groups.map leafSet ++ lower).map (normalizeQSetSimplify none) =
      simplifiedInner groups lower := by
    have leaves : (groups.map leafSet).map (normalizeQSetSimplify none) = groups.map leafSet := by
      rw [List.map_map]
      refine List.map_congr_left fun group member => ?_
      rw [Function.comp_apply]
      exact simplify_leafSet (counted.nonempty group member) (counted.small group member)
    rw [simplifiedInner, List.map_append, leaves]
  rw [levelSet_eq, normalizeQSetSimplify_mk, inner, Nat.mod_eq_of_lt small, List.nil_append]

theorem mem_composed {inner : SCPQuorumSet NodeID} :
    inner ∈ composed (simplifiedInner groups lower) ↔
      (inner ∈ groups.map leafSet ∨ ∃ set ∈ lower, normalizeQSetSimplify none set = inner) ∧
        soleValidator inner = none := by
  rw [composed, List.mem_filter, simplifiedInner, List.mem_append, List.mem_map,
    Option.isNone_iff_eq_none, List.mem_map]

omit [LinearOrder NodeID] in
theorem nestedWithin_leafSet {inner : SCPQuorumSet NodeID} (leaf : inner ∈ groups.map leafSet)
    (depth : Nat) : NestedWithin depth inner := by
  obtain ⟨group, -, rfl⟩ := List.mem_map.mp leaf
  have flat : NestedWithin 0 (leafSet group) := rfl
  exact flat.mono (Nat.zero_le depth)

omit [LinearOrder NodeID] in
theorem NestedWithin.liftLone {depth threshold : Nat} {v : List NodeID}
    {i : List (SCPQuorumSet NodeID)} (within : ∀ inner ∈ i, NestedWithin depth inner) :
    NestedWithin (depth + 1) (liftLone threshold v i) := by
  obtain ⟨inner, -, -, rfl, lifted⟩ | ⟨-, same⟩ := liftLone_cases threshold v i
  · rw [lifted]
    exact (within inner (List.mem_singleton_self inner)).succ
  · rw [same]
    exact within

theorem nestedWithin_levelSet (counted : Counted groups lower) {depth : Nat}
    (below : ∀ set ∈ lower, NestedWithin depth (normalizeQSetSimplify none set)) :
    NestedWithin (depth + 1) (normalizeQSetSimplify none (levelSet groups lower)) := by
  rw [simplify_levelSet counted]
  apply NestedWithin.liftLone
  intro inner member
  rcases (mem_composed.mp member).1 with leaf | ⟨set, present, rfl⟩
  · exact nestedWithin_leafSet leaf depth
  · exact below set present

omit [LinearOrder NodeID] in
theorem two_le_threshold (several : 2 ≤ groups.length + lower.length)
    (few : groups.length + lower.length < 2 ^ 32) : 2 ≤ (levelThreshold groups lower) := by
  have size : (groups.map leafSet ++ lower).length = groups.length + lower.length := by
    rw [List.length_append, List.length_map]
  apply computeDefaultThreshold_two
  · change 2 ≤ 0 + (groups.map leafSet ++ lower).length
    omega
  · change 0 + (groups.map leafSet ++ lower).length < _
    omega

theorem simplify_several (counted : Counted groups lower)
    (several : 2 ≤ groups.length + lower.length) :
    normalizeQSetSimplify none (levelSet groups lower) =
      .mk (levelThreshold groups lower) (soles (simplifiedInner groups lower))
        (composed (simplifiedInner groups lower)) := by
  have two := two_le_threshold several counted.few
  rw [simplify_levelSet counted]
  obtain ⟨inner, one, -⟩ | ⟨-, same⟩ := liftLone_cases (levelThreshold groups lower)
    (soles (simplifiedInner groups lower)) (composed (simplifiedInner groups lower))
  · omega
  · exact same

theorem nestedWithin_several_iff (counted : Counted groups lower)
    (several : 2 ≤ groups.length + lower.length) (depth : Nat) :
    NestedWithin (depth + 1) (normalizeQSetSimplify none (levelSet groups lower)) ↔
      ∀ set ∈ lower, soleValidator (normalizeQSetSimplify none set) = none →
        NestedWithin depth (normalizeQSetSimplify none set) := by
  rw [simplify_several counted several]
  constructor
  · intro within set member notSole
    exact within _ (mem_composed.mpr ⟨Or.inr ⟨set, member, rfl⟩, notSole⟩)
  · intro below inner member
    obtain ⟨leaf | ⟨set, present, rfl⟩, notSole⟩ := mem_composed.mp member
    · exact nestedWithin_leafSet leaf depth
    · exact below set present notSole

omit [LinearOrder NodeID] in
theorem nestedWithin_of_sole {qSet : SCPQuorumSet NodeID} {depth : Nat}
    (within : soleValidator qSet = none → NestedWithin depth qSet) : NestedWithin depth qSet := by
  cases sole : soleValidator qSet with
  | none => exact within sole
  | some validator =>
      obtain ⟨threshold, validators, innerSets⟩ := qSet
      obtain ⟨-, -, rfl⟩ := soleValidator_eq_some.mp sole
      have flat : NestedWithin 0 (.mk threshold validators []) := rfl
      exact flat.mono (Nat.zero_le depth)

theorem flat_levelSet_iff (counted : Counted groups []) (some' : groups ≠ []) :
    NestedWithin 0 (normalizeQSetSimplify none (levelSet groups [])) ↔
      ¬ (2 ≤ groups.length ∧ ∃ group ∈ groups, 2 ≤ group.length) := by
  have kept : ∀ inner, inner ∈ composed (simplifiedInner groups []) ↔
      ∃ group ∈ groups, 2 ≤ group.length ∧ leafSet group = inner := by
    intro inner
    rw [mem_composed, List.mem_map]
    constructor
    · rintro ⟨⟨group, member, rfl⟩ | ⟨set, absent, -⟩, notSole⟩
      · exact ⟨group, member,
          (soleValidator_leafSet (counted.nonempty group member)).mp notSole, rfl⟩
      · cases absent
    · rintro ⟨group, member, several, rfl⟩
      exact ⟨Or.inl ⟨group, member, rfl⟩,
        (soleValidator_leafSet (counted.nonempty group member)).mpr several⟩
  by_cases several : 2 ≤ groups.length
  · rw [simplify_several counted several]
    change composed (simplifiedInner groups []) = [] ↔ _
    rw [List.eq_nil_iff_forall_not_mem]
    constructor
    · rintro none ⟨-, group, member, wide⟩
      exact none (leafSet group) ((kept _).mpr ⟨group, member, wide, rfl⟩)
    · intro notBoth inner member
      obtain ⟨group, present, wide, -⟩ := (kept inner).mp member
      exact notBoth ⟨several, group, present, wide⟩
  · obtain ⟨group, rfl⟩ : ∃ group, groups = [group] := by
      apply List.length_eq_one_iff.mp
      have positive := List.length_pos_of_ne_nil some'
      omega
    constructor
    · exact fun _ both => several both.1
    · intro _
      rw [simplify_levelSet counted]
      obtain ⟨inner, -, -, lone, lifted⟩ | ⟨notLone, same⟩ :=
        liftLone_cases (levelThreshold [group] []) (soles (simplifiedInner [group] []))
          (composed (simplifiedInner [group] []))
      · rw [lifted]
        obtain ⟨leaf, -, -, rfl⟩ := (kept inner).mp (by rw [lone]; exact List.mem_singleton_self _)
        rfl
      · rw [same]
        have parted := entries_parted (simplifiedInner [group] [])
        have one : (simplifiedInner [group] []).length = 1 := rfl
        have threshold : levelThreshold [group] [] = 1 := computeDefaultThreshold_one (by rfl)
        by_contra notFlat
        have kept' : 0 < (composed (simplifiedInner [group] [])).length :=
          List.length_pos_of_ne_nil notFlat
        refine notLone ⟨threshold, ?_, ?_⟩
        · apply List.length_eq_zero_iff.mp
          omega
        · apply List.length_eq_one_iff.mp
          omega

end Nesting

/-! ### The validators of the levels -/

section Entries

theorem Level.counted {quality : ValidatorQuality} {groups : List (List (ValidatorEntry NodeID))}
    (level : Level quality groups) {lower : List (SCPQuorumSet NodeID)}
    (few : groups.flatten.length + lower.length < 2 ^ 32) : Counted groups lower where
  few := by
    have count := level.length_le
    omega
  nonempty := level.nonempty
  small group member := by
    have small := Level.group_le member
    omega

theorem Level.quality_of_mem {quality : ValidatorQuality}
    {groups : List (List (ValidatorEntry NodeID))} (level : Level quality groups)
    {entry : ValidatorEntry NodeID} (member : entry ∈ groups.flatten) :
    entry.mQuality = quality := by
  obtain ⟨group, present, inside⟩ := List.mem_flatten.mp member
  exact level.quality group present entry inside

theorem Level.group_eq {quality : ValidatorQuality}
    {groups : List (List (ValidatorEntry NodeID))} (level : Level quality groups)
    {group group' : List (ValidatorEntry NodeID)} (member : group ∈ groups)
    (member' : group' ∈ groups) {a b : ValidatorEntry NodeID} (inA : a ∈ group) (inB : b ∈ group')
    (same : a.mHomeDomain = b.mHomeDomain) : group = group' := by
  have symmetric : Std.Symm fun group later : List (ValidatorEntry NodeID) =>
      ∀ l ∈ group, ∀ r ∈ later, l.mHomeDomain ≠ r.mHomeDomain :=
    ⟨fun _ _ apart l inL r inR same => apart r inR l inL same.symm⟩
  have apart : groups.Pairwise fun group later =>
      ∀ l ∈ group, ∀ r ∈ later, l.mHomeDomain ≠ r.mHomeDomain :=
    level.apart.imp fun before l inL r inR => (before l inL r inR).ne
  by_contra different
  exact apart.forall member member' different a inA b inB same

theorem Level.wide_iff {quality : ValidatorQuality}
    {groups : List (List (ValidatorEntry NodeID))} (level : Level quality groups)
    (distinct : (groups.flatten.map (·.mKey)).Nodup) :
    (2 ≤ groups.length ∧ ∃ group ∈ groups, 2 ≤ group.length) ↔
      ∃ a ∈ groups.flatten, ∃ b ∈ groups.flatten, ∃ c ∈ groups.flatten,
        a.mKey ≠ b.mKey ∧ a.mHomeDomain = b.mHomeDomain ∧ c.mHomeDomain ≠ a.mHomeDomain := by
  constructor
  · rintro ⟨several, group, member, wide⟩
    obtain ⟨a, b, rest, rfl⟩ : ∃ a b rest, group = a :: b :: rest := by
      match group, wide with
      | a :: b :: rest, _ => exact ⟨a, b, rest, rfl⟩
    have within : ∀ entry ∈ a :: b :: rest, entry ∈ groups.flatten := fun entry inside =>
      List.mem_flatten.mpr ⟨_, member, inside⟩
    have inA : a ∈ a :: b :: rest := List.mem_cons_self
    have inB : b ∈ a :: b :: rest := List.mem_cons_of_mem a List.mem_cons_self
    have keys := distinct.sublist ((List.sublist_flatten_of_mem member).map (·.mKey))
    have different : a.mKey ≠ b.mKey := by
      intro same
      refine (List.nodup_cons.mp keys).1 ?_
      change a.mKey ∈ b.mKey :: _
      rw [same]
      exact List.mem_cons_self
    obtain ⟨other, present, notSame⟩ : ∃ other ∈ groups, ∀ c ∈ other,
        c.mHomeDomain ≠ a.mHomeDomain := by
      obtain ⟨before, after, rfl⟩ := List.append_of_mem member
      obtain ⟨-, here, later⟩ := List.pairwise_append.mp level.apart
      rw [List.length_append, List.length_cons] at several
      obtain ⟨other, inBefore⟩ | ⟨other, inAfter⟩ :
          (∃ other, other ∈ before) ∨ ∃ other, other ∈ after := by
        rcases List.eq_nil_or_concat before with rfl | ⟨front, other, rfl⟩
        · refine Or.inr (List.exists_mem_of_length_pos ?_)
          rw [List.length_nil] at several
          omega
        · exact Or.inl ⟨other, by simp⟩
      · refine ⟨other, List.mem_append_left _ inBefore, fun c inside => ?_⟩
        exact (later other inBefore _ List.mem_cons_self c inside a inA).ne
      · refine ⟨other, List.mem_append_right _ (List.mem_cons_of_mem _ inAfter), ?_⟩
        exact fun c inside =>
          ((List.pairwise_cons.mp here).1 other inAfter a inA c inside).ne'
    obtain ⟨c, inside⟩ := List.exists_mem_of_ne_nil other (level.nonempty other present)
    exact ⟨a, within a inA, b, within b inB, c, List.mem_flatten.mpr ⟨other, present, inside⟩,
      different, level.domain _ member a inA b inB, notSame c inside⟩
  · rintro ⟨a, memA, b, memB, c, memC, different, same, apart⟩
    obtain ⟨group, member, inA⟩ := List.mem_flatten.mp memA
    obtain ⟨group', member', inB⟩ := List.mem_flatten.mp memB
    obtain ⟨other, present, inC⟩ := List.mem_flatten.mp memC
    obtain rfl := level.group_eq member member' inA inB same
    constructor
    · by_contra few
      obtain ⟨only, rfl⟩ : ∃ only, groups = [only] := by
        apply List.length_eq_one_iff.mp
        have positive := List.length_pos_of_mem member
        omega
      obtain rfl := List.mem_singleton.mp member
      obtain rfl := List.mem_singleton.mp present
      exact apart (level.domain _ member c inC a inA)
    · refine ⟨group, member, ?_⟩
      by_contra narrow
      obtain ⟨only, rfl⟩ : ∃ only, group = [only] := by
        apply List.length_eq_one_iff.mp
        have positive := List.length_pos_of_mem inA
        omega
      obtain rfl := List.mem_singleton.mp inA
      obtain rfl := List.mem_singleton.mp inB
      exact different rfl

theorem Levels.inversion {quality : ValidatorQuality} {entries : List (ValidatorEntry NodeID)}
    {res : SCPQuorumSet NodeID} (levels : Levels quality entries res) :
    (∃ groups, Level quality groups ∧ entries = groups.flatten ∧ res = levelSet groups []) ∨
    ∃ groups it remaining lowQ, Level quality groups ∧ it.mQuality < quality ∧
      Levels it.mQuality (it :: remaining) lowQ ∧ entries = groups.flatten ++ it :: remaining ∧
      res = levelSet groups [lowQ] := by
  cases levels with
  | last level => exact Or.inl ⟨_, level, rfl, rfl⟩
  | lower level below rest => exact Or.inr ⟨_, _, _, _, level, below, rest, rfl, rfl⟩

end Entries

/-! ### Sanity -/

section Sanity

variable [LinearOrder NodeID]

theorem nestedWithin_two {quality : ValidatorQuality}
    {groups low : List (List (ValidatorEntry NodeID))} (level : Level quality groups)
    {quality' : ValidatorQuality} (levelLow : Level quality' low)
    (few : groups.flatten.length + low.flatten.length + 1 < 2 ^ 32) :
    NestedWithin 2 (normalizeQSetSimplify none (levelSet groups [levelSet low []])) := by
  apply nestedWithin_levelSet (level.counted (by rw [List.length_singleton]; omega))
  intro set member
  obtain rfl := List.mem_singleton.mp member
  apply nestedWithin_levelSet (levelLow.counted (by rw [List.length_nil]; omega))
  intro set absent
  cases absent

theorem nestedWithin_above_iff {groups : List (List (ValidatorEntry NodeID))}
    {set : SCPQuorumSet NodeID} (counted : Counted groups [set]) (some' : groups ≠ [])
    (depth : Nat) :
    NestedWithin (depth + 1) (normalizeQSetSimplify none (levelSet groups [set])) ↔
      NestedWithin depth (normalizeQSetSimplify none set) := by
  have several : 2 ≤ groups.length + [set].length := by
    have positive := List.length_pos_of_ne_nil some'
    rw [List.length_singleton]
    omega
  rw [nestedWithin_several_iff counted several]
  constructor
  · intro below
    exact nestedWithin_of_sole (below set (List.mem_singleton_self set))
  · intro within other member _
    obtain rfl := List.mem_singleton.mp member
    exact within

omit [LinearOrder NodeID] in
theorem not_tooDeep_of_quality {entries : List (ValidatorEntry NodeID)}
    {missing : ValidatorQuality} (none : ∀ entry ∈ entries, entry.mQuality ≠ missing) :
    ¬ TooDeep entries := by
  rintro ⟨⟨high, inHigh, isHigh⟩, ⟨med, inMed, isMed⟩, a, inA, b, inB, c, inC, isLow, -⟩
  cases missing with
  | VALIDATOR_LOW_QUALITY => exact none a inA isLow
  | VALIDATOR_MED_QUALITY => exact none med inMed isMed
  | VALIDATOR_HIGH_QUALITY => exact none high inHigh isHigh

theorem three_levels_iff {high med low : List (List (ValidatorEntry NodeID))}
    (levelHigh : Level VALIDATOR_HIGH_QUALITY high) (levelMed : Level VALIDATOR_MED_QUALITY med)
    (levelLow : Level VALIDATOR_LOW_QUALITY low) (someHigh : high ≠ []) (someMed : med ≠ [])
    (someLow : low ≠ [])
    (few : high.flatten.length + med.flatten.length + low.flatten.length + 1 < 2 ^ 32)
    (distinct : (low.flatten.map (·.mKey)).Nodup) :
    NestedWithin 2 (normalizeQSetSimplify none
        (levelSet high [levelSet med [levelSet low []]])) ↔
      ¬ TooDeep (high.flatten ++ (med.flatten ++ low.flatten)) := by
  have countedHigh : Counted high [levelSet med [levelSet low []]] :=
    levelHigh.counted (by rw [List.length_singleton]; omega)
  have countedMed : Counted med [levelSet low []] :=
    levelMed.counted (by rw [List.length_singleton]; omega)
  have countedLow : Counted low [] := levelLow.counted (by rw [List.length_nil]; omega)
  rw [nestedWithin_above_iff countedHigh someHigh, nestedWithin_above_iff countedMed someMed,
    flat_levelSet_iff countedLow someLow, levelLow.wide_iff distinct, not_iff_not]
  have lowOnly : ∀ entry ∈ high.flatten ++ (med.flatten ++ low.flatten),
      entry.mQuality = VALIDATOR_LOW_QUALITY → entry ∈ low.flatten := by
    intro entry member isLow
    rcases List.mem_append.mp member with inHigh | rest
    · have isHigh := levelHigh.quality_of_mem inHigh
      rw [isHigh] at isLow
      cases isLow
    rcases List.mem_append.mp rest with inMed | inLow
    · have isMed := levelMed.quality_of_mem inMed
      rw [isMed] at isLow
      cases isLow
    · exact inLow
  have within : ∀ entry ∈ low.flatten, entry ∈ high.flatten ++ (med.flatten ++ low.flatten) :=
    fun entry member => List.mem_append_right _ (List.mem_append_right _ member)
  constructor
  · rintro ⟨a, inA, b, inB, c, inC, different, same, apart⟩
    refine ⟨?_, ?_, a, within a inA, b, within b inB, c, within c inC,
      levelLow.quality_of_mem inA, levelLow.quality_of_mem inB, levelLow.quality_of_mem inC,
      different, same, apart⟩
    · obtain ⟨group, present⟩ := List.exists_mem_of_ne_nil high someHigh
      obtain ⟨entry, inside⟩ := List.exists_mem_of_ne_nil group (levelHigh.nonempty group present)
      exact ⟨entry, List.mem_append_left _ (List.mem_flatten.mpr ⟨group, present, inside⟩),
        levelHigh.quality group present entry inside⟩
    · obtain ⟨group, present⟩ := List.exists_mem_of_ne_nil med someMed
      obtain ⟨entry, inside⟩ := List.exists_mem_of_ne_nil group (levelMed.nonempty group present)
      exact ⟨entry, List.mem_append_right _
        (List.mem_append_left _ (List.mem_flatten.mpr ⟨group, present, inside⟩)),
        levelMed.quality group present entry inside⟩
  · rintro ⟨-, -, a, inA, b, inB, c, inC, lowA, lowB, lowC, rest⟩
    exact ⟨a, lowOnly a inA lowA, b, lowOnly b inB lowB, c, lowOnly c inC lowC, rest⟩

theorem nestedWithin_lone {set : SCPQuorumSet NodeID} {depth : Nat}
    (within : NestedWithin depth (normalizeQSetSimplify none set)) :
    NestedWithin depth (normalizeQSetSimplify none (levelSet [] [set])) := by
  have counted : Counted ([] : List (List (ValidatorEntry NodeID))) [set] :=
    { few := by
        rw [List.length_singleton, List.length_nil]
        decide
      nonempty := fun _ absent => nomatch absent
      small := fun _ absent => nomatch absent }
  have threshold : levelThreshold ([] : List (List (ValidatorEntry NodeID))) [set] = 1 :=
    computeDefaultThreshold_one (by rfl)
  rw [simplify_levelSet counted, threshold]
  change NestedWithin depth (liftLone 1 (soles [normalizeQSetSimplify none set])
    (composed [normalizeQSetSimplify none set]))
  cases sole : soleValidator (normalizeQSetSimplify none set) with
  | none =>
      rw [soles, List.filterMap_cons_none sole, List.filterMap_nil, composed,
        List.filter_cons_of_pos (by rw [sole]; rfl), List.filter_nil]
      exact within
  | some validator =>
      rw [composed, List.filter_cons_of_neg (by rw [sole]; exact Bool.false_ne_true),
        List.filter_nil, liftLone_flat]
      have flat : NestedWithin 0
          (.mk 1 (soles [normalizeQSetSimplify none set]) [] : SCPQuorumSet NodeID) := rfl
      exact flat.mono (Nat.zero_le depth)

theorem two_below_high {upper lower : ValidatorQuality} (below : lower < upper)
    (belowHigh : upper < VALIDATOR_HIGH_QUALITY) :
    upper = VALIDATOR_MED_QUALITY ∧ lower = VALIDATOR_LOW_QUALITY := by
  revert below belowHigh
  cases upper <;> cases lower <;> decide

theorem Levels.nested_iff {entries : List (ValidatorEntry NodeID)} {res : SCPQuorumSet NodeID}
    (levels : Levels VALIDATOR_HIGH_QUALITY entries res) (few : entries.length + 1 < 2 ^ 32)
    (distinct : (entries.map (·.mKey)).Nodup) :
    NestedWithin 2 (normalizeQSetSimplify none res) ↔ ¬ TooDeep entries := by
  obtain ⟨high, levelHigh, rfl, rfl⟩ | ⟨high, it, remaining, middle, levelHigh, belowHigh, rest, rfl,
    rfl⟩ := levels.inversion
  · refine iff_of_true ?_ (@not_tooDeep_of_quality _ _ VALIDATOR_MED_QUALITY ?_)
    · refine (nestedWithin_levelSet (levelHigh.counted ?_) ?_).mono (Nat.le_succ 1)
      · rw [List.length_nil]
        omega
      · intro set absent
        cases absent
    · intro entry member
      rw [levelHigh.quality_of_mem member]
      decide
  obtain ⟨med, levelMed, split, rfl⟩ | ⟨med, it', remaining', lowest, levelMed, below, rest', split,
    rfl⟩ := rest.inversion
  · rw [split, List.length_append] at few
    refine iff_of_true (nestedWithin_two levelHigh levelMed few) ?_
    have others : ∀ missing, missing ≠ VALIDATOR_HIGH_QUALITY → missing ≠ it.mQuality →
        ¬ TooDeep (high.flatten ++ it :: remaining) := by
      intro missing notHigh notIt
      refine @not_tooDeep_of_quality _ _ missing fun entry member => ?_
      rw [split] at member
      rcases List.mem_append.mp member with inHigh | inMed
      · rw [levelHigh.quality_of_mem inHigh]
        exact notHigh.symm
      · rw [levelMed.quality_of_mem inMed]
        exact notIt.symm
    cases quality : it.mQuality with
    | VALIDATOR_LOW_QUALITY =>
        exact others VALIDATOR_MED_QUALITY (by decide) (by rw [quality]; decide)
    | VALIDATOR_MED_QUALITY =>
        exact others VALIDATOR_LOW_QUALITY (by decide) (by rw [quality]; decide)
    | VALIDATOR_HIGH_QUALITY =>
        rw [quality] at belowHigh
        exact absurd belowHigh (lt_irrefl _)
  obtain ⟨isMed, isLow⟩ := two_below_high below belowHigh
  rw [isMed] at levelMed
  obtain ⟨low, levelLow, split', rfl⟩ | ⟨-, it'', -, -, -, impossible, -⟩ := rest'.inversion
  · rw [isLow] at levelLow
    rw [split, split', List.length_append, List.length_append] at few
    rw [split, split'] at distinct ⊢
    have someMed : med ≠ [] := by
      rintro rfl
      obtain ⟨rfl, -⟩ := List.cons.inj split
      exact absurd below (lt_irrefl _)
    have someLow : low ≠ [] := by
      rintro rfl
      cases split'
    by_cases someHigh : high = []
    · subst someHigh
      refine iff_of_true ?_ (@not_tooDeep_of_quality _ _ VALIDATOR_HIGH_QUALITY ?_)
      · exact nestedWithin_lone (nestedWithin_two levelMed levelLow (by omega))
      · intro entry member
        rcases List.mem_append.mp member with absent | later
        · cases absent
        rcases List.mem_append.mp later with inMed | inLow
        · rw [levelMed.quality_of_mem inMed]
          decide
        · rw [levelLow.quality_of_mem inLow]
          decide
    · refine three_levels_iff levelHigh levelMed levelLow someHigh someMed someLow (by omega) ?_
      rw [List.map_append, List.map_append] at distinct
      exact (distinct.sublist (List.sublist_append_right _ _)).sublist
        (List.sublist_append_right _ _)
  · rw [isLow] at impossible
    exact absurd impossible (not_lt.mpr (Nat.zero_le it''.mQuality.toInt))

theorem Levels.sane_iff {entries : List (ValidatorEntry NodeID)} {res : SCPQuorumSet NodeID}
    (levels : Levels VALIDATOR_HIGH_QUALITY entries res) (nonempty : entries ≠ [])
    (few : entries.length ≤ 1000) (distinct : (entries.map (·.mKey)).Nodup) :
    isQuorumSetSane (normalizeQSet res none) true = true ↔ ¬ TooDeep entries := by
  obtain ⟨majority, fits⟩ := levels.majority nonempty (by omega)
  have nodes := levels.allNodes
  rw [isQuorumSetSane_normalize_iff majority fits (by rw [nodes]; exact distinct)
    (by rw [nodes, List.length_map]; exact few)]
  exact levels.nested_iff (by omega) distinct

/-- A generated quorum set is refused exactly when it is nested too deep. -/
theorem generateQuorumSet_sane_iff (validators todo : List (ValidatorEntry NodeID))
    (qSet : SCPQuorumSet NodeID) (nonempty : validators ≠ []) (few : validators.length ≤ 1000)
    (distinct : (validators.map (·.mKey)).Nodup) (sorts : SortsTo validators todo)
    (generated : generateQuorumSet todo = .ok qSet) :
    isQuorumSetSane qSet true = true ↔ ¬ TooDeep validators := by
  obtain ⟨res, levels, rfl⟩ := generateQuorumSet_levels sorts generated
  have length := sorts.perm.length_eq
  have also : todo ≠ [] := by
    rintro rfl
    exact nonempty sorts.perm.symm.eq_nil
  have keys : (todo.map (·.mKey)).Nodup := (sorts.perm.map _).nodup_iff.mpr distinct
  rw [levels.sane_iff also (by omega) keys]
  unfold TooDeep
  simp only [sorts.perm.mem_iff]

end Sanity

def validator (domain : String) (quality : ValidatorQuality) (key : Nat) : ValidatorEntry Nat :=
  ⟨"validator", domain, quality, key⟩

/-- Three validators of high quality, one of medium quality, and three of low quality. -/
def sevenValidators : List (ValidatorEntry Nat) :=
  [validator "high" VALIDATOR_HIGH_QUALITY 0, validator "high" VALIDATOR_HIGH_QUALITY 1,
    validator "high" VALIDATOR_HIGH_QUALITY 2, validator "med" VALIDATOR_MED_QUALITY 3,
    validator "low" VALIDATOR_LOW_QUALITY 4, validator "low" VALIDATOR_LOW_QUALITY 5,
    validator "other" VALIDATOR_LOW_QUALITY 6]

theorem generateQuorumSetHelper_seven :
    generateQuorumSetHelper sevenValidators VALIDATOR_HIGH_QUALITY =
      .ok (.mk 2 [] [.mk 2 [0, 1, 2] [],
        .mk 2 [] [.mk 1 [3] [], .mk 2 [] [.mk 2 [4, 5] [], .mk 1 [6] []]]]) := by
  have sameHigh : sameDomain (validator "high" VALIDATOR_HIGH_QUALITY 0)
      (sevenValidators.drop 1) = .ok ([1, 2], sevenValidators.drop 3) := by
    simp [sameDomain, sevenValidators, validator]
  have sameMed : sameDomain (validator "med" VALIDATOR_MED_QUALITY 3)
      (sevenValidators.drop 4) = .ok ([], sevenValidators.drop 4) := by
    simp [sameDomain, sevenValidators, validator]
  have sameLow : sameDomain (validator "low" VALIDATOR_LOW_QUALITY 4)
      (sevenValidators.drop 5) = .ok ([5], sevenValidators.drop 6) := by
    simp [sameDomain, sevenValidators, validator]
  have sameOther : sameDomain (validator "other" VALIDATOR_LOW_QUALITY 6)
      (sevenValidators.drop 7) = .ok ([], []) := rfl
  have high : domainSets VALIDATOR_HIGH_QUALITY sevenValidators =
      .ok ([.mk 2 [0, 1, 2] []], sevenValidators.drop 3) :=
    domainSets_cons rfl sameHigh (by decide) (domainSets_other (by decide))
  have med : domainSets VALIDATOR_MED_QUALITY (sevenValidators.drop 3) =
      .ok ([.mk 1 [3] []], sevenValidators.drop 4) :=
    domainSets_cons rfl sameMed (by decide) (domainSets_other (by decide))
  have low : domainSets VALIDATOR_LOW_QUALITY (sevenValidators.drop 4) =
      .ok ([.mk 2 [4, 5] [], .mk 1 [6] []], []) :=
    domainSets_cons rfl sameLow (by decide)
      (domainSets_cons rfl sameOther (by decide) (by rw [domainSets]))
  exact generateQuorumSetHelper_lower high (by decide)
    (generateQuorumSetHelper_lower med (by decide) (generateQuorumSetHelper_last low))

theorem generateQuorumSet_seven : generateQuorumSet sevenValidators =
    .ok (normalizeQSet (.mk 2 [] [.mk 2 [0, 1, 2] [],
      .mk 2 [] [.mk 1 [3] [], .mk 2 [] [.mk 2 [4, 5] [], .mk 1 [6] []]]]) none) := by
  rw [generateQuorumSet, generateQuorumSetHelper_seven]
  rfl

theorem sevenValidators_sortsTo : SortsTo sevenValidators sevenValidators where
  perm := List.Perm.refl _
  sorted := by decide

theorem generateQuorumSet_sane_iff_seven :
    ∃ qSet, generateQuorumSet sevenValidators = .ok qSet ∧
      (isQuorumSetSane qSet true = true ↔ ¬ TooDeep sevenValidators) :=
  ⟨_, generateQuorumSet_seven, generateQuorumSet_sane_iff sevenValidators sevenValidators _
    (List.cons_ne_nil _ _) (by decide) (by decide) sevenValidators_sortsTo
    generateQuorumSet_seven⟩

/-- Home domains of low quality below two better qualities are nested three deep. -/
theorem generateQuorumSet_insane :
    ∃ qSet, SortsTo sevenValidators sevenValidators ∧ sevenValidators.length ≤ 1000 ∧
      (sevenValidators.map (·.mKey)).Nodup ∧ generateQuorumSet sevenValidators = .ok qSet ∧
      isQuorumSetSane qSet true = false := by
  refine ⟨_, sevenValidators_sortsTo, by decide, by decide, generateQuorumSet_seven, ?_⟩
  have levels := generateQuorumSetHelper_levels sevenValidators_sortsTo.sorted
    generateQuorumSetHelper_seven
  rw [← Bool.not_eq_true, levels.sane_iff (List.cons_ne_nil _ _) (by decide) (by decide), not_not]
  refine ⟨⟨validator "high" VALIDATOR_HIGH_QUALITY 0, ?_, rfl⟩,
    ⟨validator "med" VALIDATOR_MED_QUALITY 3, ?_, rfl⟩,
    validator "low" VALIDATOR_LOW_QUALITY 4, ?_, validator "low" VALIDATOR_LOW_QUALITY 5, ?_,
    validator "other" VALIDATOR_LOW_QUALITY 6, ?_, rfl, rfl, rfl, by decide, rfl, by decide⟩
  all_goals simp [sevenValidators]

end ViiCore.Config
