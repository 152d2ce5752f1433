import Mathlib.Data.String.Basic
import ViiCore.SCP.Majorities

/-!
The quorum set that is generated from a list of validators (`main/Config.cpp`): one inner set for
each home domain of the best quality, and one for all validators of the qualities below.
-/

namespace ViiCore.Config

open SCP

inductive ValidatorQuality where
  | VALIDATOR_LOW_QUALITY
  | VALIDATOR_MED_QUALITY
  | VALIDATOR_HIGH_QUALITY
  deriving DecidableEq

namespace ValidatorQuality

def toInt : ValidatorQuality → Nat
  | VALIDATOR_LOW_QUALITY => 0
  | VALIDATOR_MED_QUALITY => 1
  | VALIDATOR_HIGH_QUALITY => 2

theorem toInt_injective : Function.Injective toInt := by
  intro left right same
  cases left <;> cases right <;> first | rfl | cases same

instance : LinearOrder ValidatorQuality := LinearOrder.lift' toInt toInt_injective

end ValidatorQuality

open ValidatorQuality

structure ValidatorEntry (NodeID : Type) where
  mName : String
  mHomeDomain : String
  mQuality : ValidatorQuality
  mKey : NodeID

variable {NodeID : Type}

/-- The size is cast to a 32-bit number. -/
def computeDefaultThreshold (qset : SCPQuorumSet NodeID) (simpleMajority : Bool) : Nat :=
  let topSize := (qset.validators.length + qset.innerSets.length) % 2 ^ 32
  if topSize = 0 then 0
  else if simpleMajority && qset.innerSets.isEmpty then topSize - (topSize - 1) / 2
  else topSize - (topSize - 1) / 3

/-- The loop over `it2`: the validators of one home domain, and what is left. -/
def sameDomain (it : ValidatorEntry NodeID) :
    List (ValidatorEntry NodeID) → Except String (List NodeID × List (ValidatorEntry NodeID))
  | [] => .ok ([], [])
  | it2 :: rest =>
      if it2.mHomeDomain = it.mHomeDomain then
        if it2.mQuality ≠ it.mQuality then
          .error ("Validators " ++ it.mName ++ " and " ++ it2.mName ++ " must have same quality")
        else do
          let (vals, later) ← sameDomain it rest
          return (it2.mKey :: vals, later)
      else .ok ([], it2 :: rest)

theorem sameDomain_shorter {it : ValidatorEntry NodeID} {entries later : List (ValidatorEntry NodeID)}
    {vals : List NodeID} (collected : sameDomain it entries = .ok (vals, later)) :
    later.length ≤ entries.length := by
  induction entries generalizing vals later with
  | nil =>
      cases collected
      exact Nat.le_refl 0
  | cons it2 rest ih =>
      rw [sameDomain] at collected
      split at collected
      · split at collected
        · cases collected
        · cases found : sameDomain it rest with
          | error what =>
              rw [found] at collected
              cases collected
          | ok pair =>
              rw [found] at collected
              cases collected
              exact Nat.le_succ_of_le (ih found)
      · cases collected
        exact Nat.le_refl _

/-- The loop over `it`: the inner sets of one quality, and what is left. -/
def domainSets (curQuality : ValidatorQuality) :
    List (ValidatorEntry NodeID) →
      Except String (List (SCPQuorumSet NodeID) × List (ValidatorEntry NodeID))
  | [] => .ok ([], [])
  | it :: rest =>
      if it.mQuality = curQuality then
        -- The first validator is in the home domain of the first validator.
        match _collected : sameDomain it rest with
        | .error what => .error what
        | .ok (others, later) =>
            let vals := it.mKey :: others
            if vals.length < 3 ∧ it.mQuality = VALIDATOR_HIGH_QUALITY then
              .error ("High quality validator " ++ it.mName ++ " must have redundancy of at least 3")
            else do
              let innerSet := .mk (computeDefaultThreshold (.mk 0 vals []) true) vals []
              let (innerSets, remaining) ← domainSets curQuality later
              return (innerSet :: innerSets, remaining)
      else .ok ([], it :: rest)
  termination_by entries => entries.length
  decreasing_by exact Nat.lt_succ_of_le (sameDomain_shorter _collected)

theorem domainSets_ok {curQuality : ValidatorQuality} {it : ValidatorEntry NodeID}
    {rest remaining : List (ValidatorEntry NodeID)} {innerSets : List (SCPQuorumSet NodeID)}
    (current : it.mQuality = curQuality)
    (found : domainSets curQuality (it :: rest) = .ok (innerSets, remaining)) :
    ∃ others later sets, sameDomain it rest = .ok (others, later) ∧
      ¬ ((it.mKey :: others).length < 3 ∧ it.mQuality = VALIDATOR_HIGH_QUALITY) ∧
      domainSets curQuality later = .ok (sets, remaining) ∧
      innerSets = .mk (computeDefaultThreshold (.mk 0 (it.mKey :: others) []) true)
        (it.mKey :: others) [] :: sets := by
  rw [domainSets, if_pos current] at found
  split at found
  · cases found
  rename_i others later collected
  dsimp only at found
  split at found
  · cases found
  rename_i redundant
  cases next : domainSets curQuality later with
  | error what =>
      rw [next] at found
      cases found
  | ok pair =>
      rw [next] at found
      cases found
      exact ⟨others, later, pair.1, collected, redundant, next, rfl⟩

theorem domainSets_cons {curQuality : ValidatorQuality} {it : ValidatorEntry NodeID}
    {rest later remaining : List (ValidatorEntry NodeID)} {others : List NodeID}
    {sets : List (SCPQuorumSet NodeID)} (current : it.mQuality = curQuality)
    (collected : sameDomain it rest = .ok (others, later))
    (redundant : ¬ ((it.mKey :: others).length < 3 ∧ it.mQuality = VALIDATOR_HIGH_QUALITY))
    (next : domainSets curQuality later = .ok (sets, remaining)) :
    domainSets curQuality (it :: rest) =
      .ok (.mk (computeDefaultThreshold (.mk 0 (it.mKey :: others) []) true)
        (it.mKey :: others) [] :: sets, remaining) := by
  rw [domainSets, if_pos current]
  split
  · rename_i failed
    rw [collected] at failed
    cases failed
  · rename_i here
    rw [collected] at here
    cases here
    dsimp only
    rw [if_neg redundant, next]
    rfl

theorem domainSets_other {curQuality : ValidatorQuality} {it : ValidatorEntry NodeID}
    {rest : List (ValidatorEntry NodeID)} (other : it.mQuality ≠ curQuality) :
    domainSets curQuality (it :: rest) = .ok ([], it :: rest) := by
  rw [domainSets, if_neg other]

theorem domainSets_remaining {curQuality : ValidatorQuality}
    {entries remaining : List (ValidatorEntry NodeID)} {innerSets : List (SCPQuorumSet NodeID)}
    {it : ValidatorEntry NodeID}
    (found : domainSets curQuality entries = .ok (innerSets, it :: remaining)) :
    it.mQuality ≠ curQuality := by
  induction size : entries.length using Nat.strong_induction_on generalizing entries innerSets with
  | _ size ih =>
  subst size
  cases entries with
  | nil =>
      rw [domainSets] at found
      cases found
  | cons first rest =>
      by_cases current : first.mQuality = curQuality
      · obtain ⟨others, later, sets, collected, -, next, -⟩ := domainSets_ok current found
        exact ih later.length (Nat.lt_succ_of_le (sameDomain_shorter collected)) next rfl
      · rw [domainSets, if_neg current] at found
        cases found
        exact current

def generateQuorumSetHelper (entries : List (ValidatorEntry NodeID))
    (curQuality : ValidatorQuality) : Except String (SCPQuorumSet NodeID) :=
  match _found : domainSets curQuality entries with
  | .error what => .error what
  | .ok (innerSets, []) =>
      .ok (.mk (computeDefaultThreshold (.mk 0 [] innerSets) false) [] innerSets)
  | .ok (innerSets, it :: remaining) =>
      if _above : it.mQuality > curQuality then
        .error ("invalid validator quality for " ++ it.mName ++ " (must be ascending)")
      else do
        let lowQ ← generateQuorumSetHelper (it :: remaining) it.mQuality
        let innerSets := innerSets ++ [lowQ]
        return .mk (computeDefaultThreshold (.mk 0 [] innerSets) false) [] innerSets
  termination_by curQuality.toInt
  decreasing_by exact lt_of_le_of_ne (not_lt.mp _above) fun same =>
    domainSets_remaining _found (toInt_injective same)

theorem generateQuorumSetHelper_last {entries : List (ValidatorEntry NodeID)}
    {curQuality : ValidatorQuality} {innerSets : List (SCPQuorumSet NodeID)}
    (found : domainSets curQuality entries = .ok (innerSets, [])) :
    generateQuorumSetHelper entries curQuality =
      .ok (.mk (computeDefaultThreshold (.mk 0 [] innerSets) false) [] innerSets) := by
  rw [generateQuorumSetHelper]
  split
  · rename_i failed
    rw [found] at failed
    cases failed
  · rename_i here
    rw [found] at here
    cases here
    rfl
  · rename_i here
    rw [found] at here
    cases here

theorem generateQuorumSetHelper_lower {entries remaining : List (ValidatorEntry NodeID)}
    {curQuality : ValidatorQuality} {innerSets : List (SCPQuorumSet NodeID)}
    {it : ValidatorEntry NodeID} {lowQ : SCPQuorumSet NodeID}
    (found : domainSets curQuality entries = .ok (innerSets, it :: remaining))
    (notAbove : ¬ it.mQuality > curQuality)
    (lower : generateQuorumSetHelper (it :: remaining) it.mQuality = .ok lowQ) :
    generateQuorumSetHelper entries curQuality =
      .ok (.mk (computeDefaultThreshold (.mk 0 [] (innerSets ++ [lowQ])) false) []
        (innerSets ++ [lowQ])) := by
  rw [generateQuorumSetHelper]
  split
  · rename_i failed
    rw [found] at failed
    cases failed
  · rename_i here
    rw [found] at here
    cases here
  · rename_i here
    rw [found] at here
    cases here
    rw [dif_neg notAbove, lower]
    rfl

def sortsBefore (l r : ValidatorEntry NodeID) : Bool :=
  if l.mQuality > r.mQuality then true
  else if l.mQuality < r.mQuality then false
  else l.mHomeDomain < r.mHomeDomain

/-- The order of validators that the comparison does not tell apart is not specified. -/
structure SortsTo (validators todo : List (ValidatorEntry NodeID)) : Prop where
  perm : todo.Perm validators
  sorted : todo.Pairwise fun l r => sortsBefore r l = false

def generateQuorumSet [LinearOrder NodeID] (todo : List (ValidatorEntry NodeID)) :
    Except String (SCPQuorumSet NodeID) := do
  let res ← generateQuorumSetHelper todo VALIDATOR_HIGH_QUALITY
  return normalizeQSet res none

/-! ### Levels -/

section Levels

def leafSet (group : List (ValidatorEntry NodeID)) : SCPQuorumSet NodeID :=
  let vals := group.map (·.mKey)
  .mk (computeDefaultThreshold (.mk 0 vals []) true) vals []

def levelSet (groups : List (List (ValidatorEntry NodeID))) (lower : List (SCPQuorumSet NodeID)) :
    SCPQuorumSet NodeID :=
  let innerSets := groups.map leafSet ++ lower
  .mk (computeDefaultThreshold (.mk 0 [] innerSets) false) [] innerSets

structure Level (curQuality : ValidatorQuality) (groups : List (List (ValidatorEntry NodeID))) :
    Prop where
  nonempty : ∀ group ∈ groups, group ≠ []
  quality : ∀ group ∈ groups, ∀ entry ∈ group, entry.mQuality = curQuality
  domain : ∀ group ∈ groups, ∀ l ∈ group, ∀ r ∈ group, l.mHomeDomain = r.mHomeDomain
  apart : groups.Pairwise fun group later =>
    ∀ l ∈ group, ∀ r ∈ later, l.mHomeDomain < r.mHomeDomain
  redundant : curQuality = VALIDATOR_HIGH_QUALITY → ∀ group ∈ groups, 3 ≤ group.length

/-- How a generated set is put together from the validators in their order. -/
inductive Levels : ValidatorQuality → List (ValidatorEntry NodeID) → SCPQuorumSet NodeID → Prop
  | last {quality : ValidatorQuality} {groups : List (List (ValidatorEntry NodeID))}
      (level : Level quality groups) : Levels quality groups.flatten (levelSet groups [])
  | lower {quality : ValidatorQuality} {groups : List (List (ValidatorEntry NodeID))}
      {it : ValidatorEntry NodeID} {remaining : List (ValidatorEntry NodeID)}
      {lowQ : SCPQuorumSet NodeID} (level : Level quality groups) (below : it.mQuality < quality)
      (rest : Levels it.mQuality (it :: remaining) lowQ) :
      Levels quality (groups.flatten ++ it :: remaining) (levelSet groups [lowQ])

theorem sortsBefore_false {l r : ValidatorEntry NodeID} (notBefore : sortsBefore r l = false) :
    r.mQuality ≤ l.mQuality ∧ (r.mQuality = l.mQuality → l.mHomeDomain ≤ r.mHomeDomain) := by
  unfold sortsBefore at notBefore
  split at notBefore
  · cases notBefore
  rename_i notAbove
  have below : r.mQuality ≤ l.mQuality := not_lt.mp notAbove
  refine ⟨below, ?_⟩
  intro same
  rw [if_neg (by rw [same]; exact lt_irrefl _)] at notBefore
  exact not_lt.mp (of_decide_eq_false notBefore)

theorem sameDomain_ok {it : ValidatorEntry NodeID} {entries later : List (ValidatorEntry NodeID)}
    {vals : List NodeID} (collected : sameDomain it entries = .ok (vals, later)) :
    ∃ group, entries = group ++ later ∧ vals = group.map (·.mKey) ∧
      (∀ entry ∈ group, entry.mHomeDomain = it.mHomeDomain ∧ entry.mQuality = it.mQuality) ∧
      ∀ next rest, later = next :: rest → next.mHomeDomain ≠ it.mHomeDomain := by
  induction entries generalizing vals later with
  | nil =>
      cases collected
      refine ⟨[], rfl, rfl, ?_, ?_⟩
      · intro entry member
        cases member
      · intro next rest impossible
        cases impossible
  | cons it2 rest ih =>
      rw [sameDomain] at collected
      split at collected
      · rename_i sameHome
        split at collected
        · cases collected
        rename_i sameQuality
        cases found : sameDomain it rest with
        | error what =>
            rw [found] at collected
            cases collected
        | ok pair =>
            rw [found] at collected
            cases collected
            obtain ⟨group, split, keys, alike, next⟩ := ih found
            refine ⟨it2 :: group, by rw [split]; rfl, by rw [keys]; rfl, ?_, next⟩
            intro entry member
            rcases List.mem_cons.mp member with rfl | later
            · exact ⟨sameHome, not_not.mp sameQuality⟩
            · exact alike entry later
      · rename_i other
        cases collected
        refine ⟨[], rfl, rfl, ?_, ?_⟩
        · intro entry member
          cases member
        · intro next later same
          cases same
          exact other

/-- In their order, what comes after a home domain is of a greater one or of a lower quality. -/
theorem domain_lt {it : ValidatorEntry NodeID} {later : List (ValidatorEntry NodeID)}
    (sorted : (it :: later).Pairwise fun l r => sortsBefore r l = false)
    (next : ∀ next rest, later = next :: rest → next.mHomeDomain ≠ it.mHomeDomain)
    {entry : ValidatorEntry NodeID} (member : entry ∈ later)
    (same : entry.mQuality = it.mQuality) : it.mHomeDomain < entry.mHomeDomain := by
  obtain ⟨first, rest, rfl⟩ := List.exists_cons_of_ne_nil (List.ne_nil_of_mem member)
  obtain ⟨afterIt, sortedLater⟩ := List.pairwise_cons.mp sorted
  obtain ⟨afterFirst, _⟩ := List.pairwise_cons.mp sortedLater
  obtain ⟨below, ordered⟩ := sortsBefore_false (afterIt first List.mem_cons_self)
  have firstLe : entry.mQuality ≤ first.mQuality ∧
      (entry.mQuality = first.mQuality → first.mHomeDomain ≤ entry.mHomeDomain) := by
    rcases List.mem_cons.mp member with rfl | more
    · exact ⟨le_refl _, fun _ => le_refl _⟩
    · exact sortsBefore_false (afterFirst entry more)
  have quality : first.mQuality = it.mQuality :=
    le_antisymm below (same ▸ firstLe.1)
  have strict : it.mHomeDomain < first.mHomeDomain :=
    lt_of_le_of_ne (ordered quality) fun equal => next first rest rfl equal.symm
  exact lt_of_lt_of_le strict (firstLe.2 (same.trans quality.symm))

theorem domainSets_level {quality : ValidatorQuality}
    {entries remaining : List (ValidatorEntry NodeID)} {innerSets : List (SCPQuorumSet NodeID)}
    (sorted : entries.Pairwise fun l r => sortsBefore r l = false)
    (found : domainSets quality entries = .ok (innerSets, remaining)) :
    ∃ groups, entries = groups.flatten ++ remaining ∧ innerSets = groups.map leafSet ∧
      Level quality groups := by
  induction size : entries.length using Nat.strong_induction_on generalizing entries innerSets with
  | _ size ih =>
  subst size
  have none : ∃ groups : List (List (ValidatorEntry NodeID)),
      entries = groups.flatten ++ entries ∧ [] = groups.map leafSet ∧ Level quality groups :=
    ⟨[], rfl, rfl, by
      constructor
      · intro group absent
        cases absent
      · intro group absent
        cases absent
      · intro group absent
        cases absent
      · exact List.Pairwise.nil
      · intro _ group absent
        cases absent⟩
  cases entries with
  | nil =>
      rw [domainSets] at found
      cases found
      exact none
  | cons it rest =>
      by_cases current : it.mQuality = quality
      · obtain ⟨others, later, sets, collected, redundant, next, rfl⟩ := domainSets_ok current found
        obtain ⟨group, split, keys, alike, boundary⟩ := sameDomain_ok collected
        subst split keys
        have shorter : later.length < (it :: (group ++ later)).length := by
          rw [List.length_cons, List.length_append]
          omega
        have sublist : List.Sublist later (it :: (group ++ later)) :=
          (List.sublist_append_right group later).cons it
        have sublist' : List.Sublist (it :: later) (it :: (group ++ later)) :=
          (List.sublist_append_right group later).cons_cons it
        obtain ⟨groups, rfl, rfl, level⟩ := ih later.length shorter (sorted.sublist sublist) next rfl
        have members : ∀ entry ∈ it :: group,
            entry.mHomeDomain = it.mHomeDomain ∧ entry.mQuality = it.mQuality := by
          intro entry member
          rcases List.mem_cons.mp member with rfl | more
          · exact ⟨rfl, rfl⟩
          · exact alike entry more
        refine ⟨(it :: group) :: groups, ?_, rfl, ?_⟩
        · rw [List.flatten_cons, List.cons_append, List.cons_append, List.append_assoc]
        · constructor
          · intro set member
            rcases List.mem_cons.mp member with rfl | more
            · exact List.cons_ne_nil _ _
            · exact level.nonempty set more
          · intro set member
            rcases List.mem_cons.mp member with rfl | more
            · exact fun entry inside => (members entry inside).2.trans current
            · exact level.quality set more
          · intro set member
            rcases List.mem_cons.mp member with rfl | more
            · exact fun l inL r inR => (members l inL).1.trans (members r inR).1.symm
            · exact level.domain set more
          · refine List.pairwise_cons.mpr ⟨?_, level.apart⟩
            intro set more l inL r inR
            rw [(members l inL).1]
            refine domain_lt (sorted.sublist sublist') boundary ?_ ?_
            · exact List.mem_append_left _ (List.mem_flatten.mpr ⟨set, more, inR⟩)
            · exact (level.quality set more r inR).trans current.symm
          · intro high set member
            rcases List.mem_cons.mp member with rfl | more
            · by_contra few
              refine redundant ⟨?_, current.trans high⟩
              rw [List.length_cons, List.length_map]
              rw [List.length_cons] at few
              omega
            · exact level.redundant high set more
      · rw [domainSets, if_neg current] at found
        cases found
        exact none

theorem generateQuorumSetHelper_levels {quality : ValidatorQuality}
    {entries : List (ValidatorEntry NodeID)} {res : SCPQuorumSet NodeID}
    (sorted : entries.Pairwise fun l r => sortsBefore r l = false)
    (generated : generateQuorumSetHelper entries quality = .ok res) :
    Levels quality entries res := by
  induction level : quality.toInt using Nat.strong_induction_on
    generalizing quality entries res with
  | _ number ih =>
  subst level
  rw [generateQuorumSetHelper] at generated
  split at generated
  · cases generated
  · rename_i innerSets found
    cases generated
    obtain ⟨groups, rfl, rfl, level⟩ := domainSets_level sorted found
    have whole := Levels.last level
    rw [levelSet, List.append_nil] at whole
    rw [List.append_nil]
    exact whole
  · rename_i innerSets it remaining found
    split at generated
    · cases generated
    rename_i notAbove
    have below : it.mQuality < quality :=
      lt_of_le_of_ne (not_lt.mp notAbove) (domainSets_remaining found)
    obtain ⟨groups, rfl, rfl, level⟩ := domainSets_level sorted found
    cases lower : generateQuorumSetHelper (it :: remaining) it.mQuality with
    | error what =>
        rw [lower] at generated
        cases generated
    | ok lowQ =>
        rw [lower] at generated
        cases generated
        have rest := ih it.mQuality.toInt below
          (sorted.sublist (List.sublist_append_right _ _)) lower rfl
        exact Levels.lower level below rest

/-! ### Thresholds -/

theorem computeDefaultThreshold_majority (qset : SCPQuorumSet NodeID) (simpleMajority : Bool)
    (some' : 1 ≤ qset.validators.length + qset.innerSets.length)
    (fits : qset.validators.length + qset.innerSets.length < 2 ^ 32) :
    computeDefaultThreshold qset simpleMajority ≤
        qset.validators.length + qset.innerSets.length ∧
      qset.validators.length + qset.innerSets.length <
        2 * computeDefaultThreshold qset simpleMajority := by
  unfold computeDefaultThreshold
  rw [Nat.mod_eq_of_lt fits]
  dsimp only
  rw [if_neg (by omega)]
  split
  · omega
  · omega

theorem computeDefaultThreshold_one {qset : SCPQuorumSet NodeID} {simpleMajority : Bool}
    (one : (qset.validators.length + qset.innerSets.length) % 2 ^ 32 = 1) :
    computeDefaultThreshold qset simpleMajority = 1 := by
  unfold computeDefaultThreshold
  rw [one]
  dsimp only
  rw [if_neg (by decide)]
  split
  · rfl
  · rfl

theorem computeDefaultThreshold_lt (qset : SCPQuorumSet NodeID) (simpleMajority : Bool) :
    computeDefaultThreshold qset simpleMajority < 2 ^ 32 := by
  have wrapped : (qset.validators.length + qset.innerSets.length) % 2 ^ 32 < 2 ^ 32 :=
    Nat.mod_lt _ (Nat.two_pow_pos 32)
  unfold computeDefaultThreshold
  generalize (qset.validators.length + qset.innerSets.length) % 2 ^ 32 = topSize at wrapped
  dsimp only
  split
  · exact Nat.two_pow_pos 32
  · split
    · exact lt_of_le_of_lt (Nat.sub_le _ _) wrapped
    · exact lt_of_le_of_lt (Nat.sub_le _ _) wrapped

theorem computeDefaultThreshold_two {qset : SCPQuorumSet NodeID} {simpleMajority : Bool}
    (several : 2 ≤ qset.validators.length + qset.innerSets.length)
    (few : qset.validators.length + qset.innerSets.length < 2 ^ 32) :
    2 ≤ computeDefaultThreshold qset simpleMajority := by
  unfold computeDefaultThreshold
  rw [Nat.mod_eq_of_lt few]
  dsimp only
  rw [if_neg (by omega)]
  split
  · omega
  · omega

theorem leafSet_majority {group : List (ValidatorEntry NodeID)} (nonempty : group ≠ [])
    (fits : group.length < 2 ^ 32) : Majority (leafSet group) ∧ Fits (leafSet group) := by
  have positive := List.length_pos_of_ne_nil nonempty
  have keys : (group.map (·.mKey)).length = group.length := List.length_map _
  obtain ⟨reachable, half⟩ := computeDefaultThreshold_majority
    (.mk 0 (group.map (·.mKey)) []) true (by change 1 ≤ (group.map _).length + 0; omega)
    (by change (group.map _).length + 0 < _; omega)
  constructor
  · exact .mk reachable half fun inner absent => absurd absent List.not_mem_nil
  · refine .mk ?_ fun inner absent => absurd absent List.not_mem_nil
    refine lt_of_le_of_lt reachable ?_
    change (group.map _).length + 0 < _
    omega

theorem levelSet_majority {groups : List (List (ValidatorEntry NodeID))}
    {lower : List (SCPQuorumSet NodeID)} (some' : 1 ≤ groups.length + lower.length)
    (fits : groups.length + lower.length < 2 ^ 32)
    (groupsFit : ∀ group ∈ groups, group ≠ [] ∧ group.length < 2 ^ 32)
    (lowerFit : ∀ set ∈ lower, Majority set ∧ Fits set) :
    Majority (levelSet groups lower) ∧ Fits (levelSet groups lower) := by
  have size : (groups.map leafSet ++ lower).length = groups.length + lower.length := by
    rw [List.length_append, List.length_map]
  obtain ⟨reachable, half⟩ := computeDefaultThreshold_majority
    (.mk 0 [] (groups.map leafSet ++ lower)) false
    (by change 1 ≤ 0 + (groups.map leafSet ++ lower).length; omega)
    (by change 0 + (groups.map leafSet ++ lower).length < _; omega)
  have each : ∀ inner ∈ groups.map leafSet ++ lower, Majority inner ∧ Fits inner := by
    intro inner member
    rcases List.mem_append.mp member with leaf | low
    · obtain ⟨group, present, rfl⟩ := List.mem_map.mp leaf
      exact leafSet_majority (groupsFit group present).1 (groupsFit group present).2
    · exact lowerFit inner low
  constructor
  · exact .mk reachable half fun inner member => (each inner member).1
  · refine .mk ?_ fun inner member => (each inner member).2
    refine lt_of_le_of_lt reachable ?_
    change 0 + (groups.map leafSet ++ lower).length < _
    omega

theorem Level.length_le {quality : ValidatorQuality}
    {groups : List (List (ValidatorEntry NodeID))} (level : Level quality groups) :
    groups.length ≤ groups.flatten.length := by
  rw [List.length_flatten]
  have each : ∀ size ∈ groups.map List.length, 1 ≤ size := by
    intro size member
    obtain ⟨group, present, rfl⟩ := List.mem_map.mp member
    exact List.length_pos_of_ne_nil (level.nonempty group present)
  have many := List.length_le_sum_of_one_le _ each
  rwa [List.length_map] at many

theorem Level.group_le {groups : List (List (ValidatorEntry NodeID))}
    {group : List (ValidatorEntry NodeID)} (member : group ∈ groups) :
    group.length ≤ groups.flatten.length :=
  (List.sublist_flatten_of_mem member).length_le

theorem Levels.majority {quality : ValidatorQuality} {entries : List (ValidatorEntry NodeID)}
    {res : SCPQuorumSet NodeID} (levels : Levels quality entries res) (nonempty : entries ≠ [])
    (fits : entries.length < 2 ^ 32) : Majority res ∧ Fits res := by
  induction levels with
  | @last quality groups level =>
      have count := level.length_le
      apply levelSet_majority
      · change 1 ≤ groups.length
        refine Nat.pos_of_ne_zero fun none => nonempty ?_
        rw [List.length_eq_zero_iff.mp none]
        rfl
      · exact lt_of_le_of_lt count fits
      · intro group member
        exact ⟨level.nonempty group member, lt_of_le_of_lt (Level.group_le member) fits⟩
      · intro set absent
        cases absent
  | @lower quality groups it remaining lowQ level below rest ih =>
      have count := level.length_le
      rw [List.length_append, List.length_cons] at fits
      apply levelSet_majority
      · exact Nat.le_add_left 1 _
      · change groups.length + 1 < _
        omega
      · intro group member
        have small := Level.group_le member
        exact ⟨level.nonempty group member, by omega⟩
      · intro set member
        obtain rfl := List.mem_singleton.mp member
        exact ih (List.cons_ne_nil _ _) (by rw [List.length_cons]; omega)

theorem Levels.allNodes {quality : ValidatorQuality} {entries : List (ValidatorEntry NodeID)}
    {res : SCPQuorumSet NodeID} (levels : Levels quality entries res) :
    allNodes res = entries.map (·.mKey) := by
  have leaves : ∀ groups : List (List (ValidatorEntry NodeID)),
      (groups.map leafSet).flatMap SCP.allNodes = groups.flatten.map (·.mKey) := by
    intro groups
    rw [List.flatMap_map, List.map_flatten, List.flatMap_def]
    congr 1
    apply List.map_congr_left
    intro group member
    rw [leafSet, allNodes_mk, List.flatMap_nil, List.append_nil]
  induction levels with
  | last level =>
      rw [levelSet, allNodes_mk, List.nil_append, List.append_nil, leaves]
  | lower level below rest ih =>
      rw [levelSet, allNodes_mk, List.nil_append, List.flatMap_append, leaves,
        List.flatMap_singleton, ih, List.map_append]

theorem generateQuorumSet_levels [LinearOrder NodeID] {validators todo : List (ValidatorEntry NodeID)}
    {qSet : SCPQuorumSet NodeID} (sorts : SortsTo validators todo)
    (generated : generateQuorumSet todo = .ok qSet) :
    ∃ res, Levels VALIDATOR_HIGH_QUALITY todo res ∧ qSet = normalizeQSet res none := by
  unfold generateQuorumSet at generated
  cases found : generateQuorumSetHelper todo VALIDATOR_HIGH_QUALITY with
  | error what =>
      rw [found] at generated
      cases generated
  | ok res =>
      rw [found] at generated
      cases generated
      exact ⟨res, generateQuorumSetHelper_levels sorts.sorted found, rfl⟩

end Levels

end ViiCore.Config
