import ViiCore.Bucket.LedgerRanges

/-!
The size functions of the bucket list measure the ranges that the schedule leaves in it.
-/

namespace ViiCore.Bucket

theorem minus_of_le {left right : Nat} (below : right ≤ left) :
    minus left right = some (left - right) :=
  if_pos below

theorem plus_of_lt {left right : Nat} (fits : left + right < 2 ^ 32) :
    plus left right = some (left + right) :=
  if_pos fits

def currSize (ledger level : Nat) : Nat := newestInCurr ledger level - newestInSnap ledger level

def snapSize (ledger level : Nat) : Nat := newestInSnap ledger level - newestBelow ledger level

theorem newestInCurr_le (ledger level : Nat) : newestInCurr ledger level ≤ ledger := by
  induction level with
  | zero => exact le_rfl
  | succ level ih =>
      exact ((newestBelow_le ledger level).trans (newestInSnap_le ledger level)).trans ih

theorem previousRelevantLedger_eq {ledger level : Nat} (bound : ledger < 2 ^ 32)
    (used : level + 1 < kNumLevels) :
    previousRelevantLedger ledger (level + 1) = floorTo (levelHalf level) (ledger - 1) := by
  have small : ledger - 1 < 2 ^ 32 := by omega
  unfold previousRelevantLedger
  rw [Nat.add_sub_cancel, mask_levelHalf small (by omega), mask_levelSize small (by omega),
    mask_levelHalf small used, mask_levelSize small used]
  have size : floorTo (levelSize level) (ledger - 1) ≤ floorTo (levelHalf level) (ledger - 1) := by
    apply floorTo_le_of_dvd
    rw [levelSize_eq_double]
    exact Nat.dvd_mul_right _ _
  have half : floorTo (levelHalf (level + 1)) (ledger - 1) ≤
      floorTo (levelHalf level) (ledger - 1) := by
    apply floorTo_le_of_dvd
    rw [levelHalf_succ]
    exact Nat.dvd_mul_right _ _
  have nextSize : floorTo (levelSize (level + 1)) (ledger - 1) ≤
      floorTo (levelHalf level) (ledger - 1) := by
    apply floorTo_le_of_dvd
    rw [levelSize_eq_double, levelHalf_succ, Nat.mul_assoc]
    exact Nat.dvd_mul_right _ _
  rw [max_eq_left size]
  exact max_eq_left (max_le half nextSize)

theorem multiple_iff {ledger level : Nat} (bound : ledger < 2 ^ 32) (used : level < kNumLevels) :
    (mask ledger (levelHalf level) = ledger ∨ mask ledger (levelSize level) = ledger) ↔
      levelHalf level ∣ ledger := by
  rw [mask_levelHalf bound used, mask_levelSize bound used, floorTo_eq_self_iff, floorTo_eq_self_iff]
  constructor
  · intro multiple
    rcases multiple with half | size
    · exact half
    · rw [levelSize_eq_double] at size
      exact (Nat.dvd_mul_right _ _).trans size
  · exact Or.inl

theorem sizeDelta_eq (level : Nat) : 1 <<< (2 * (level + 1) - 1) = levelHalf level := by
  rw [levelHalf_eq, Nat.shiftLeft_eq, Nat.one_mul]
  congr 1

theorem currSize_succ {ledger level : Nat} (inner : level + 1 < kNumLevels - 1)
    (started : levelHalf (level + 1) ≤ ledger) :
    currSize ledger (level + 1) + floorTo (levelHalf (level + 1)) ledger =
      floorTo (levelHalf level) ledger + levelHalf level := by
  have half := lag_half level
  have quarter := levelHalf_succ level
  have cut : levelHalf (level + 1) ≤ floorTo (levelHalf (level + 1)) ledger := by
    have own := floorTo_of_dvd (Nat.dvd_refl (levelHalf (level + 1)))
    have grows := floorTo_mono (h := levelHalf (level + 1)) started
    omega
  have finer : floorTo (levelHalf (level + 1)) ledger ≤ floorTo (levelHalf level) ledger := by
    apply floorTo_le_of_dvd
    rw [levelHalf_succ]
    exact Nat.dvd_mul_right _ _
  unfold currSize newestInSnap
  change newestBelow ledger level - _ + _ = _
  unfold newestBelow
  rw [if_pos inner, if_pos (by omega), lag_succ]
  omega

/-- The last change of an inner level left it the same cut, and a shorter current bucket if the
level below it spills now. -/
theorem currSize_previous {ledger level : Nat} (inner : level + 1 < kNumLevels - 1)
    (started : levelHalf (level + 1) ≤ ledger) (notNow : ¬ levelHalf (level + 1) ∣ ledger) :
    levelHalf (level + 1) ≤ floorTo (levelHalf level) (ledger - 1) ∧
    currSize ledger (level + 1) = currSize (floorTo (levelHalf level) (ledger - 1)) (level + 1) +
      if levelHalf level ∣ ledger then levelHalf level else 0 := by
  obtain ⟨before, rfl⟩ : ∃ before, ledger = before + 1 := by
    have positive := levelHalf_pos (level + 1)
    exact ⟨ledger - 1, by omega⟩
  rw [Nat.add_sub_cancel]
  have stays := floorTo_succ notNow
  have divides : levelHalf level ∣ levelHalf (level + 1) := by
    rw [levelHalf_succ]
    exact Nat.dvd_mul_right _ _
  have startedBefore : levelHalf (level + 1) ≤ before := by
    rcases Nat.lt_or_eq_of_le started with earlier | now
    · omega
    · exact (notNow (by rw [← now])).elim
  -- the previous change lies between the last spill of the level and now
  have between : levelHalf (level + 1) ≤ floorTo (levelHalf level) before := by
    have own := floorTo_of_dvd divides
    have grows := floorTo_mono (h := levelHalf level) startedBefore
    omega
  refine ⟨between, ?_⟩
  have now := currSize_succ inner started
  have previous := currSize_succ inner between
  have ownFloor : floorTo (levelHalf level) (floorTo (levelHalf level) before) =
      floorTo (levelHalf level) before := floorTo_of_dvd (dvd_floorTo _ _)
  have coarseFloor : floorTo (levelHalf (level + 1)) (floorTo (levelHalf level) before) =
      floorTo (levelHalf (level + 1)) before := by
    apply Nat.le_antisymm
    · exact floorTo_mono (floorTo_le _ _)
    · have own := floorTo_of_dvd (dvd_floorTo (levelHalf (level + 1)) before)
      have grows := floorTo_mono (h := levelHalf (level + 1))
        (floorTo_le_of_dvd (n := before) divides)
      omega
  rw [ownFloor, coarseFloor] at previous
  rw [stays] at now
  by_cases spills : levelHalf level ∣ before + 1
  · rw [if_pos spills]
    have whole := floorTo_of_dvd spills
    have step := floorTo_before spills
    omega
  · rw [if_neg spills]
    have same := floorTo_succ spills
    omega

theorem sizeOfCurr_inner {ledger level : Nat} (bound : ledger < 2 ^ 32)
    (inner : level + 1 < kNumLevels - 1) (started : levelHalf (level + 1) ≤ ledger) :
    sizeOfCurr ledger (level + 1) = some (currSize ledger (level + 1)) := by
  -- the recursion goes back from change to change, and stays after the first spill of the level
  induction ledger using Nat.strong_induction_on with
  | _ ledger ih =>
      have positive := levelHalf_pos (level + 1)
      have masked : mask ledger (levelHalf (level + 1)) ≠ 0 := by
        rw [mask_levelHalf bound (by omega)]
        intro zero
        have small := (floorTo_eq_zero_iff positive).mp zero
        omega
      unfold sizeOfCurr
      rw [dif_neg (by omega), if_neg (by omega), if_neg (by omega),
        if_pos ⟨by omega, masked⟩]
      simp only [sizeDelta_eq, multiple_iff bound (show level + 1 < kNumLevels by omega),
        multiple_iff bound (show level < kNumLevels by omega), Nat.add_sub_cancel,
        previousRelevantLedger_eq bound (show level + 1 < kNumLevels by omega)]
      by_cases now : levelHalf (level + 1) ∣ ledger
      · rw [if_pos now]
        have whole := floorTo_of_dvd now
        have finer : levelHalf level ∣ ledger := by
          rw [levelHalf_succ] at now
          exact (Nat.dvd_mul_right _ _).trans now
        have finerWhole := floorTo_of_dvd finer
        have size := currSize_succ inner started
        rw [whole, finerWhole] at size
        congr 1
        omega
      · obtain ⟨stillStarted, size⟩ := currSize_previous inner started now
        have earlier : floorTo (levelHalf level) (ledger - 1) < ledger := by
          have below := floorTo_le (levelHalf level) (ledger - 1)
          omega
        have previous := ih _ earlier (by omega) stillStarted
        rw [if_neg now, previous]
        by_cases spills : levelHalf level ∣ ledger
        · rw [if_pos spills] at size
          rw [if_pos spills]
          change plus _ _ = _
          have within : currSize ledger (level + 1) ≤ ledger :=
            (Nat.sub_le _ _).trans (newestInCurr_le ledger (level + 1))
          rw [plus_of_lt (by omega), size]
        · rw [if_neg spills] at size
          rw [if_neg spills, size]
          rfl

theorem sizeOfCurr_outer {ledger level : Nat} (positive : 0 < ledger) (bound : ledger < 2 ^ 32)
    (used : level + 1 < kNumLevels)
    (outer : ¬ (level + 1 < kNumLevels - 1 ∧ levelHalf (level + 1) ≤ ledger))
    (lower : sizeOfLevels ledger (level + 1) = some (ledger - newestInCurr ledger (level + 1))) :
    sizeOfCurr ledger (level + 1) = some (currSize ledger (level + 1)) := by
  have unmasked : ¬ (level + 1 ≠ kNumLevels - 1 ∧ mask ledger (levelHalf (level + 1)) ≠ 0) := by
    rw [mask_levelHalf bound used]
    intro both
    apply outer
    refine ⟨by omega, ?_⟩
    by_contra early
    exact both.2 ((floorTo_eq_zero_iff (levelHalf_pos _)).mpr (not_le.mp early))
  have noSnap : newestInSnap ledger (level + 1) = 0 := by
    unfold newestInSnap
    split
    · rename_i inner
      have early : ledger < levelHalf (level + 1) := not_le.mp fun started => outer ⟨inner, started⟩
      rw [(floorTo_eq_zero_iff (levelHalf_pos _)).mpr early, Nat.zero_sub]
    · rfl
  have within := newestInCurr_le ledger (level + 1)
  unfold sizeOfCurr
  rw [dif_neg (by omega), if_neg (by omega), if_neg (by omega), if_neg unmasked, lower]
  change minus _ _ = _
  rw [minus_of_le (Nat.sub_le _ _)]
  unfold currSize
  rw [noSnap]
  congr 1
  omega

theorem sizeOfCurr_top {ledger : Nat} (positive : 0 < ledger) :
    sizeOfCurr ledger 0 = some (currSize ledger 0) := by
  unfold sizeOfCurr
  rw [dif_neg (by omega), if_neg (by decide), if_pos rfl]
  congr 1
  have half : levelHalf 0 = 2 := rfl
  have first : lag 0 = 1 := rfl
  have inner : 0 < kNumLevels - 1 := by decide
  unfold currSize newestInSnap floorTo
  change _ = ledger - _
  rw [if_pos inner, half, first]
  split <;> omega

theorem sizeOfCurr_eq {ledger level : Nat} (positive : 0 < ledger) (bound : ledger < 2 ^ 32)
    (used : level < kNumLevels)
    (lower : sizeOfLevels ledger level = some (ledger - newestInCurr ledger level)) :
    sizeOfCurr ledger level = some (currSize ledger level) := by
  cases level with
  | zero => exact sizeOfCurr_top positive
  | succ level =>
      by_cases inner : level + 1 < kNumLevels - 1 ∧ levelHalf (level + 1) ≤ ledger
      · exact sizeOfCurr_inner bound inner.1 inner.2
      · exact sizeOfCurr_outer positive bound used inner lower

theorem sizeOfSnap_eq {ledger level : Nat} (positive : 0 < ledger) (bound : ledger < 2 ^ 32)
    (used : level < kNumLevels)
    (lower : sizeOfLevels ledger level = some (ledger - newestInCurr ledger level)) :
    sizeOfSnap ledger level = some (snapSize ledger level) := by
  have halfPositive := levelHalf_pos level
  have double := levelSize_eq_double level
  have half := lag_half level
  have currWithin := newestInCurr_le ledger level
  have snapWithin := newestInSnap_le ledger level
  unfold sizeOfSnap
  rw [if_neg (by omega), if_neg (by omega), mask_levelSize bound used]
  by_cases last : level = kNumLevels - 1
  · rw [if_pos last]
    unfold snapSize
    rw [last, (newest_last ledger).2, Nat.zero_sub]
  · rw [if_neg last]
    by_cases full : levelSize level ≤ ledger
    · have cut : levelSize level ≤ floorTo (levelHalf level) ledger := by
        have own := floorTo_of_dvd (h := levelHalf level) (n := levelSize level) ⟨2, double⟩
        have grows := floorTo_mono (h := levelHalf level) full
        omega
      have masked : floorTo (levelSize level) ledger ≠ 0 := by
        intro zero
        have small := (floorTo_eq_zero_iff (by omega)).mp zero
        omega
      rw [if_pos masked]
      unfold snapSize newestInSnap newestBelow
      rw [if_pos (by omega), if_pos (by omega)]
      congr 1
      omega
    · have unmasked : ¬ floorTo (levelSize level) ledger ≠ 0 :=
        not_not.mpr ((floorTo_eq_zero_iff (by omega)).mpr (not_le.mp full))
      have noBelow : newestBelow ledger level = 0 := by
        unfold newestBelow
        rw [if_pos (by omega)]
        -- at most one spill so far
        obtain ⟨count, is⟩ := dvd_floorTo (levelHalf level) ledger
        have below := floorTo_le (levelHalf level) ledger
        have few : count < 2 := by
          by_contra many
          have twice := Nat.mul_le_mul_left (levelHalf level) (not_lt.mp many)
          omega
        have atMost : floorTo (levelHalf level) ledger ≤ levelHalf level := by
          rw [is]
          exact (Nat.mul_le_mul_left _ (Nat.le_of_lt_succ few)).trans_eq (Nat.mul_one _)
        omega
      rw [if_neg unmasked, lower, sizeOfCurr_eq positive bound used lower]
      change (do minus ledger (← plus _ _)) = _
      unfold currSize
      rw [plus_of_lt (by omega)]
      change minus _ _ = _
      rw [minus_of_le (by omega)]
      unfold snapSize
      rw [noBelow]
      congr 1
      omega

theorem sizeOfLevels_eq {ledger : Nat} (positive : 0 < ledger) (bound : ledger < 2 ^ 32) (level : Nat)
    (used : level ≤ kNumLevels) :
    sizeOfLevels ledger level = some (ledger - newestInCurr ledger level) := by
  induction level with
  | zero =>
      unfold sizeOfLevels
      change some 0 = some (ledger - ledger)
      rw [Nat.sub_self]
  | succ level ih =>
      have lower := ih (by omega)
      have currWithin := newestInCurr_le ledger level
      have snapWithin := newestInSnap_le ledger level
      have belowWithin := newestBelow_le ledger level
      unfold sizeOfLevels
      rw [lower, sizeOfCurr_eq positive bound used lower, sizeOfSnap_eq positive bound used lower]
      change (do plus (← plus _ _) _) = some (ledger - newestBelow ledger level)
      unfold currSize snapSize
      rw [plus_of_lt (by omega)]
      change plus _ _ = _
      rw [plus_of_lt (by omega)]
      congr 1
      omega

theorem countAbove_eq {ledger : Nat} (positive : 0 < ledger) (bound : ledger < 2 ^ 32) (level : Nat)
    (used : level ≤ kNumLevels) : countAbove ledger level = some (newestInCurr ledger level) := by
  induction level with
  | zero => rfl
  | succ level ih =>
      have lower := sizeOfLevels_eq positive bound level (by omega)
      have snapWithin := newestInSnap_le ledger level
      have belowWithin := newestBelow_le ledger level
      unfold countAbove
      rw [ih (by omega), sizeOfCurr_eq positive bound used lower,
        sizeOfSnap_eq positive bound used lower]
      change (do minus (← minus _ _) _) = some (newestBelow ledger level)
      unfold currSize snapSize
      rw [minus_of_le (by omega)]
      change minus _ _ = _
      rw [minus_of_le (by omega)]
      congr 1
      omega

/-- A range of ledgers, given by its size and its oldest ledger. One that is empty may start
anywhere. -/
theorem ledgers_of_size {low high oldest size : Nat} (counted : size = high - low)
    (starts : size = 0 ∨ oldest = low + 1) :
    Finset.Ioc low high = Finset.Ico oldest (oldest + size) := by
  rcases starts with empty | first
  · rw [empty, Finset.Ico_eq_empty (by omega), Finset.Ioc_eq_empty (by omega)]
  · ext current
    rw [Finset.mem_Ioc, Finset.mem_Ico]
    omega

theorem oldestLedgerInCurr_range {ledger level : Nat} (positive : 0 < ledger)
    (bound : ledger < 2 ^ 32) (used : level < kNumLevels) :
    ∃ size oldest, sizeOfCurr ledger level = some size ∧
      oldestLedgerInCurr ledger level = some oldest ∧
      Finset.Ioc (newestInSnap ledger level) (newestInCurr ledger level) =
        Finset.Ico oldest (oldest + size) := by
  have lower := sizeOfLevels_eq positive bound level used.le
  have size := sizeOfCurr_eq positive bound used lower
  have currWithin := newestInCurr_le ledger level
  have snapWithin := newestInSnap_le ledger level
  by_cases empty : currSize ledger level = 0
  · refine ⟨_, 2 ^ 32 - 1, size, ?_, ?_⟩
    · unfold oldestLedgerInCurr
      rw [size]
      exact if_pos empty
    · exact ledgers_of_size rfl (.inl empty)
  · refine ⟨_, newestInSnap ledger level + 1, size, ?_, ?_⟩
    · unfold oldestLedgerInCurr
      rw [size]
      change (if _ then _ else _) = _
      rw [if_neg empty, countAbove_eq positive bound level used.le]
      change (do plus (← minus _ _) 1) = _
      unfold currSize at empty ⊢
      rw [minus_of_le (by omega)]
      change plus _ _ = _
      rw [plus_of_lt (by omega)]
      congr 1
      omega
    · exact ledgers_of_size rfl (.inr rfl)

theorem oldestLedgerInSnap_range {ledger level : Nat} (positive : 0 < ledger)
    (bound : ledger < 2 ^ 32) (used : level < kNumLevels) :
    ∃ size oldest, sizeOfSnap ledger level = some size ∧
      oldestLedgerInSnap ledger level = some oldest ∧
      Finset.Ioc (newestBelow ledger level) (newestInSnap ledger level) =
        Finset.Ico oldest (oldest + size) := by
  have lower := sizeOfLevels_eq positive bound level used.le
  have size := sizeOfSnap_eq positive bound used lower
  have currWithin := newestInCurr_le ledger level
  have snapWithin := newestInSnap_le ledger level
  have belowWithin := newestBelow_le ledger level
  by_cases empty : snapSize ledger level = 0
  · refine ⟨_, 2 ^ 32 - 1, size, ?_, ?_⟩
    · unfold oldestLedgerInSnap
      rw [size]
      exact if_pos empty
    · exact ledgers_of_size rfl (.inl empty)
  · refine ⟨_, newestBelow ledger level + 1, size, ?_, ?_⟩
    · unfold oldestLedgerInSnap
      rw [size]
      change (if _ then _ else _) = _
      rw [if_neg empty, countAbove_eq positive bound (level + 1) used]
      change plus (newestBelow ledger level) 1 = _
      unfold snapSize at empty
      exact plus_of_lt (by omega)
    · exact ledgers_of_size rfl (.inr rfl)

theorem shadows_partition {ledger : Nat} {list : BucketList (Finset Nat)} (listAt : ListAt ledger list)
    (level : Nat) (used : level ≤ kNumLevels) :
    (list.shadows level).Pairwise Disjoint ∧
      ∀ current, (∃ bucket ∈ list.shadows level, current ∈ bucket) ↔
        newestInCurr ledger level < current ∧ current ≤ ledger := by
  induction level with
  | zero =>
      constructor
      · exact List.Pairwise.nil
      · intro current
        change (∃ bucket ∈ [], current ∈ bucket) ↔ ledger < current ∧ current ≤ ledger
        constructor
        · rintro ⟨bucket, impossible, _⟩
          cases impossible
        · intro both
          omega
  | succ level ih =>
      obtain ⟨disjoint, covers⟩ := ih (by omega)
      have here := listAt level used
      have currWithin := newestInCurr_le ledger level
      have snapWithin := newestInSnap_le ledger level
      have belowWithin := newestBelow_le ledger level
      have buckets : list.shadows (level + 1) =
          list.shadows level ++ [(list.mLevels level).mCurr, (list.mLevels level).mSnap] := by
        unfold BucketList.shadows
        rw [List.range_succ, List.flatMap_append, List.flatMap_singleton]
      have inCurr : ∀ current, current ∈ (list.mLevels level).mCurr ↔
          newestInSnap ledger level < current ∧ current ≤ newestInCurr ledger level := by
        intro current
        rw [here.curr, Finset.mem_Ioc]
      have inSnap : ∀ current, current ∈ (list.mLevels level).mSnap ↔
          newestBelow ledger level < current ∧ current ≤ newestInSnap ledger level := by
        intro current
        rw [here.snap, Finset.mem_Ioc]
      rw [buckets]
      constructor
      · apply List.pairwise_append.mpr
        refine ⟨disjoint, ?_, ?_⟩
        · apply List.pairwise_pair.mpr
          apply Finset.disjoint_left.mpr
          intro current left right
          have leftAt := (inCurr current).mp left
          have rightAt := (inSnap current).mp right
          omega
        · intro upper member lower lowerMember
          apply Finset.disjoint_left.mpr
          intro current left right
          have leftAt := (covers current).mp ⟨upper, member, left⟩
          rcases List.mem_pair.mp lowerMember with rfl | rfl
          · have rightAt := (inCurr current).mp right
            omega
          · have rightAt := (inSnap current).mp right
            omega
      · intro current
        change _ ↔ newestBelow ledger level < current ∧ current ≤ ledger
        constructor
        · rintro ⟨bucket, member, inside⟩
          rcases List.mem_append.mp member with upper | lower
          · have at_ := (covers current).mp ⟨bucket, upper, inside⟩
            omega
          · rcases List.mem_pair.mp lower with rfl | rfl
            · have at_ := (inCurr current).mp inside
              omega
            · have at_ := (inSnap current).mp inside
              omega
        · intro at_
          by_cases upper : newestInCurr ledger level < current
          · obtain ⟨bucket, member, inside⟩ := (covers current).mpr ⟨upper, at_.2⟩
            exact ⟨bucket, List.mem_append_left _ member, inside⟩
          · by_cases inner : newestInSnap ledger level < current
            · exact ⟨_, List.mem_append_right _ (List.mem_pair.mpr (.inl rfl)),
                (inCurr current).mpr ⟨inner, by omega⟩⟩
            · exact ⟨_, List.mem_append_right _ (List.mem_pair.mpr (.inr rfl)),
                (inSnap current).mpr ⟨by omega, by omega⟩⟩

/-- A bucket covers a range of ledgers of the given size, from the given oldest one on. -/
def Covers (bucket : Finset Nat) (size oldest : Option Nat) : Prop :=
  ∃ count first, size = some count ∧ oldest = some first ∧
    bucket = Finset.Ico first (first + count)

/-- After the batches of the ledgers 1 to `ledger`, every bucket covers the range that the size
functions give for it, without wrapping, and the ranges are a partition of the ledgers. -/
theorem addBatches_covers (protocol : Nat → Nat) (ledger : Nat) (positive : 0 < ledger)
    (bound : ledger < 2 ^ 32) :
    ∃ list, BucketList.addBatches ledgerSets protocol (fun current => { current }) ledger = some list ∧
      (∀ level, level < kNumLevels →
        Covers (list.mLevels level).mCurr (sizeOfCurr ledger level)
          (oldestLedgerInCurr ledger level) ∧
        Covers (list.mLevels level).mSnap (sizeOfSnap ledger level)
          (oldestLedgerInSnap ledger level)) ∧
      (list.shadows kNumLevels).Pairwise Disjoint ∧
      ∀ current, (∃ bucket ∈ list.shadows kNumLevels, current ∈ bucket) ↔
        1 ≤ current ∧ current ≤ ledger := by
  obtain ⟨list, ran, listAt⟩ := addBatches_listAt protocol ledger bound
  obtain ⟨disjoint, covers⟩ := shadows_partition listAt kNumLevels le_rfl
  have nothingBelow : newestInCurr ledger kNumLevels = 0 := (newest_last ledger).1
  refine ⟨list, ran, ?_, disjoint, ?_⟩
  · intro level used
    constructor
    · obtain ⟨size, oldest, sizeIs, oldestIs, range⟩ := oldestLedgerInCurr_range positive bound used
      exact ⟨size, oldest, sizeIs, oldestIs, (listAt level used).curr.trans range⟩
    · obtain ⟨size, oldest, sizeIs, oldestIs, range⟩ := oldestLedgerInSnap_range positive bound used
      exact ⟨size, oldest, sizeIs, oldestIs, (listAt level used).snap.trans range⟩
  · intro current
    rw [covers current, nothingBelow]
    exact Iff.rfl

/-- Seven ledgers: the snapshot of level 0 holds ledgers 4 and 5. -/
theorem addBatches_covers_seven :
    ∃ list, BucketList.addBatches ledgerSets (fun _ => 11) (fun current => { current }) 7 = some list ∧
      (list.mLevels 0).mSnap = { 4, 5 } := by
  obtain ⟨list, ran, ranges, _⟩ := addBatches_covers (fun _ => 11) 7 (by decide) (by decide)
  obtain ⟨count, first, size, oldest, bucket⟩ := (ranges 0 (by decide)).2
  refine ⟨list, ran, ?_⟩
  have sizeIs : sizeOfSnap 7 0 = some 2 := by
    simp [sizeOfSnap, kNumLevels, mask, levelSize, levelHalf]
  have oldestIs : oldestLedgerInSnap 7 0 = some 4 := by
    simp [oldestLedgerInSnap, countAbove, sizeOfSnap, sizeOfCurr, kNumLevels, mask, levelSize,
      levelHalf, minus, plus]
  rw [sizeIs] at size
  rw [oldestIs] at oldest
  cases size
  cases oldest
  rw [bucket]
  decide

end ViiCore.Bucket
