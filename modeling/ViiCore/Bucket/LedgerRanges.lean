import Mathlib.Order.Interval.Finset.Nat
import Mathlib.Tactic.NormNum
import ViiCore.Bucket.BucketList

/-!
Which ledgers each bucket covers.

A level changes at the multiples of half its size only. Cutting the ledgers at the last such
multiples, shifted by a fixed offset for each level, gives the content of every bucket; the
spill schedule moves the cuts as a batch does, and the size functions measure them.
-/

namespace ViiCore.Bucket

/-! ### Multiples -/

/-- The last multiple of `h` that is not above `n`. -/
def floorTo (h n : Nat) : Nat := n / h * h

theorem floorTo_le (h n : Nat) : floorTo h n ≤ n := Nat.div_mul_le_self n h

theorem lt_floorTo_add {h : Nat} (positive : 0 < h) (n : Nat) : n < floorTo h n + h := by
  have cut := Nat.div_add_mod n h
  have small := Nat.mod_lt n positive
  unfold floorTo
  rw [Nat.mul_comm] at cut
  omega

theorem dvd_floorTo (h n : Nat) : h ∣ floorTo h n := Nat.dvd_mul_left h _

theorem floorTo_of_dvd {h n : Nat} (divides : h ∣ n) : floorTo h n = n :=
  Nat.div_mul_cancel divides

theorem floorTo_eq_self_iff {h n : Nat} : floorTo h n = n ↔ h ∣ n := by
  constructor
  · intro same
    rw [← same]
    exact dvd_floorTo h n
  · exact floorTo_of_dvd

theorem floorTo_succ {h n : Nat} (not : ¬ h ∣ n + 1) : floorTo h (n + 1) = floorTo h n := by
  unfold floorTo
  rw [Nat.succ_div_of_not_dvd not]

theorem floorTo_before {h n : Nat} (divides : h ∣ n + 1) :
    floorTo h n + h = n + 1 := by
  unfold floorTo
  have next := Nat.succ_div_of_dvd divides
  have whole := Nat.div_mul_cancel divides
  rw [next, Nat.succ_mul] at whole
  exact whole

theorem floorTo_mono {h n m : Nat} (below : n ≤ m) : floorTo h n ≤ floorTo h m :=
  Nat.mul_le_mul_right h (Nat.div_le_div_right below)

theorem floorTo_le_of_dvd {h coarse n : Nat} (divides : h ∣ coarse) :
    floorTo coarse n ≤ floorTo h n := by
  have own : floorTo h (floorTo coarse n) = floorTo coarse n :=
    floorTo_of_dvd (divides.trans (dvd_floorTo coarse n))
  rw [← own]
  exact floorTo_mono (floorTo_le coarse n)

theorem floorTo_eq_zero_iff {h n : Nat} (positive : 0 < h) : floorTo h n = 0 ↔ n < h := by
  constructor
  · intro zero
    have bound := lt_floorTo_add positive n
    omega
  · intro small
    unfold floorTo
    rw [Nat.div_eq_of_lt small, Nat.zero_mul]

theorem mask_eq {v k : Nat} (bound : v < 2 ^ 32) (width : k < 32) :
    mask v (2 ^ k) = floorTo (2 ^ k) v := by
  have low : BitVec.ofNat 32 (2 ^ k) - 1 = BitVec.ofNat 32 (2 ^ k - 1) := by
    apply BitVec.eq_of_toNat_eq
    have power : 2 ^ k < 2 ^ 32 := Nat.pow_lt_pow_right (by norm_num) width
    have positive : 0 < 2 ^ k := Nat.two_pow_pos k
    have one : BitVec.toNat (1 : BitVec 32) = 1 := rfl
    rw [BitVec.toNat_sub, BitVec.toNat_ofNat, BitVec.toNat_ofNat, one]
    generalize 2 ^ k = p at power positive
    omega
  unfold mask floorTo
  rw [low]
  apply Nat.eq_of_testBit_eq
  intro i
  rw [← BitVec.getLsbD, BitVec.getLsbD_and, BitVec.getLsbD_not, BitVec.getLsbD_ofNat,
    BitVec.getLsbD_ofNat, Nat.testBit_two_pow_sub_one, Nat.mul_comm, Nat.testBit_two_pow_mul,
    ← Nat.shiftRight_eq_div_pow, Nat.testBit_shiftRight]
  by_cases large : i < 32
  · by_cases above : k ≤ i
    · simp [large, above, Nat.not_lt.mpr above]
    · simp [large, above, Nat.not_le.mp above]
  · have zero : v.testBit i = false :=
      Nat.testBit_lt_two_pow (bound.trans_le (Nat.pow_le_pow_right (by norm_num) (by omega)))
    by_cases above : k ≤ i
    · simp [large, above, zero]
    · omega

/-! ### Cuts -/

theorem levelSize_eq (level : Nat) : levelSize level = 2 ^ (2 * level + 2) := by
  unfold levelSize
  rw [Nat.shiftLeft_eq, Nat.one_mul, Nat.mul_add]

theorem levelHalf_eq (level : Nat) : levelHalf level = 2 ^ (2 * level + 1) := by
  unfold levelHalf
  rw [levelSize_eq, Nat.shiftRight_one, Nat.pow_succ]
  exact Nat.mul_div_cancel _ (by norm_num)

theorem levelHalf_pos (level : Nat) : 0 < levelHalf level := by
  rw [levelHalf_eq]
  exact Nat.two_pow_pos _

theorem levelSize_eq_double (level : Nat) : levelSize level = levelHalf level * 2 := by
  rw [levelSize_eq, levelHalf_eq, Nat.pow_succ]

theorem levelHalf_succ (level : Nat) : levelHalf (level + 1) = levelHalf level * 4 := by
  rw [levelHalf_eq, levelHalf_eq]
  have exponent : 2 * (level + 1) + 1 = 2 * level + 1 + 2 := by omega
  rw [exponent, Nat.pow_add]

theorem mask_levelHalf {ledger level : Nat} (bound : ledger < 2 ^ 32) (used : level < kNumLevels) :
    mask ledger (levelHalf level) = floorTo (levelHalf level) ledger := by
  unfold kNumLevels at used
  rw [levelHalf_eq]
  exact mask_eq bound (by omega)

theorem mask_levelSize {ledger level : Nat} (bound : ledger < 2 ^ 32) (used : level < kNumLevels) :
    mask ledger (levelSize level) = floorTo (levelSize level) ledger := by
  unfold kNumLevels at used
  rw [levelSize_eq]
  exact mask_eq bound (by omega)

theorem levelShouldSpill_iff {ledger level : Nat} (bound : ledger < 2 ^ 32)
    (used : level < kNumLevels) :
    levelShouldSpill ledger level = true ↔ level < kNumLevels - 1 ∧ levelHalf level ∣ ledger := by
  unfold levelShouldSpill
  rw [mask_levelHalf bound used, mask_levelSize bound used]
  have coarse : levelSize level ∣ ledger → levelHalf level ∣ ledger := by
    intro divides
    rw [levelSize_eq_double] at divides
    exact (Nat.dvd_mul_right _ _).trans divides
  by_cases last : level = kNumLevels - 1
  · rw [if_pos last]
    constructor
    · intro impossible
      cases impossible
    · intro spills
      omega
  · rw [if_neg last, decide_eq_true_eq, eq_comm, floorTo_eq_self_iff, eq_comm, floorTo_eq_self_iff]
    constructor
    · intro multiple
      refine ⟨by omega, ?_⟩
      rcases multiple with half | size
      · exact half
      · exact coarse size
    · exact fun spills => .inl spills.2

/-- How far the newest ledger of a snapshot lies behind the ledger at which it was taken. -/
def lag : Nat → Nat
  | 0 => 1
  | level + 1 => 4 * lag level + 1

theorem lag_succ (level : Nat) : lag (level + 1) = 4 * lag level + 1 := rfl

theorem lag_half (level : Nat) : 3 * lag level + 1 = 2 * levelHalf level := by
  induction level with
  | zero => rfl
  | succ level ih =>
      rw [levelHalf_succ, lag_succ]
      omega

def newestInSnap (ledger level : Nat) : Nat :=
  if level < kNumLevels - 1 then floorTo (levelHalf level) ledger - lag level else 0

def newestBelow (ledger level : Nat) : Nat :=
  if level < kNumLevels - 1 then floorTo (levelHalf level) ledger - levelHalf level - lag level
  else 0

def newestInCurr (ledger : Nat) : Nat → Nat
  | 0 => ledger
  | level + 1 => newestBelow ledger level

theorem newestBelow_le (ledger level : Nat) : newestBelow ledger level ≤ newestInSnap ledger level := by
  unfold newestBelow newestInSnap
  split <;> omega

theorem newestInSnap_le (ledger level : Nat) : newestInSnap ledger level ≤ newestInCurr ledger level := by
  cases level with
  | zero =>
      change newestInSnap ledger 0 ≤ ledger
      unfold newestInSnap
      have bound := floorTo_le (levelHalf 0) ledger
      split <;> omega
  | succ level =>
      change newestInSnap ledger (level + 1) ≤ newestBelow ledger level
      unfold newestInSnap newestBelow
      have finer : floorTo (levelHalf (level + 1)) ledger ≤ floorTo (levelHalf level) ledger := by
        apply floorTo_le_of_dvd
        rw [levelHalf_succ]
        exact Nat.dvd_mul_right _ _
      have half := lag_half level
      rw [lag_succ]
      split
      · rw [if_pos (by omega)]
        omega
      · exact Nat.zero_le _

theorem cuts_stay {ledger level : Nat} (not : ¬ levelHalf level ∣ ledger + 1) :
    newestBelow (ledger + 1) level = newestBelow ledger level ∧
      newestInSnap (ledger + 1) level = newestInSnap ledger level := by
  unfold newestBelow newestInSnap
  rw [floorTo_succ not]
  exact ⟨rfl, rfl⟩

theorem cuts_move {ledger level : Nat} (used : level < kNumLevels - 1)
    (divides : levelHalf level ∣ ledger + 1) :
    newestBelow (ledger + 1) level = newestInSnap ledger level ∧
      newestInSnap (ledger + 1) level = newestInCurr ledger level := by
  have whole := floorTo_of_dvd divides
  have before := floorTo_before divides
  constructor
  · unfold newestBelow newestInSnap
    rw [if_pos used, if_pos used, whole]
    omega
  · cases level with
    | zero =>
        unfold newestInSnap newestInCurr
        rw [if_pos used, whole]
        rfl
    | succ level =>
        have finer : levelHalf level ∣ ledger + 1 := by
          rw [levelHalf_succ] at divides
          exact (Nat.dvd_mul_right _ _).trans divides
        have finerBefore := floorTo_before finer
        have half := lag_half level
        change newestInSnap (ledger + 1) (level + 1) = newestBelow ledger level
        unfold newestInSnap newestBelow
        rw [if_pos used, if_pos (by omega), whole, lag_succ]
        omega

/-! ### The schedule -/

def ledgerSets : Merger (Finset Nat) where
  empty := ∅
  merge next := some (next.mInputCurrBucket ∪ next.mInputSnapBucket)

/-- Whether the current bucket of the next level will have been emptied when the merge that is
under way is committed. -/
def EmptiedNext (ledger level : Nat) : Prop :=
  level + 1 < kNumLevels - 1 ∧
    levelHalf (level + 1) ∣ floorTo (levelHalf level) ledger + levelHalf level

instance (ledger level : Nat) : Decidable (EmptiedNext ledger level) := by
  unfold EmptiedNext
  infer_instance

/-- Below the oldest ledger of the merge under way into the next level. -/
def mergeStart (ledger level : Nat) : Nat :=
  if EmptiedNext ledger level then newestBelow ledger level else newestInSnap ledger (level + 1)

theorem mergeStart_le (ledger level : Nat) : mergeStart ledger level ≤ newestBelow ledger level := by
  unfold mergeStart
  split
  · exact le_rfl
  · exact newestInSnap_le ledger (level + 1)

/-- The merge under way into the next level: none before the level has spilled for the first
time. -/
def PendingInto (ledger level : Nat) (next : Option (FutureBucket (Finset Nat))) : Prop :=
  if ledger < levelHalf level then next = none
  else ∃ inputs, next = some inputs ∧
    inputs.mInputCurrBucket = Finset.Ioc (mergeStart ledger level) (newestBelow ledger level) ∧
    inputs.mInputSnapBucket = Finset.Ioc (newestBelow ledger level) (newestInSnap ledger level)

def Pending (ledger : Nat) : Nat → Option (FutureBucket (Finset Nat)) → Prop
  | 0, next => next = none
  | level + 1, next => PendingInto ledger level next

structure LevelAt (ledger i : Nat) (level : BucketLevel (Finset Nat)) : Prop where
  number : level.mLevel = i
  curr : level.mCurr = Finset.Ioc (newestInSnap ledger i) (newestInCurr ledger i)
  snap : level.mSnap = Finset.Ioc (newestBelow ledger i) (newestInSnap ledger i)
  next : Pending ledger i level.mNextCurr

def Spills (ledger i : Nat) : Prop := i < kNumLevels - 1 ∧ levelHalf i ∣ ledger + 1

instance (ledger i : Nat) : Decidable (Spills ledger i) := by
  unfold Spills
  infer_instance

/-- A level in the next batch, when it has been emptied if it spills and has not been changed
otherwise. -/
structure SnappedAt (ledger i : Nat) (level : BucketLevel (Finset Nat)) : Prop where
  number : level.mLevel = i
  curr : level.mCurr = if Spills ledger i then ∅ else
    Finset.Ioc (newestInSnap ledger i) (newestInCurr ledger i)
  snap : level.mSnap = Finset.Ioc (newestBelow (ledger + 1) i) (newestInSnap (ledger + 1) i)
  next : Pending ledger i level.mNextCurr

theorem newest_last (ledger : Nat) :
    newestBelow ledger (kNumLevels - 1) = 0 ∧ newestInSnap ledger (kNumLevels - 1) = 0 := by
  unfold newestBelow newestInSnap
  rw [if_neg (lt_irrefl _), if_neg (lt_irrefl _)]
  exact ⟨rfl, rfl⟩

theorem cuts_stay_of_not_spills {ledger i : Nat} (used : i ≤ kNumLevels - 1)
    (not : ¬ Spills ledger i) :
    newestBelow (ledger + 1) i = newestBelow ledger i ∧
      newestInSnap (ledger + 1) i = newestInSnap ledger i := by
  rcases Nat.lt_or_eq_of_le used with inner | last
  · exact cuts_stay fun divides => not ⟨inner, divides⟩
  · rw [last, (newest_last _).1, (newest_last _).1, (newest_last _).2, (newest_last _).2]
    exact ⟨rfl, rfl⟩

theorem LevelAt.snappedAt {ledger i : Nat} {level : BucketLevel (Finset Nat)}
    (at_ : LevelAt ledger i level) (used : i ≤ kNumLevels - 1) (not : ¬ Spills ledger i) :
    SnappedAt ledger i level where
  number := at_.number
  curr := by
    rw [if_neg not]
    exact at_.curr
  snap := by
    rw [(cuts_stay_of_not_spills used not).1, (cuts_stay_of_not_spills used not).2]
    exact at_.snap
  next := at_.next

theorem LevelAt.snapped {ledger i : Nat} {level : BucketLevel (Finset Nat)}
    (at_ : LevelAt ledger i level) (spills : Spills ledger i) :
    SnappedAt ledger i (level.snap ledgerSets) where
  number := at_.number
  curr := by
    rw [if_pos spills]
    rfl
  snap := by
    rw [(cuts_move spills.1 spills.2).1, (cuts_move spills.1 spills.2).2]
    exact at_.curr
  next := at_.next

theorem SnappedAt.unchanged {ledger i : Nat} {level : BucketLevel (Finset Nat)}
    (snapped : SnappedAt ledger (i + 1) level) (used : i + 1 ≤ kNumLevels - 1)
    (not : ¬ Spills ledger i) : LevelAt (ledger + 1) (i + 1) level := by
  have coarser : ¬ Spills ledger (i + 1) := by
    intro spills
    apply not
    refine ⟨by omega, ?_⟩
    have divides := spills.2
    rw [levelHalf_succ] at divides
    exact (Nat.dvd_mul_right _ _).trans divides
  have notDivides : ¬ levelHalf i ∣ ledger + 1 := fun divides => not ⟨by omega, divides⟩
  obtain ⟨below, snapStays⟩ := cuts_stay_of_not_spills used coarser
  obtain ⟨lower, lowerSnap⟩ := cuts_stay notDivides
  constructor
  · exact snapped.number
  · rw [snapped.curr, if_neg coarser, snapStays]
    change _ = Finset.Ioc _ (newestBelow (ledger + 1) i)
    rw [lower]
    rfl
  · exact snapped.snap
  · have pending : PendingInto ledger i level.mNextCurr := snapped.next
    change PendingInto (ledger + 1) i level.mNextCurr
    have start : mergeStart (ledger + 1) i = mergeStart ledger i := by
      have emptied : EmptiedNext (ledger + 1) i ↔ EmptiedNext ledger i := by
        unfold EmptiedNext
        rw [floorTo_succ notDivides]
      unfold mergeStart
      rw [lower, snapStays]
      simp only [emptied]
    unfold PendingInto at pending ⊢
    rw [lower, lowerSnap, start]
    have started : ledger + 1 < levelHalf i ↔ ledger < levelHalf i := by
      constructor
      · intro early
        omega
      · intro early
        rcases Nat.lt_or_eq_of_le (Nat.succ_le_of_lt early) with still | now
        · exact still
        · exact (notDivides (by rw [← now])).elim
    simp only [started]
    exact pending

/-- A level whose predecessor spills into it commits its merge and starts the next one. -/
theorem SnappedAt.spilledInto {ledger i : Nat} {level : BucketLevel (Finset Nat)}
    (snapped : SnappedAt ledger (i + 1) level) (used : i + 1 ≤ kNumLevels - 1)
    (bound : ledger + 1 < 2 ^ 32) (spills : Spills ledger i) (protocol : Nat)
    (shadows : List (Finset Nat)) :
    ∃ committed prepared, level.commit ledgerSets = some committed ∧
      committed.prepare ledgerSets (ledger + 1) protocol
        (Finset.Ioc (newestBelow (ledger + 1) i) (newestInSnap (ledger + 1) i)) shadows =
          some prepared ∧
      LevelAt (ledger + 1) (i + 1) prepared := by
  have divides := spills.2
  have positive := levelHalf_pos i
  have before := floorTo_before divides
  have whole := floorTo_of_dvd divides
  obtain ⟨below, newSnap⟩ := cuts_move spills.1 divides
  -- the current bucket of the level once its merge is committed
  obtain ⟨committed, commits, number, curr, snap, none⟩ : ∃ committed,
      level.commit ledgerSets = some committed ∧ committed.mLevel = i + 1 ∧
      committed.mCurr = Finset.Ioc (newestInSnap (ledger + 1) (i + 1)) (newestBelow (ledger + 1) i) ∧
      committed.mSnap = level.mSnap ∧ committed.mNextCurr = none := by
    have pending : PendingInto ledger i level.mNextCurr := snapped.next
    unfold PendingInto at pending
    unfold BucketLevel.commit
    by_cases early : ledger < levelHalf i
    · rw [if_pos early] at pending
      have first : ledger + 1 = levelHalf i := by
        have least := Nat.le_of_dvd (Nat.succ_pos ledger) divides
        omega
      have coarser : ¬ Spills ledger (i + 1) := by
        intro next
        have least := Nat.le_of_dvd (Nat.succ_pos ledger) next.2
        rw [levelHalf_succ] at least
        omega
      have zero : newestBelow (ledger + 1) i = 0 := by
        rw [below]
        unfold newestInSnap
        rw [if_pos spills.1, (floorTo_eq_zero_iff positive).mpr early, Nat.zero_sub]
      have zeroBefore : newestBelow ledger i = 0 := by
        unfold newestBelow
        rw [if_pos spills.1, (floorTo_eq_zero_iff positive).mpr early, Nat.zero_sub, Nat.zero_sub]
      refine ⟨level, by rw [pending], snapped.number, ?_, rfl, pending⟩
      rw [snapped.curr, if_neg coarser, zero]
      change Finset.Ioc _ (newestBelow ledger i) = _
      rw [zeroBefore, Finset.Ioc_eq_empty (by omega), Finset.Ioc_eq_empty (by omega)]
    · rw [if_neg early] at pending
      obtain ⟨inputs, is, fromCurr, fromSnap⟩ := pending
      refine ⟨{ level with mCurr := inputs.mInputCurrBucket ∪ inputs.mInputSnapBucket, mNextCurr := .none },
        by rw [is]; rfl, snapped.number, ?_, rfl, rfl⟩
      simp only
      have start : newestInSnap (ledger + 1) (i + 1) = mergeStart ledger i := by
        unfold mergeStart
        by_cases emptied : EmptiedNext ledger i
        · rw [if_pos emptied]
          obtain ⟨inner, multiple⟩ := emptied
          rw [before] at multiple
          exact (cuts_move inner multiple).2
        · rw [if_neg emptied]
          apply (cuts_stay_of_not_spills used _).2
          intro next
          apply emptied
          refine ⟨next.1, ?_⟩
          rw [before]
          exact next.2
      rw [fromCurr, fromSnap, Finset.Ioc_union_Ioc_eq_Ioc (mergeStart_le ledger i)
        (newestBelow_le ledger i), below, start]
  have nextBound : (ledger + 1 + levelHalf i) % 2 ^ 32 < 2 ^ 32 := Nat.mod_lt _ (by norm_num)
  have emptied : (committed.mLevel ≠ 0 ∧
      levelShouldSpill ((ledger + 1 + levelHalf (committed.mLevel - 1)) % 2 ^ 32) committed.mLevel) ↔
      EmptiedNext (ledger + 1) i := by
    rw [number, Nat.add_sub_cancel, levelShouldSpill_iff nextBound (by omega)]
    unfold EmptiedNext
    rw [whole]
    have wraps : levelHalf (i + 1) ∣ 2 ^ 32 := by
      unfold kNumLevels at used
      rw [levelHalf_eq]
      exact Nat.pow_dvd_pow 2 (by omega)
    rw [(Nat.dvd_mod_iff wraps)]
    constructor
    · exact fun both => both.2
    · exact fun both => ⟨Nat.succ_ne_zero i, both⟩
  refine ⟨committed, { committed with mNextCurr := some (committed.startMerge ledgerSets (ledger + 1)
    protocol (Finset.Ioc (newestBelow (ledger + 1) i) (newestInSnap (ledger + 1) i)) shadows) },
    commits, ?_, ?_⟩
  · unfold BucketLevel.prepare
    rw [none]
    rfl
  · constructor
    · exact number
    · exact curr
    · rw [snap]
      exact snapped.snap
    · change PendingInto (ledger + 1) i _
      unfold PendingInto mergeStart
      have started : ¬ ledger + 1 < levelHalf i :=
        Nat.not_lt.mpr (Nat.le_of_dvd (Nat.succ_pos ledger) divides)
      rw [if_neg started]
      refine ⟨_, rfl, ?_, rfl⟩
      unfold BucketLevel.startMerge
      simp only [emptied]
      split
      · rw [Finset.Ioc_self]
        rfl
      · exact curr

/-- The list in the middle of the next batch, before level `i` is spilled into. -/
structure Spilled (ledger i : Nat) (list : BucketList (Finset Nat)) : Prop where
  deeper : ∀ j, i < j → j ≤ kNumLevels - 1 → LevelAt (ledger + 1) j (list.mLevels j)
  here : SnappedAt ledger i (list.mLevels i)
  higher : ∀ j, j < i → LevelAt ledger j (list.mLevels j)

theorem spill_spilled {ledger i : Nat} {list : BucketList (Finset Nat)}
    (spilled : Spilled ledger (i + 1) list) (used : i + 1 ≤ kNumLevels - 1)
    (bound : ledger + 1 < 2 ^ 32) (protocol : Nat) (before : BucketList (Finset Nat)) :
    ∃ after, BucketList.spill ledgerSets (ledger + 1) protocol before i list = some after ∧
      Spilled ledger i after := by
  have here := spilled.higher i (Nat.lt_succ_self i)
  have spillsIff : levelShouldSpill (ledger + 1) i = true ↔ Spills ledger i :=
    levelShouldSpill_iff bound (by omega)
  unfold BucketList.spill
  by_cases spills : Spills ledger i
  · rw [if_pos (spillsIff.mpr spills)]
    have snapped := here.snapped spills
    obtain ⟨committed, prepared, commits, prepares, after⟩ :=
      spilled.here.spilledInto used bound spills protocol (before.shadows i)
    rw [← snapped.snap] at prepares
    refine ⟨(list.set i ((list.mLevels i).snap ledgerSets)).set (i + 1) prepared, ?_, ?_⟩
    · simp only [commits, prepares, Option.bind_eq_bind, Option.bind_some]
      rfl
    · constructor
      · intro j deeper last
        by_cases next : j = i + 1
        · subst next
          rw [BucketList.set_self]
          exact after
        · rw [BucketList.set_of_ne _ next, BucketList.set_of_ne _ (by omega)]
          exact spilled.deeper j (by omega) last
      · rw [BucketList.set_of_ne _ (by omega), BucketList.set_self]
        exact snapped
      · intro j higher
        rw [BucketList.set_of_ne _ (by omega), BucketList.set_of_ne _ (by omega)]
        exact spilled.higher j (by omega)
  · rw [if_neg (fun should => spills (spillsIff.mp should))]
    refine ⟨list, rfl, ?_, ?_, ?_⟩
    · intro j deeper last
      by_cases next : j = i + 1
      · subst next
        exact spilled.here.unchanged used spills
      · exact spilled.deeper j (by omega) last
    · exact here.snappedAt (by omega) spills
    · intro j higher
      exact spilled.higher j (by omega)

theorem spillLevels_spilled {ledger : Nat} (bound : ledger + 1 < 2 ^ 32) (protocol : Nat)
    (before : BucketList (Finset Nat)) (i : Nat) (used : i ≤ kNumLevels - 1)
    {list : BucketList (Finset Nat)} (spilled : Spilled ledger i list) :
    ∃ after, BucketList.spillLevels ledgerSets (ledger + 1) protocol before i list = some after ∧
      Spilled ledger 0 after := by
  induction i generalizing list with
  | zero => exact ⟨list, rfl, spilled⟩
  | succ i ih =>
      obtain ⟨next, spills, atNext⟩ := spill_spilled spilled used bound protocol before
      obtain ⟨after, rest, done⟩ := ih (by omega) atNext
      refine ⟨after, ?_, done⟩
      unfold BucketList.spillLevels
      rw [spills]
      exact rest

theorem enters {level : BucketLevel (Finset Nat)} (first : level.mLevel = 0)
    (clear : level.mNextCurr = none) (ledger protocol : Nat) (fresh : Finset Nat) :
    ∃ prepared, level.prepare ledgerSets ledger protocol fresh [] = some prepared ∧
      prepared.commit ledgerSets =
        some { level with mCurr := level.mCurr ∪ fresh, mNextCurr := none } := by
  have stays : (level.startMerge ledgerSets ledger protocol fresh []).mInputCurrBucket =
      level.mCurr := by
    unfold BucketLevel.startMerge
    exact if_neg fun both => both.1 first
  refine ⟨{ level with mNextCurr := some (level.startMerge ledgerSets ledger protocol fresh []) },
    ?_, ?_⟩
  · unfold BucketLevel.prepare
    rw [clear]
    rfl
  · rw [← stays]
    rfl

def ListAt (ledger : Nat) (list : BucketList (Finset Nat)) : Prop :=
  ∀ i, i < kNumLevels → LevelAt ledger i (list.mLevels i)

theorem addBatch_listAt {ledger : Nat} {list : BucketList (Finset Nat)} (listAt : ListAt ledger list)
    (bound : ledger + 1 < 2 ^ 32) (protocol : Nat) :
    ∃ after, list.addBatch ledgerSets (ledger + 1) protocol { ledger + 1 } = some after ∧
      ListAt (ledger + 1) after := by
  have last : ¬ Spills ledger (kNumLevels - 1) := fun spills => lt_irrefl _ spills.1
  have start : Spilled ledger (kNumLevels - 1) list := by
    constructor
    · intro j deeper impossible
      omega
    · exact (listAt _ (by decide)).snappedAt le_rfl last
    · intro j higher
      exact listAt j (by omega)
  obtain ⟨spilled, spills, done⟩ :=
    spillLevels_spilled bound protocol list (kNumLevels - 1) le_rfl start
  have first := done.here
  have clear : (spilled.mLevels 0).mNextCurr = none := first.next
  -- the fresh bucket joins what is left at level 0
  have fresh : (spilled.mLevels 0).mCurr ∪ { ledger + 1 } =
      Finset.Ioc (newestInSnap (ledger + 1) 0) (ledger + 1) := by
    have point : ({ ledger + 1 } : Finset Nat) = Finset.Ioc ledger (ledger + 1) := by
      rw [Nat.Ioc_succ_singleton]
    by_cases spills : Spills ledger 0
    · have newest : newestInSnap (ledger + 1) 0 = ledger := (cuts_move spills.1 spills.2).2
      rw [first.curr, if_pos spills, Finset.empty_union, newest, point]
    · have newest := (cuts_stay_of_not_spills (Nat.zero_le _) spills).2
      rw [first.curr, if_neg spills, newest, point]
      exact Finset.Ioc_union_Ioc_eq_Ioc (newestInSnap_le ledger 0) (Nat.le_succ ledger)
  obtain ⟨prepared, prepares, commits⟩ :=
    enters first.number clear (ledger + 1) protocol { ledger + 1 }
  refine ⟨spilled.set 0 { spilled.mLevels 0 with
    mCurr := (spilled.mLevels 0).mCurr ∪ { ledger + 1 }, mNextCurr := none }, ?_, ?_⟩
  · unfold BucketList.addBatch
    rw [if_neg (Nat.succ_ne_zero ledger), spills]
    simp only [Option.bind_eq_bind, Option.bind_some, prepares, commits]
    rfl
  · intro i used
    by_cases top : i = 0
    · subst top
      rw [BucketList.set_self]
      exact ⟨first.number, fresh, first.snap, rfl⟩
    · rw [BucketList.set_of_ne _ top]
      exact done.deeper i (by omega) (by omega)

theorem addBatches_listAt (protocol : Nat → Nat) (ledger : Nat) (bound : ledger < 2 ^ 32) :
    ∃ list, BucketList.addBatches ledgerSets protocol (fun current => { current }) ledger = some list ∧
      ListAt ledger list := by
  induction ledger with
  | zero =>
      refine ⟨BucketList.empty ledgerSets, rfl, ?_⟩
      intro i used
      have cuts : ∀ level, newestInSnap 0 level = 0 ∧ newestBelow 0 level = 0 := by
        intro level
        unfold newestInSnap newestBelow floorTo
        simp
      have noneInCurr : newestInCurr 0 i = 0 := by
        cases i with
        | zero => rfl
        | succ level => exact (cuts level).2
      constructor
      · rfl
      · rw [(cuts i).1, noneInCurr]
        rfl
      · rw [(cuts i).1, (cuts i).2]
        rfl
      · cases i with
        | zero => rfl
        | succ level =>
            change PendingInto 0 level none
            unfold PendingInto
            rw [if_pos (levelHalf_pos level)]
  | succ ledger ih =>
      obtain ⟨list, ran, listAt⟩ := ih (by omega)
      obtain ⟨after, added, afterAt⟩ := addBatch_listAt listAt bound (protocol (ledger + 1))
      refine ⟨after, ?_, afterAt⟩
      unfold BucketList.addBatches
      rw [ran]
      exact added

end ViiCore.Bucket
