import Mathlib.Algebra.Group.Nat.Defs
import Mathlib.Tactic.Common

/-!
The skip list of a ledger header (`bucket/BucketManagerImpl.cpp`).

Every fiftieth ledger stores its bucket list hash in the first entry. The other entries take over
what the entry before them held, each at a coarser period that starts one period of the entry before
later.
-/

namespace ViiCore.Bucket

variable {Hash : Type}

def SKIP_1 : UInt32 := 50
def SKIP_2 : UInt32 := 5000
def SKIP_3 : UInt32 := 50000
def SKIP_4 : UInt32 := 500000

structure SkipHeader (Hash : Type) where
  ledgerSeq : UInt32
  bucketListHash : Hash
  skipList : Vector Hash 4

/-- `v > 0 && (v % skip) == 0` -/
def divides (skip : UInt32) (v : Int32) : Bool :=
  v > 0 && v % skip.toInt32 == 0

/-- The subtractions are of `uint32`; their results are stored in an `int`. -/
def calculateSkipValues (currentHeader : SkipHeader Hash) : SkipHeader Hash :=
  let seq := currentHeader.ledgerSeq
  if seq % SKIP_1 = 0 then
    let skipList := currentHeader.skipList
    let skipList :=
      if divides SKIP_2 (seq - SKIP_1).toInt32 then
        let skipList :=
          if divides SKIP_3 (seq - SKIP_2 - SKIP_1).toInt32 then
            let skipList :=
              if divides SKIP_4 (seq - SKIP_3 - SKIP_2 - SKIP_1).toInt32 then
                skipList.set 3 skipList[2]
              else skipList
            skipList.set 2 skipList[1]
          else skipList
        skipList.set 1 skipList[0]
      else skipList
    { currentHeader with skipList := skipList.set 0 currentHeader.bucketListHash }
  else currentHeader

def snapshotLedger (bucketListHash : Hash) (currentHeader : SkipHeader Hash) : SkipHeader Hash :=
  calculateSkipValues { currentHeader with bucketListHash := bucketListHash }

/-- The header after ledgers `1..n`, from one with an empty skip list. -/
def headerAfter (empty : Hash) (bucketListHash : Nat → Hash) : Nat → SkipHeader Hash
  | 0 => ⟨0, empty, Vector.replicate 4 empty⟩
  | n + 1 =>
      snapshotLedger (bucketListHash (n + 1))
        { headerAfter empty bucketListHash n with ledgerSeq := UInt32.ofNat (n + 1) }

/-! ### Sampling -/

/-- What an entry holds that is set every `period` ledgers, `offset` ledgers late. -/
def sampled (empty : Hash) (bucketListHash : Nat → Hash) (period offset n : Nat) : Hash :=
  if offset + period ≤ n then bucketListHash (period * ((n - offset) / period)) else empty

def Due (period offset n : Nat) : Prop := offset < n ∧ (n - offset) % period = 0

instance (period offset n : Nat) : Decidable (Due period offset n) :=
  inferInstanceAs (Decidable (_ ∧ _))

section Sampling

variable {empty : Hash} {bucketListHash : Nat → Hash} {period offset n : Nat}

theorem sampled_succ_of_due (due : Due period offset (n + 1)) :
    sampled empty bucketListHash period offset (n + 1) = bucketListHash (n + 1 - offset) := by
  obtain ⟨later, divides⟩ := due
  have whole : period * ((n + 1 - offset) / period) = n + 1 - offset :=
    Nat.mul_div_cancel' (Nat.dvd_of_mod_eq_zero divides)
  have reached : period ≤ n + 1 - offset :=
    Nat.le_of_dvd (by omega) (Nat.dvd_of_mod_eq_zero divides)
  unfold sampled
  rw [if_pos (by omega), whole]

theorem sampled_succ_of_not_due (positive : 0 < period) (kept : ¬ Due period offset (n + 1)) :
    sampled empty bucketListHash period offset (n + 1) =
      sampled empty bucketListHash period offset n := by
  unfold sampled
  by_cases early : n < offset
  · rw [if_neg (by omega), if_neg (by omega)]
  · have rest : (n + 1 - offset) % period ≠ 0 := fun zero => kept ⟨by omega, zero⟩
    have split : n + 1 - offset = n - offset + 1 := by omega
    rw [split] at rest ⊢
    have same : (n - offset + 1) / period = (n - offset) / period :=
      Nat.succ_div_of_not_dvd fun divides => rest (Nat.mod_eq_zero_of_dvd divides)
    have threshold : offset + period ≤ n + 1 ↔ offset + period ≤ n := by
      constructor
      · intro reached
        by_contra short
        have exact : n - offset + 1 = period := by omega
        exact rest (by rw [exact, Nat.mod_self])
      · intro reached
        omega
    rw [same]
    simp only [threshold]

/-- When a coarser entry that starts one period later is set, the finer one still holds the hash of
the ledger `offset + period` before. -/
theorem sampled_of_due {coarse : Nat} (positive : 0 < period) (multiple : period ∣ coarse)
    (due : Due coarse (offset + period) (n + 1)) :
    sampled empty bucketListHash period offset n = bucketListHash (n + 1 - (offset + period)) := by
  obtain ⟨later, divides⟩ := due
  obtain ⟨times, spread⟩ := Nat.dvd_trans multiple (Nat.dvd_of_mod_eq_zero divides)
  have count : n - offset = period * times + (period - 1) := by omega
  have few : (period - 1) / period = 0 := Nat.div_eq_of_lt (by omega)
  have whole : (n - offset) / period = times := by
    rw [count, Nat.mul_add_div positive, few, Nat.add_zero]
  have some_times : 0 < times := by
    by_contra none
    rw [Nat.eq_zero_of_not_pos none, Nat.mul_zero] at spread
    omega
  have reached : period ≤ period * times := Nat.le_mul_of_pos_right period some_times
  unfold sampled
  rw [if_pos (by omega), whole, ← spread]

end Sampling

/-! ### One ledger -/

theorem toInt_toInt32 {v : UInt32} (small : v.toNat < 2 ^ 31) : v.toInt32.toInt = v.toNat := by
  change v.toBitVec.toInt = _
  rw [BitVec.toInt_eq_toNat_of_lt (by change 2 * v.toNat < _; omega)]
  rfl

theorem divides_iff {skip v : UInt32} (smallSkip : skip.toNat < 2 ^ 31) (small : v.toNat < 2 ^ 31) :
    divides skip v.toInt32 = true ↔ 0 < v.toNat ∧ v.toNat % skip.toNat = 0 := by
  have above : v.toInt32 > 0 ↔ 0 < v.toNat := by
    rw [gt_iff_lt, Int32.lt_iff_toInt_lt, toInt_toInt32 small, Int32.toInt_zero]
    omega
  have multiple : v.toInt32 % skip.toInt32 = 0 ↔ v.toNat % skip.toNat = 0 := by
    rw [← Int32.toInt_inj, Int32.toInt_mod, toInt_toInt32 small, toInt_toInt32 smallSkip,
      Int32.toInt_zero, ← Int.ofNat_tmod]
    omega
  unfold divides
  rw [Bool.and_eq_true, decide_eq_true_eq, beq_iff_eq, above, multiple]

theorem toNat_sub_of_le {ledger skip : UInt32} (below : skip.toNat ≤ ledger.toNat) :
    (ledger - skip).toNat = ledger.toNat - skip.toNat :=
  UInt32.toNat_sub_of_le ledger skip (UInt32.le_iff_toNat_le.mpr below)

/-- Each entry at its own ledgers: the later tests are reached where the earlier ones pass. -/
theorem calculateSkipValues_skipList {n : Nat} (positive : 0 < n) (bound : n < 2 ^ 31)
    (current first second third fourth : Hash) :
    (calculateSkipValues ⟨UInt32.ofNat n, current, #v[first, second, third, fourth]⟩).skipList =
      #v[if Due 50 0 n then current else first, if Due 5000 50 n then first else second,
        if Due 50000 5050 n then second else third, if Due 500000 55050 n then third else fourth] := by
  have seq : (UInt32.ofNat n).toNat = n := UInt32.toNat_ofNat_of_lt' (by change n < 2 ^ 32; omega)
  have fifty : UInt32.ofNat n % SKIP_1 = 0 ↔ n % 50 = 0 := by
    rw [← UInt32.toNat_inj, UInt32.toNat_mod, seq]
    rfl
  have atSecond (reached : 50 ≤ n) :
      divides SKIP_2 (UInt32.ofNat n - SKIP_1).toInt32 = true ↔ Due 5000 50 n := by
    have difference : (UInt32.ofNat n - SKIP_1).toNat = n - 50 := by
      rw [toNat_sub_of_le (by rw [seq]; exact reached), seq]
      rfl
    rw [divides_iff (by decide) (by omega), difference]
    change _ ∧ _ % 5000 = 0 ↔ _
    unfold Due
    omega
  have atThird (reached : 5050 ≤ n) :
      divides SKIP_3 (UInt32.ofNat n - SKIP_2 - SKIP_1).toInt32 = true ↔ Due 50000 5050 n := by
    have difference : (UInt32.ofNat n - SKIP_2 - SKIP_1).toNat = n - 5050 := by
      have outer : (UInt32.ofNat n - SKIP_2).toNat = n - 5000 := by
        rw [toNat_sub_of_le (by rw [seq]; change 5000 ≤ n; omega), seq]
        rfl
      rw [toNat_sub_of_le (by rw [outer]; change 50 ≤ n - 5000; omega), outer]
      change n - 5000 - 50 = _
      omega
    rw [divides_iff (by decide) (by omega), difference]
    change _ ∧ _ % 50000 = 0 ↔ _
    unfold Due
    omega
  have atFourth (reached : 55050 ≤ n) :
      divides SKIP_4 (UInt32.ofNat n - SKIP_3 - SKIP_2 - SKIP_1).toInt32 = true ↔
        Due 500000 55050 n := by
    have difference : (UInt32.ofNat n - SKIP_3 - SKIP_2 - SKIP_1).toNat = n - 55050 := by
      have outer : (UInt32.ofNat n - SKIP_3).toNat = n - 50000 := by
        rw [toNat_sub_of_le (by rw [seq]; change 50000 ≤ n; omega), seq]
        rfl
      have middle : (UInt32.ofNat n - SKIP_3 - SKIP_2).toNat = n - 55000 := by
        rw [toNat_sub_of_le (by rw [outer]; change 5000 ≤ n - 50000; omega), outer]
        change n - 50000 - 5000 = _
        omega
      rw [toNat_sub_of_le (by rw [middle]; change 50 ≤ n - 55000; omega), middle]
      change n - 55000 - 50 = _
      omega
    rw [divides_iff (by decide) (by omega), difference]
    change _ ∧ _ % 500000 = 0 ↔ _
    unfold Due
    omega
  have implies : (Due 5000 50 n → Due 50 0 n) ∧ (Due 50000 5050 n → Due 5000 50 n) ∧
      (Due 500000 55050 n → Due 50000 5050 n) := by
    unfold Due
    omega
  have first_due : Due 50 0 n ↔ n % 50 = 0 := by
    unfold Due
    omega
  -- A test that fails leaves the later ones unread.
  unfold calculateSkipValues
  by_cases one : Due 50 0 n
  · have passed := fifty.mpr (first_due.mp one)
    have reached : 50 ≤ n := by
      unfold Due at one
      omega
    by_cases two : Due 5000 50 n
    · have passedSecond := (atSecond reached).mpr two
      have reached : 5050 ≤ n := by
        unfold Due at two
        omega
      by_cases three : Due 50000 5050 n
      · have passedThird := (atThird reached).mpr three
        have reached : 55050 ≤ n := by
          unfold Due at three
          omega
        by_cases four : Due 500000 55050 n
        · have passedFourth := (atFourth reached).mpr four
          simp only [passed, passedSecond, passedThird, passedFourth, one, two, three, four, if_true]
          rfl
        · have failedFourth := mt (atFourth reached).mp four
          simp only [passed, passedSecond, passedThird, failedFourth, one, two, three, four, if_true,
            if_false]
          rfl
      · have failedThird := mt (atThird reached).mp three
        have noFourth := mt implies.2.2 three
        simp only [passed, passedSecond, failedThird, one, two, three, noFourth, if_true, if_false]
        rfl
    · have failedSecond := mt (atSecond reached).mp two
      have noThird := mt implies.2.1 two
      have noFourth := mt implies.2.2 noThird
      simp only [passed, failedSecond, one, two, noThird, noFourth, if_true, if_false]
      rfl
  · have failed := mt fifty.mp (mt first_due.mpr one)
    have noSecond := mt implies.1 one
    have noThird := mt implies.2.1 noSecond
    have noFourth := mt implies.2.2 noThird
    simp only [failed, one, noSecond, noThird, noFourth, if_false]

/-! ### All ledgers -/

def sampledSkipList (empty : Hash) (bucketListHash : Nat → Hash) (n : Nat) : Vector Hash 4 :=
  #v[sampled empty bucketListHash 50 0 n, sampled empty bucketListHash 5000 50 n,
    sampled empty bucketListHash 50000 5050 n, sampled empty bucketListHash 500000 55050 n]

section Run

variable (empty : Hash) (bucketListHash : Nat → Hash)

theorem sampled_succ {finer period start n : Nat} (positive : 0 < finer) (multiple : finer ∣ period)
    (whole : 0 < period) :
    sampled empty bucketListHash period (start + finer) (n + 1) =
      if Due period (start + finer) (n + 1) then sampled empty bucketListHash finer start n
      else sampled empty bucketListHash period (start + finer) n := by
  split
  · rename_i due
    rw [sampled_succ_of_due due, sampled_of_due positive multiple due]
  · rename_i kept
    exact sampled_succ_of_not_due whole kept

theorem headerAfter_skipList (n : Nat) (bound : n < 2 ^ 31) :
    (headerAfter empty bucketListHash n).skipList = sampledSkipList empty bucketListHash n := by
  induction n with
  | zero => rfl
  | succ n ih =>
      unfold headerAfter snapshotLedger
      rw [ih (by omega)]
      unfold sampledSkipList
      rw [calculateSkipValues_skipList (Nat.succ_pos n) bound]
      have first : sampled empty bucketListHash 50 0 (n + 1) =
          if Due 50 0 (n + 1) then bucketListHash (n + 1)
          else sampled empty bucketListHash 50 0 n := by
        split
        · rename_i due
          exact sampled_succ_of_due due
        · rename_i kept
          exact sampled_succ_of_not_due (by omega) kept
      have second : sampled empty bucketListHash 5000 50 (n + 1) =
          if Due 5000 50 (n + 1) then sampled empty bucketListHash 50 0 n
          else sampled empty bucketListHash 5000 50 n :=
        @sampled_succ Hash empty bucketListHash 50 5000 0 n (by omega) (by decide) (by omega)
      have third : sampled empty bucketListHash 50000 5050 (n + 1) =
          if Due 50000 5050 (n + 1) then sampled empty bucketListHash 5000 50 n
          else sampled empty bucketListHash 50000 5050 n :=
        @sampled_succ Hash empty bucketListHash 5000 50000 50 n (by omega) (by decide) (by omega)
      have fourth : sampled empty bucketListHash 500000 55050 (n + 1) =
          if Due 500000 55050 (n + 1) then sampled empty bucketListHash 50000 5050 n
          else sampled empty bucketListHash 500000 55050 n :=
        @sampled_succ Hash empty bucketListHash 50000 500000 5050 n (by omega) (by decide) (by omega)
      rw [first, second, third, fourth]

/-- The entries after ledger `n`, and the ledgers before which they are empty. -/
theorem skipList_closed_form (n : Nat) (bound : n < 2 ^ 31) :
    (50 ≤ n → (headerAfter empty bucketListHash n).skipList[0] = bucketListHash (50 * (n / 50))) ∧
    (5050 ≤ n → (headerAfter empty bucketListHash n).skipList[1] =
      bucketListHash (5000 * ((n - 50) / 5000))) ∧
    (55050 ≤ n → (headerAfter empty bucketListHash n).skipList[2] =
      bucketListHash (50000 * ((n - 5050) / 50000))) ∧
    (555050 ≤ n → (headerAfter empty bucketListHash n).skipList[3] =
      bucketListHash (500000 * ((n - 55050) / 500000))) ∧
    (n < 50 → (headerAfter empty bucketListHash n).skipList[0] = empty) ∧
    (n < 5050 → (headerAfter empty bucketListHash n).skipList[1] = empty) ∧
    (n < 55050 → (headerAfter empty bucketListHash n).skipList[2] = empty) ∧
    (n < 555050 → (headerAfter empty bucketListHash n).skipList[3] = empty) := by
  rw [headerAfter_skipList empty bucketListHash n bound]
  refine ⟨fun reached => ?_, fun reached => ?_, fun reached => ?_, fun reached => ?_,
    fun early => ?_, fun early => ?_, fun early => ?_, fun early => ?_⟩
  · exact if_pos reached
  · exact if_pos reached
  · exact if_pos reached
  · exact if_pos reached
  · exact if_neg (by omega)
  · exact if_neg (by omega)
  · exact if_neg (by omega)
  · exact if_neg (by omega)

end Run

/-- The first ledger at which every entry is set. -/
theorem skipList_closed_form_filled :
    (headerAfter 0 id 555050).skipList[0] = 555050 ∧ (headerAfter 0 id 555050).skipList[1] = 555000 ∧
      (headerAfter 0 id 555050).skipList[2] = 550000 ∧
      (headerAfter 0 id 555050).skipList[3] = 500000 := by
  obtain ⟨first, second, third, fourth, _⟩ := skipList_closed_form 0 id 555050 (by decide)
  exact ⟨first (by decide), second (by decide), third (by decide), fourth (by decide)⟩

end ViiCore.Bucket
