import Mathlib.Data.Rat.Floor
import ViiCore.Util.Uint128

/-!
`bigDivide` and `bigMultiply` (`util/numeric.cpp`) on the machine's words.

`Util.Numeric` has the same functions on numbers. Here they run on `int64_t`, `uint64_t` and
`uint128_t` and note each operation on 128 bits whose exact result leaves the range.
-/

namespace ViiCore.BigDivide

open Uint128

def uint64Max : UInt64 := 0xffffffffffffffff

def plusLessOne (a b : Uint128) : Arithmetic Uint128 := do
  let sum ← a.plusNoting b
  sum.minusWordNoting 1

/-- The overload on `uint64_t`: what it returns and stores. -/
def bigDivideUnsigned (A B C : UInt64) (rounding : Rounding) : Arithmetic (Bool × UInt64) := do
  let a := ofUInt64 A
  let b := ofUInt64 B
  let c := ofUInt64 C
  let x ← match rounding with
    | .ROUND_DOWN => do
        let product ← a.timesNoting b
        product.divide c
    | .ROUND_UP => do
        let product ← a.timesNoting b
        let dividend ← plusLessOne product c
        dividend.divide c
  return (x.lessEqualWord uint64Max, x.LOWER)

/-- The overload on `int64_t`: what it returns and what `result` then holds. -/
def bigDivide (result A B C : Int64) (rounding : Rounding) : Arithmetic (Bool × Int64) := do
  assertThat (0 ≤ A ∧ 0 ≤ B ∧ 0 < C) "(A >= 0) && (B >= 0) && (C > 0)"
  let (res, r2) ← bigDivideUnsigned A.toUInt64 B.toUInt64 C.toUInt64 rounding
  if res then return (r2 ≤ 0x7fffffffffffffff, r2.toInt64) else return (res, result)

/-- The overload on `uint128_t` and `uint64_t`; it may leave `result` alone. -/
def bigDivide128Unsigned (result : UInt64) (a : Uint128) (B : UInt64) (rounding : Rounding) :
    Arithmetic (Bool × UInt64) := do
  assertThat (B ≠ 0) "B != 0"
  let b := ofUInt64 B
  let UINT128_MAX := complement uint128_0
  let tooLarge ← match rounding with
    | .ROUND_DOWN => pure false
    | .ROUND_UP => do
        let less ← b.minusWordNoting 1
        let limit ← UINT128_MAX.minusNoting less
        pure (a.greater limit)
  if tooLarge then return (false, result)
  else
    let x ← match rounding with
      | .ROUND_DOWN => a.divide b
      | .ROUND_UP => do
          let dividend ← plusLessOne a b
          dividend.divide b
    return (x.lessEqualWord uint64Max, x.LOWER)

/-- The overload on `uint128_t` and `int64_t`. Its `r2` has no first value, and none is read. -/
def bigDivide128 (result : Int64) (a : Uint128) (B : Int64) (rounding : Rounding) :
    Arithmetic (Bool × Int64) := do
  assertThat (0 < B) "B > 0"
  let (res, r2) ← bigDivide128Unsigned 0 a B.toUInt64 rounding
  if res then return (r2 ≤ 0x7fffffffffffffff, r2.toInt64) else return (res, result)

/-! ### What is computed -/

def rounded (rounding : Rounding) (value : ℚ) : Int :=
  match rounding with
  | .ROUND_DOWN => ⌊value⌋
  | .ROUND_UP => ⌈value⌉

def FitsInt64 (value : Int) : Prop := INT64_MIN ≤ value ∧ value ≤ INT64_MAX

/-- The division returns true exactly when the number fits, and then has stored it. -/
def Stores (exact : Int) (outcome : Bool × Int64) : Prop :=
  (outcome.1 = true ↔ FitsInt64 exact) ∧ (outcome.1 = true → outcome.2.toInt = exact)

def wordQuotient (rounding : Rounding) (dividend divisor : Nat) : Nat :=
  match rounding with
  | .ROUND_DOWN => dividend / divisor
  | .ROUND_UP => (dividend + divisor - 1) / divisor

theorem wordQuotient_eq_quotient (rounding : Rounding) (dividend : Nat) {divisor : Nat}
    (positive : 0 < divisor) :
    (wordQuotient rounding dividend divisor : Int) = quotient rounding dividend divisor := by
  cases rounding with
  | ROUND_DOWN => rfl
  | ROUND_UP =>
      unfold wordQuotient quotient
      dsimp only
      rw [Int.natCast_ediv, Nat.cast_sub (by omega)]
      push_cast
      rfl

theorem rounded_div (rounding : Rounding) (dividend : Int) {divisor : Int}
    (positive : 0 < divisor) :
    rounded rounding ((dividend : ℚ) / divisor) = quotient rounding dividend divisor := by
  have rationalPositive : (0 : ℚ) < divisor := Int.cast_pos.mpr positive
  cases rounding with
  | ROUND_DOWN =>
      have below := quotient_down_mul_le dividend divisor positive
      have above := lt_quotient_down_mul dividend divisor positive
      generalize quotient .ROUND_DOWN dividend divisor = floor at above below ⊢
      refine Int.floor_eq_iff.mpr ⟨?_, ?_⟩
      · rw [le_div_iff₀ rationalPositive]
        exact_mod_cast below
      · rw [div_lt_iff₀ rationalPositive]
        have next : dividend < (floor + 1) * divisor := by linarith
        exact_mod_cast next
  | ROUND_UP =>
      have above := le_quotient_up_mul dividend divisor positive
      have below := quotient_up_mul_lt dividend divisor positive
      generalize quotient .ROUND_UP dividend divisor = ceiling at above below ⊢
      refine Int.ceil_eq_iff.mpr ⟨?_, ?_⟩
      · rw [lt_div_iff₀ rationalPositive]
        have previous : (ceiling - 1) * divisor < dividend := by linarith
        exact_mod_cast previous
      · rw [div_le_iff₀ rationalPositive]
        exact_mod_cast above

/-! ### The divisions on words -/

theorem toNat_uint64Max : uint64Max.toNat = 2 ^ 64 - 1 := rfl

theorem timesNoting_words (A B : UInt64) :
    ∃ product, (ofUInt64 A).timesNoting (ofUInt64 B) = pure product ∧
      product.toNat = A.toNat * B.toNat := by
  have fits : A.toNat * B.toNat < 2 ^ 64 * 2 ^ 64 := Nat.mul_lt_mul'' A.toNat_lt B.toNat_lt
  have stays : ¬ 2 ^ 128 ≤ (ofUInt64 A).toNat * (ofUInt64 B).toNat := by
    rw [toNat_ofUInt64, toNat_ofUInt64]
    exact Nat.not_le.mpr fits
  refine ⟨(ofUInt64 A).times (ofUInt64 B), ?_, ?_⟩
  · unfold timesNoting
    rw [noteIf_not _ stays, pure_bind]
  · rw [toNat_times, toNat_ofUInt64, toNat_ofUInt64]
    exact Nat.mod_eq_of_lt fits

/-- The operations that leave the range in `a + b - 1`: where the sum is `2 ^ 128` it wraps to zero,
and taking one off wraps back. -/
def around (a b : Nat) : List Uint128Operation := if a + b = 2 ^ 128 then [.minus, .plus] else []

theorem plusLessOne_spec {a b : Uint128} (positive : 0 < b.toNat)
    (fits : a.toNat + b.toNat ≤ 2 ^ 128) (noted : List Uint128Operation) :
    ∃ dividend, (plusLessOne a b).run noted =
        .ok (dividend, around a.toNat b.toNat ++ noted) ∧
      dividend.toNat = a.toNat + b.toNat - 1 := by
  have wrapped := toNat_plus a b
  have one : (1 : UInt64).toNat = 1 := rfl
  refine ⟨(a.plus b).minusWord 1, ?_, ?_⟩
  · unfold plusLessOne around
    rw [run_bind_ok (plusNoting_run a b noted), minusWordNoting_run, one]
    by_cases top : a.toNat + b.toNat = 2 ^ 128
    · rw [top, Nat.mod_self] at wrapped
      rw [wrapped, top, if_pos rfl, if_pos (Nat.le_refl _), if_pos Nat.one_pos]
      rfl
    · have wide : ¬ 2 ^ 128 ≤ a.toNat + b.toNat := by omega
      have some : ¬ (a.plus b).toNat < 1 := by
        rw [wrapped]
        omega
      rw [if_neg top, if_neg wide, if_neg some]
      rfl
  · rw [toNat_minusWord, one, wrapped]
    omega

def Narrows (value : Nat) (pair : Bool × UInt64) : Prop :=
  (pair.1 = true ↔ value < 2 ^ 64) ∧ (pair.1 = true → pair.2.toNat = value)

theorem narrows_lower (x : Uint128) : Narrows x.toNat (x.lessEqualWord uint64Max, x.LOWER) := by
  have low := x.LOWER.toNat_lt
  have isNarrow : x.lessEqualWord uint64Max = true ↔ x.toNat < 2 ^ 64 := by
    rw [lessEqualWord_iff, toNat_uint64Max]
    omega
  refine ⟨isNarrow, fun holds => ?_⟩
  have small := isNarrow.mp holds
  unfold Uint128.toNat at small ⊢
  dsimp only
  omega

theorem ofUInt64_ne_zero {word : UInt64} (positive : 0 < word.toNat) :
    ofUInt64 word ≠ uint128_0 := by
  intro zero
  have value := toNat_ofUInt64 word
  rw [zero, toNat_zero] at value
  omega

theorem bigDivideUnsigned_spec {A B C : UInt64} (positive : 0 < C.toNat) (rounding : Rounding)
    (fits : A.toNat * B.toNat + C.toNat < 2 ^ 128) (noted : List Uint128Operation) :
    ∃ pair, (bigDivideUnsigned A B C rounding).run noted = .ok (pair, noted) ∧
      Narrows (wordQuotient rounding (A.toNat * B.toNat) C.toNat) pair := by
  obtain ⟨product, multiplies, isProduct⟩ := timesNoting_words A B
  unfold bigDivideUnsigned
  cases rounding with
  | ROUND_DOWN =>
      obtain ⟨x, divides, isQuotient⟩ := divide_spec product (ofUInt64_ne_zero positive)
      rw [isProduct, toNat_ofUInt64] at isQuotient
      refine ⟨_, ?_, isQuotient ▸ narrows_lower x⟩
      dsimp only
      rw [multiplies, pure_bind, divides, pure_bind]
      rfl
  | ROUND_UP =>
      have isC := toNat_ofUInt64 C
      obtain ⟨dividend, sums, isDividend⟩ := plusLessOne_spec (a := product) (b := ofUInt64 C)
        (by rwa [isC]) (by rw [isProduct, isC]; exact fits.le) noted
      rw [isProduct, isC] at sums isDividend
      have stays : around (A.toNat * B.toNat) C.toNat = [] := if_neg fits.ne
      rw [stays, List.nil_append] at sums
      obtain ⟨x, divides, isQuotient⟩ := divide_spec dividend (ofUInt64_ne_zero positive)
      rw [isDividend, isC] at isQuotient
      refine ⟨_, ?_, isQuotient ▸ narrows_lower x⟩
      dsimp only
      rw [multiplies, pure_bind, run_bind_ok sums, divides, pure_bind]
      rfl

theorem int64_narrowing {r2 : UInt64} (fits : r2.toNat ≤ 9223372036854775807) :
    r2.toInt64.toInt = r2.toNat := by
  rw [← Int64.toInt_toBitVec, UInt64.toBitVec_toInt64]
  refine BitVec.toInt_eq_toNat_of_lt ?_
  rw [UInt64.toNat_toBitVec]
  omega

theorem stores_of_narrows (result : Int64) {value : Nat} {pair : Bool × UInt64}
    (narrows : Narrows value pair) :
    ∃ outcome, (match pair with
        | (res, r2) =>
          if res then (pure (decide (r2 ≤ 0x7fffffffffffffff), r2.toInt64) :
            Arithmetic (Bool × Int64))
          else pure (res, result)) = pure outcome ∧ Stores value outcome := by
  obtain ⟨res, r2⟩ := pair
  obtain ⟨isNarrow, same⟩ := narrows
  dsimp only at isNarrow same ⊢
  by_cases narrow : res = true
  · have isValue := same narrow
    have bound : (0x7fffffffffffffff : UInt64).toNat = 9223372036854775807 := rfl
    have isSmall : decide (r2 ≤ 0x7fffffffffffffff) = true ↔
        value ≤ 9223372036854775807 := by
      rw [decide_eq_true_eq, UInt64.le_iff_toNat_le, isValue, bound]
    refine ⟨_, if_pos narrow, ?_, fun holds => ?_⟩
    · refine isSmall.trans ?_
      unfold FitsInt64 INT64_MIN INT64_MAX
      omega
    · rw [← isValue] at isSmall ⊢
      exact int64_narrowing (isSmall.mp holds)
  · have wide : ¬ value < 2 ^ 64 := fun small => narrow (isNarrow.mpr small)
    refine ⟨_, if_neg narrow, ?_, fun holds => absurd holds narrow⟩
    constructor
    · exact fun holds => absurd holds narrow
    · intro ⟨_, fits⟩
      unfold INT64_MAX at fits
      omega

theorem toNat_toUInt64 {value : Int64} (nonneg : 0 ≤ value) :
    (value.toUInt64.toNat : Int) = value.toInt ∧ value.toUInt64.toNat < 2 ^ 63 := by
  have same := Int64.toNat_toUInt64_of_le nonneg
  rw [same]
  exact ⟨Int64.cast_toNatClampNeg value nonneg, value.toNatClampNeg_lt⟩

theorem toUInt64_pos {value : Int64} (positive : 0 < value) : 0 < value.toUInt64.toNat := by
  have nonneg : (0 : Int64) ≤ value := Int64.le_of_lt positive
  have same := (toNat_toUInt64 nonneg).1
  rw [Int64.lt_iff_toInt_lt] at positive
  have zero : (0 : Int64).toInt = 0 := rfl
  omega

theorem toInt_pos {value : Int64} (positive : 0 < value) : 0 < value.toInt :=
  Int64.lt_iff_toInt_lt.mp positive

theorem bigDivide_spec (result : Int64) {A B C : Int64} (aNonneg : 0 ≤ A) (bNonneg : 0 ≤ B)
    (positive : 0 < C) (rounding : Rounding) (noted : List Uint128Operation) :
    ∃ outcome, (bigDivide result A B C rounding).run noted = .ok (outcome, noted) ∧
      Stores (quotient rounding (A.toInt * B.toInt) C.toInt) outcome := by
  obtain ⟨isA, aFits⟩ := toNat_toUInt64 aNonneg
  obtain ⟨isB, bFits⟩ := toNat_toUInt64 bNonneg
  obtain ⟨isC, cFits⟩ := toNat_toUInt64 (Int64.le_of_lt positive)
  have cPositive := toUInt64_pos positive
  have product : A.toUInt64.toNat * B.toUInt64.toNat < 2 ^ 63 * 2 ^ 63 :=
    Nat.mul_lt_mul'' aFits bFits
  have fits : A.toUInt64.toNat * B.toUInt64.toNat + C.toUInt64.toNat < 2 ^ 128 := by omega
  obtain ⟨pair, runs, narrows⟩ := bigDivideUnsigned_spec cPositive rounding fits noted
  obtain ⟨outcome, returns, stores⟩ := stores_of_narrows result narrows
  refine ⟨outcome, ?_, ?_⟩
  · unfold bigDivide assertThat
    rw [decide_eq_true ⟨aNonneg, bNonneg, positive⟩, if_pos rfl]
    rw [liftM_pure, pure_bind, run_bind_ok runs, returns]
    rfl
  · rw [← isA, ← isB, ← isC, ← Nat.cast_mul, ← wordQuotient_eq_quotient _ _ cPositive]
    exact stores

def around128 (rounding : Rounding) (a b : Nat) : List Uint128Operation :=
  match rounding with
  | .ROUND_DOWN => []
  | .ROUND_UP => around a b

theorem tooLarge_iff (a : Uint128) {B : UInt64} (positive : 0 < B.toNat) :
    ∃ less limit, (ofUInt64 B).minusWordNoting 1 = pure less ∧
      (complement uint128_0).minusNoting less = pure limit ∧
      (a.greater limit = true ↔ 2 ^ 128 < a.toNat + B.toNat) := by
  have one : (1 : UInt64).toNat = 1 := rfl
  have isB := toNat_ofUInt64 B
  have bFits := B.toNat_lt
  have least : ¬ (ofUInt64 B).toNat < (1 : UInt64).toNat := by
    rw [isB, one]
    omega
  have isLess : ((ofUInt64 B).minusWord 1).toNat = B.toNat - 1 := by
    rw [toNat_minusWord, isB, one]
    omega
  have below : ((ofUInt64 B).minusWord 1).toNat ≤ (complement uint128_0).toNat := by
    rw [isLess, toNat_complement_zero]
    omega
  refine ⟨(ofUInt64 B).minusWord 1, _, ?_, minusNoting_of_le below, ?_⟩
  · unfold minusWordNoting
    rw [noteIf_not _ least, pure_bind]
  · rw [greater_iff, toNat_minus_of_le below, isLess, toNat_complement_zero]
    omega

theorem bigDivide128Unsigned_spec (result : UInt64) (a : Uint128) {B : UInt64}
    (positive : 0 < B.toNat) (rounding : Rounding) (noted : List Uint128Operation) :
    ∃ pair, (bigDivide128Unsigned result a B rounding).run noted =
        .ok (pair, around128 rounding a.toNat B.toNat ++ noted) ∧
      Narrows (wordQuotient rounding a.toNat B.toNat) pair := by
  have nonzero : decide (B ≠ 0) = true := by
    refine decide_eq_true fun zero => ?_
    rw [zero] at positive
    exact absurd positive (Nat.lt_irrefl 0)
  have isB := toNat_ofUInt64 B
  unfold bigDivide128Unsigned assertThat
  rw [nonzero, if_pos rfl, liftM_pure, pure_bind]
  cases rounding with
  | ROUND_DOWN =>
      obtain ⟨x, divides, isQuotient⟩ := divide_spec a (ofUInt64_ne_zero positive)
      rw [isB] at isQuotient
      refine ⟨_, ?_, isQuotient ▸ narrows_lower x⟩
      dsimp only
      rw [pure_bind, if_neg Bool.false_ne_true, divides, pure_bind]
      rfl
  | ROUND_UP =>
      obtain ⟨less, limit, takesOne, subtracts, isTooLarge⟩ := tooLarge_iff a positive
      dsimp only
      rw [takesOne, pure_bind, subtracts, pure_bind, pure_bind]
      unfold around128
      dsimp only
      by_cases tooLarge : 2 ^ 128 < a.toNat + B.toNat
      · -- The quotient exceeds every `uint64_t`.
        rw [if_pos (isTooLarge.mpr tooLarge)]
        have large : ¬ wordQuotient .ROUND_UP a.toNat B.toNat < 2 ^ 64 := by
          have bFits := B.toNat_lt
          unfold wordQuotient
          dsimp only
          rw [Nat.div_lt_iff_lt_mul positive]
          omega
        have stays : around a.toNat B.toNat = [] := if_neg (Nat.ne_of_gt tooLarge)
        rw [stays, List.nil_append]
        refine ⟨_, rfl, ?_, fun holds => absurd holds Bool.false_ne_true⟩
        constructor
        · exact fun holds => absurd holds Bool.false_ne_true
        · exact fun small => absurd small large
      · rw [if_neg (fun holds => tooLarge (isTooLarge.mp holds))]
        obtain ⟨dividend, sums, isDividend⟩ := plusLessOne_spec (a := a) (b := ofUInt64 B)
          (by rwa [isB]) (by rw [isB]; omega) noted
        rw [isB] at sums isDividend
        obtain ⟨x, divides, isQuotient⟩ := divide_spec dividend (ofUInt64_ne_zero positive)
        rw [isDividend, isB] at isQuotient
        refine ⟨_, ?_, isQuotient ▸ narrows_lower x⟩
        rw [run_bind_ok sums, divides, pure_bind]
        rfl

theorem bigDivide128_spec (result : Int64) (a : Uint128) {B : Int64} (positive : 0 < B)
    (rounding : Rounding) (noted : List Uint128Operation) :
    ∃ outcome, (bigDivide128 result a B rounding).run noted =
        .ok (outcome, around128 rounding a.toNat B.toInt.toNat ++ noted) ∧
      Stores (quotient rounding a.toNat B.toInt) outcome := by
  obtain ⟨isB, -⟩ := toNat_toUInt64 (Int64.le_of_lt positive)
  have bPositive := toUInt64_pos positive
  obtain ⟨pair, runs, narrows⟩ := bigDivide128Unsigned_spec 0 a bPositive rounding noted
  obtain ⟨outcome, returns, stores⟩ := stores_of_narrows result narrows
  rw [← isB, Int.toNat_natCast]
  refine ⟨outcome, ?_, ?_⟩
  · unfold bigDivide128 assertThat
    rw [decide_eq_true positive, if_pos rfl, liftM_pure, pure_bind, run_bind_ok runs, returns]
    rfl
  · rw [← wordQuotient_eq_quotient _ _ bPositive]
    exact stores

/-! ### Floor and ceiling -/

/-- Each division returns true exactly when the floor or the ceiling of the quotient fits, and then
stores it. Of all operations on 128 bits only `a + b - 1` at `2 ^ 128` leaves the range. -/
theorem bigDivide_floor_or_ceiling (result : Int64) (rounding : Rounding) :
    (∀ A B C : Int64, 0 ≤ A → 0 ≤ B → 0 < C →
      ∃ outcome, (bigDivide result A B C rounding).run [] = .ok (outcome, []) ∧
        Stores (rounded rounding ((A.toInt : ℚ) * B.toInt / C.toInt)) outcome) ∧
    (∀ (a : Uint128) (B : Int64), 0 < B →
      ∃ outcome, (bigDivide128 result a B rounding).run [] =
          .ok (outcome,
            if rounding = .ROUND_UP ∧ (a.toNat : Int) + B.toInt = 2 ^ 128 then [.minus, .plus]
            else []) ∧
        Stores (rounded rounding ((a.toNat : ℚ) / B.toInt)) outcome) := by
  constructor
  · intro A B C aNonneg bNonneg positive
    rw [← Int.cast_mul, rounded_div _ _ (toInt_pos positive)]
    exact bigDivide_spec result aNonneg bNonneg positive rounding []
  · intro a B positive
    have positive' := toInt_pos positive
    obtain ⟨outcome, runs, stores⟩ := bigDivide128_spec result a positive rounding []
    rw [List.append_nil] at runs
    refine ⟨outcome, runs.trans ?_, ?_⟩
    · cases rounding with
      | ROUND_DOWN =>
          rw [if_neg (fun both => Rounding.noConfusion both.1)]
          rfl
      | ROUND_UP =>
          have same : a.toNat + B.toInt.toNat = 2 ^ 128 ↔ (a.toNat : Int) + B.toInt = 2 ^ 128 := by
            omega
          unfold around128 around
          simp only [same, true_and]
    · have rational : (a.toNat : ℚ) / B.toInt = ((a.toNat : Int) : ℚ) / B.toInt := rfl
      rw [rational, rounded_div _ _ positive']
      exact stores

theorem bigDivide_floor_or_ceiling_seven :
    (∃ outcome, (bigDivide 0 7 5 3 .ROUND_UP).run [] = .ok (outcome, []) ∧
      Stores (rounded .ROUND_UP (((7 : Int64).toInt : ℚ) * (5 : Int64).toInt / (3 : Int64).toInt))
        outcome) ∧
    ∃ outcome, (bigDivide128 0 (ofUInt64 7) 2 .ROUND_DOWN).run [] = .ok (outcome, []) ∧
      Stores (rounded .ROUND_DOWN (((ofUInt64 7).toNat : ℚ) / (2 : Int64).toInt)) outcome :=
  ⟨(bigDivide_floor_or_ceiling 0 .ROUND_UP).1 7 5 3 (by decide) (by decide) (by decide),
    (bigDivide_floor_or_ceiling 0 .ROUND_DOWN).2 (ofUInt64 7) 2 (by decide)⟩

/-- With the largest dividend and the divisor one, the sum leaves the range. -/
theorem bigDivide128_sum_wraps :
    (bigDivide128 0 ⟨0xffffffffffffffff, 0xffffffffffffffff⟩ 1 .ROUND_UP).run [] =
      .ok ((false, 0), [.minus, .plus]) := by
  decide

end ViiCore.BigDivide
