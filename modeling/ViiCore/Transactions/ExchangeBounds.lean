import Mathlib.Algebra.Order.Field.Basic
import Mathlib.Data.Rat.Cast.Order
import Mathlib.Tactic.FieldSimp
import ViiCore.Transactions.OfferLiabilities

/-!
What the exchange of an offer guarantees to both sides.

The value that changes hands is the least of four products, one for each limit. It is divided
twice: first by the larger term of the price, so that the more valuable asset is rounded down, and
then back, in favour of the side that stays. No division overflows and no check throws.
-/

namespace ViiCore.Transactions

open ViiCore.Ledger

theorem quotient_le (rounding : Rounding) (a c bound : Int) (positive : 0 < c)
    (fits : a ≤ bound * c) : quotient rounding a c ≤ bound := by
  cases rounding with
  | ROUND_DOWN => exact quotient_down_le a c bound positive fits
  | ROUND_UP =>
      have below := quotient_up_mul_lt a c positive
      have scaled : quotient .ROUND_UP a c * c < (bound + 1) * c := by
        rw [add_mul, one_mul]
        omega
      exact Int.lt_add_one_iff.mp (lt_of_mul_lt_mul_right scaled positive.le)

section Twice

variable {value x y : Int} (rounding : Rounding)

/-- Both amounts of a value: divided by one term of the price, and that multiple by the other. -/
def divideTwice (rounding : Rounding) (value x y : Int) : Int × Int :=
  let first := quotient .ROUND_DOWN value x
  (first, quotient rounding (first * x) y)

theorem divideTwice_nonneg (nonneg : 0 ≤ value) (xPositive : 0 < x) (yPositive : 0 < y) :
    0 ≤ (divideTwice rounding value x y).1 ∧ 0 ≤ (divideTwice rounding value x y).2 := by
  have first := quotient_nonneg .ROUND_DOWN value x nonneg xPositive
  exact ⟨first, quotient_nonneg rounding _ y (mul_nonneg first xPositive.le) yPositive⟩

theorem divideTwice_first_le {bound : Int} (xPositive : 0 < x) (fits : value ≤ bound * x) :
    (divideTwice rounding value x y).1 ≤ bound :=
  quotient_down_le value x bound xPositive fits

theorem divideTwice_second_le {bound : Int} (xPositive : 0 < x) (yPositive : 0 < y)
    (fits : value ≤ bound * y) : (divideTwice rounding value x y).2 ≤ bound := by
  have first := quotient_down_mul_le value x xPositive
  exact quotient_le rounding _ y bound yPositive (first.trans fits)

theorem divideTwice_ok (nonneg : 0 ≤ value) (xPositive : 0 < x) (xFits : x ≤ INT32_MAX)
    (yPositive : 0 < y) (yFits : y ≤ INT32_MAX) (firstFits : value ≤ INT64_MAX * x)
    (secondFits : value ≤ INT64_MAX * y) :
    bigDivide128OrThrow value.toNat x .ROUND_DOWN = .ok (divideTwice rounding value x y).1 ∧
      bigDivideOrThrow (divideTwice rounding value x y).1 x y rounding =
        .ok (divideTwice rounding value x y).2 := by
  have nonnegs := divideTwice_nonneg rounding nonneg xPositive yPositive
  have first := divideTwice_first_le rounding (y := y) xPositive firstFits
  have second := divideTwice_second_le rounding xPositive yPositive secondFits
  have same : ((value.toNat : Nat) : Int) = value := Int.toNat_of_nonneg nonneg
  have small : value.toNat < 2 ^ 127 := by
    unfold INT64_MAX at firstFits
    unfold INT32_MAX at xFits
    omega
  constructor
  · rw [bigDivide128OrThrow_eq _ _ _ xPositive (xFits.trans int32_le_int64) small]
    · rw [same]
      rfl
    · rw [same]
      exact first
  · exact bigDivideOrThrow_eq _ x y rounding nonnegs.1 first xPositive.le
      (xFits.trans int32_le_int64) yPositive (yFits.trans int32_le_int64) second

end Twice

/-! ### The amounts -/

structure Limit (amount : Int) : Prop where
  nonneg : 0 ≤ amount
  fits : amount ≤ INT64_MAX

/-- What the amounts of an exchange satisfy before their price error is looked at. -/
structure Fair (price : Price) (value : Int) (wheatStays : Bool) (amounts : Int × Int) : Prop where
  wheatNonneg : 0 ≤ amounts.1
  sheepNonneg : 0 ≤ amounts.2
  wheatWithin : ∀ bound, value ≤ bound * price.n → amounts.1 ≤ bound
  sheepWithin : ∀ bound, value ≤ bound * price.d → amounts.2 ≤ bound
  favoured : if wheatStays then amounts.1 * price.n ≤ amounts.2 * price.d
    else amounts.2 * price.d ≤ amounts.1 * price.n

section Amounts

variable {price : Price} {value : Int}

theorem fair_wheatFirst (positive : PositivePrice price) (nonneg : 0 ≤ value) (wheatStays : Bool) :
    Fair price value wheatStays
      (divideTwice (if wheatStays then .ROUND_UP else .ROUND_DOWN) value price.n price.d) := by
  have n := positive.n
  have d := positive.d
  have nonnegs := divideTwice_nonneg (if wheatStays then .ROUND_UP else .ROUND_DOWN) nonneg n d
  constructor
  · exact nonnegs.1
  · exact nonnegs.2
  · intro bound fits
    exact divideTwice_first_le _ n fits
  · intro bound fits
    exact divideTwice_second_le _ n d fits
  · cases wheatStays with
    | true => exact le_quotient_up_mul _ _ d
    | false => exact quotient_down_mul_le _ _ d

theorem fair_sheepFirst (positive : PositivePrice price) (nonneg : 0 ≤ value) (wheatStays : Bool) :
    Fair price value wheatStays
      (divideTwice (if wheatStays then .ROUND_DOWN else .ROUND_UP) value price.d price.n).swap := by
  have n := positive.n
  have d := positive.d
  have nonnegs := divideTwice_nonneg (if wheatStays then .ROUND_DOWN else .ROUND_UP) nonneg d n
  constructor
  · exact nonnegs.2
  · exact nonnegs.1
  · intro bound fits
    exact divideTwice_second_le _ d n fits
  · intro bound fits
    exact quotient_down_le value price.d bound d fits
  · cases wheatStays with
    | true => exact quotient_down_mul_le _ _ n
    | false => exact le_quotient_up_mul _ _ n

theorem near_wheatFirst (positive : PositivePrice price) (wheatStays : Bool) :
    (divideTwice (if wheatStays then .ROUND_UP else .ROUND_DOWN) value price.n price.d).1 * price.n <
      ((divideTwice (if wheatStays then .ROUND_UP else .ROUND_DOWN) value price.n price.d).2 + 1) *
        price.d := by
  have d := positive.d
  rw [add_mul, one_mul]
  cases wheatStays with
  | true =>
      have paid := le_quotient_up_mul (quotient .ROUND_DOWN value price.n * price.n) price.d d
      simp only [divideTwice, if_true]
      omega
  | false => exact lt_quotient_down_mul _ _ d

theorem near_sheepFirst (positive : PositivePrice price) (cheap : ¬ price.n > price.d)
    (wheatStays : Bool) :
    (divideTwice (if wheatStays then .ROUND_DOWN else .ROUND_UP) value price.d price.n).2 * price.n <
      ((divideTwice (if wheatStays then .ROUND_DOWN else .ROUND_UP) value price.d price.n).1 + 1) *
        price.d := by
  have n := positive.n
  have d := positive.d
  rw [add_mul, one_mul]
  cases wheatStays with
  | true =>
      have paid := quotient_down_mul_le (quotient .ROUND_DOWN value price.d * price.d) price.n n
      simp only [divideTwice, if_true]
      omega
  | false =>
      have paid := quotient_up_mul_lt (quotient .ROUND_DOWN value price.d * price.d) price.n n
      simp only [divideTwice, Bool.false_eq_true, if_false]
      omega

theorem exchangeAmounts_fair (positive : PositivePrice price) {wheatValue sheepValue : Int}
    (wheatNonneg : 0 ≤ wheatValue) (sheepNonneg : 0 ≤ sheepValue)
    (wheatFits : min wheatValue sheepValue ≤ INT64_MAX * price.n)
    (sheepFits : min wheatValue sheepValue ≤ INT64_MAX * price.d) :
    ∃ amounts, exchangeAmounts price wheatValue.toNat sheepValue.toNat false = .ok amounts ∧
      Fair price (min wheatValue sheepValue) (decide (wheatValue > sheepValue)) amounts ∧
      amounts.1 * price.n < (amounts.2 + 1) * price.d := by
  have n := positive.n
  have d := positive.d
  have nonneg : 0 ≤ min wheatValue sheepValue := le_min wheatNonneg sheepNonneg
  unfold exchangeAmounts
  by_cases stays : wheatValue > sheepValue
  · have least : min wheatValue sheepValue = sheepValue := min_eq_right stays.le
    have staysNat : wheatValue.toNat > sheepValue.toNat := by omega
    rw [if_pos staysNat, decide_eq_true stays]
    rw [least] at wheatFits sheepFits nonneg ⊢
    by_cases dear : price.n > price.d
    · have ran := divideTwice_ok .ROUND_UP nonneg n positive.nFits d positive.dFits wheatFits
        sheepFits
      refine ⟨_, ?_, fair_wheatFirst positive nonneg true,
        near_wheatFirst positive true⟩
      rw [if_pos (Or.inl dear)]
      exact except_bind_ok.mpr ⟨_, ran.1, except_bind_ok.mpr ⟨_, ran.2, rfl⟩⟩
    · have ran := divideTwice_ok .ROUND_DOWN nonneg d positive.dFits n positive.nFits sheepFits
        wheatFits
      refine ⟨_, ?_, fair_sheepFirst positive nonneg true,
        near_sheepFirst positive dear true⟩
      have cheap : ¬ (price.n > price.d ∨ false = true) := by simpa using dear
      rw [if_neg cheap]
      exact except_bind_ok.mpr ⟨_, ran.1, except_bind_ok.mpr ⟨_, ran.2, rfl⟩⟩
  · have least : min wheatValue sheepValue = wheatValue := min_eq_left (not_lt.mp stays)
    have staysNat : ¬ wheatValue.toNat > sheepValue.toNat := by omega
    rw [if_neg staysNat, decide_eq_false stays]
    rw [least] at wheatFits sheepFits nonneg ⊢
    by_cases dear : price.n > price.d
    · have ran := divideTwice_ok .ROUND_DOWN nonneg n positive.nFits d positive.dFits wheatFits
        sheepFits
      refine ⟨_, ?_, fair_wheatFirst positive nonneg false,
        near_wheatFirst positive false⟩
      rw [if_pos dear]
      exact except_bind_ok.mpr ⟨_, ran.1, except_bind_ok.mpr ⟨_, ran.2, rfl⟩⟩
    · have ran := divideTwice_ok .ROUND_UP nonneg d positive.dFits n positive.nFits sheepFits
        wheatFits
      refine ⟨_, ?_, fair_sheepFirst positive nonneg false,
        near_sheepFirst positive dear false⟩
      rw [if_neg dear]
      exact except_bind_ok.mpr ⟨_, ran.1, except_bind_ok.mpr ⟨_, ran.2, rfl⟩⟩

/-! ### The price error -/

theorem checkPriceErrorBound_eq (positive : PositivePrice price) {wheat sheep : Int}
    (wheatLimit : Limit wheat) (sheepLimit : Limit sheep) :
    checkPriceErrorBound price wheat sheep false =
      .ok (decide (|100 * (price.n * wheat) - 100 * (price.d * sheep)| ≤ price.n * wheat)) := by
  have n := positive.n
  have d := positive.d
  have nFits := positive.nFits
  have dFits := positive.dFits
  have wide : 100 * INT32_MAX ≤ INT64_MAX := by
    unfold INT32_MAX INT64_MAX
    omega
  have wheatValue : 0 ≤ price.n * wheat := mul_nonneg n.le wheatLimit.nonneg
  have sheepValue : 0 ≤ price.d * sheep := mul_nonneg d.le sheepLimit.nonneg
  unfold checkPriceErrorBound
  rw [bigMultiply_eq (100 * price.n) wheat (by omega) (by omega) wheatLimit.nonneg wheatLimit.fits,
    bigMultiply_eq (100 * price.d) sheep (by omega) (by omega) sheepLimit.nonneg sheepLimit.fits,
    bigMultiply_eq price.n wheat n.le (nFits.trans int32_le_int64) wheatLimit.nonneg
      wheatLimit.fits, mul_assoc, mul_assoc]
  change Except.ok (decide ((if (100 * (price.n * wheat)).toNat > (100 * (price.d * sheep)).toNat
    then _ else _) ≤ _)) = _
  congr 2
  rw [eq_iff_iff, abs_le]
  split <;> omega

theorem applyPriceErrorThresholds_favoured (positive : PositivePrice price) {wheatStays : Bool}
    {amounts : Int × Int} (fair : Fair price value wheatStays amounts)
    (wheatFits : amounts.1 ≤ INT64_MAX) (sheepFits : amounts.2 ≤ INT64_MAX)
    (some : amounts.1 > 0 ∧ amounts.2 > 0) {isPathPayment bounded : Bool}
    (checked : checkPriceErrorBound price amounts.1 amounts.2 isPathPayment = .ok bounded) :
    applyPriceErrorThresholds price amounts.1 amounts.2 wheatStays isPathPayment =
      if bounded then .ok ⟨amounts.1, amounts.2, wheatStays⟩
      else if isPathPayment then .error (.runtimeError "exceeded price error bound")
      else .ok ⟨0, 0, wheatStays⟩ := by
  have n := positive.n
  have d := positive.d
  have nFits := positive.nFits.trans int32_le_int64
  have dFits := positive.dFits.trans int32_le_int64
  have wheatValue : 0 ≤ amounts.1 * price.n := mul_nonneg fair.wheatNonneg n.le
  have sheepValue : 0 ≤ amounts.2 * price.d := mul_nonneg fair.sheepNonneg d.le
  have favoured := fair.favoured
  have notSheep : ¬ (wheatStays = true ∧
      (amounts.2 * price.d).toNat < (amounts.1 * price.n).toNat) := by
    rintro ⟨stays, less⟩
    rw [if_pos stays] at favoured
    omega
  have notWheat : ¬ (¬ wheatStays = true ∧
      (amounts.2 * price.d).toNat > (amounts.1 * price.n).toNat) := by
    rintro ⟨leaves, more⟩
    rw [if_neg leaves] at favoured
    omega
  unfold applyPriceErrorThresholds
  rw [if_pos some, bigMultiply_eq _ _ fair.wheatNonneg wheatFits n.le nFits,
    bigMultiply_eq _ _ fair.sheepNonneg sheepFits d.le dFits]
  change (if wheatStays = true ∧ _ then _ else if ¬ wheatStays = true ∧ _ then _ else _) = _
  rw [if_neg notSheep, if_neg notWheat, checked]
  rfl

theorem applyPriceErrorThresholds_fair (positive : PositivePrice price) {wheatStays : Bool}
    {amounts : Int × Int} (fair : Fair price value wheatStays amounts)
    (wheatFits : amounts.1 ≤ INT64_MAX) (sheepFits : amounts.2 ≤ INT64_MAX) :
    ∃ result, applyPriceErrorThresholds price amounts.1 amounts.2 wheatStays false = .ok result ∧
      result.wheatStays = wheatStays ∧
      (result.numWheatReceived = 0 ∧ result.numSheepSend = 0 ∨
        0 < amounts.1 ∧ 0 < amounts.2 ∧ result.numWheatReceived = amounts.1 ∧
          result.numSheepSend = amounts.2 ∧
          |100 * (price.n * amounts.1) - 100 * (price.d * amounts.2)| ≤ price.n * amounts.1) := by
  by_cases some : amounts.1 > 0 ∧ amounts.2 > 0
  · have error := checkPriceErrorBound_eq positive ⟨fair.wheatNonneg, wheatFits⟩
      ⟨fair.sheepNonneg, sheepFits⟩
    rw [applyPriceErrorThresholds_favoured positive fair wheatFits sheepFits some error]
    by_cases tolerated :
        |100 * (price.n * amounts.1) - 100 * (price.d * amounts.2)| ≤ price.n * amounts.1
    · rw [decide_eq_true tolerated]
      exact ⟨_, rfl, rfl, Or.inr ⟨some.1, some.2, rfl, rfl, tolerated⟩⟩
    · rw [decide_eq_false tolerated]
      exact ⟨_, rfl, rfl, Or.inl ⟨rfl, rfl⟩⟩
  · unfold applyPriceErrorThresholds
    rw [if_neg some]
    exact ⟨_, rfl, rfl, Or.inl ⟨rfl, rfl⟩⟩

end Amounts

/-! ### The exchange -/

theorem price_error_le {n d wheat sheep : Int} (dPositive : 0 < d) (wheatPositive : 0 < wheat)
    (error : |100 * (n * wheat) - 100 * (d * sheep)| ≤ n * wheat) :
    |(sheep : ℚ) / wheat - n / d| ≤ n / d / 100 := by
  have dRat : (0 : ℚ) < d := by exact_mod_cast dPositive
  have wheatRat : (0 : ℚ) < wheat := by exact_mod_cast wheatPositive
  have errorRat : |100 * ((n : ℚ) * wheat) - 100 * (d * sheep)| ≤ n * wheat := by
    exact_mod_cast error
  have difference : (sheep : ℚ) / wheat - n / d =
      -(100 * ((n : ℚ) * wheat) - 100 * (d * sheep)) / (100 * (wheat * d)) := by
    field_simp
    ring
  have bound : (n : ℚ) / d / 100 = n * wheat / (100 * (wheat * d)) := by
    field_simp
  rw [difference, bound, abs_div, abs_neg, abs_of_pos (by positivity : (0 : ℚ) < 100 * (wheat * d))]
  exact div_le_div_of_nonneg_right errorRat (by positivity)

section Exchange

variable {price : Price} {maxWheatSend maxWheatReceive maxSheepSend maxSheepReceive : Int}

/-- What the seller can exchange, in units of `1 / (n * d)`. -/
def sellerValue (price : Price) (maxWheatSend maxSheepReceive : Int) : Int :=
  min (maxWheatSend * price.n) (maxSheepReceive * price.d)

def takerValue (price : Price) (maxWheatReceive maxSheepSend : Int) : Int :=
  min (maxSheepSend * price.d) (maxWheatReceive * price.n)

theorem sellerValue_nonneg (positive : PositivePrice price) (wheatSend : Limit maxWheatSend)
    (sheepReceive : Limit maxSheepReceive) : 0 ≤ sellerValue price maxWheatSend maxSheepReceive :=
  le_min (mul_nonneg wheatSend.nonneg positive.n.le) (mul_nonneg sheepReceive.nonneg positive.d.le)

theorem takerValue_nonneg (positive : PositivePrice price) (wheatReceive : Limit maxWheatReceive)
    (sheepSend : Limit maxSheepSend) : 0 ≤ takerValue price maxWheatReceive maxSheepSend :=
  le_min (mul_nonneg sheepSend.nonneg positive.d.le) (mul_nonneg wheatReceive.nonneg positive.n.le)

theorem sellerValue_fits (positive : PositivePrice price) (wheatSend : Limit maxWheatSend)
    (sheepReceive : Limit maxSheepReceive) :
    sellerValue price maxWheatSend maxSheepReceive ≤ INT64_MAX * price.n ∧
      sellerValue price maxWheatSend maxSheepReceive ≤ INT64_MAX * price.d := by
  constructor
  · exact (min_le_left _ _).trans (mul_le_mul_of_nonneg_right wheatSend.fits positive.n.le)
  · exact (min_le_right _ _).trans (mul_le_mul_of_nonneg_right sheepReceive.fits positive.d.le)

theorem exchangeWithout_of_fair (positive : PositivePrice price)
    (wheatSend : Limit maxWheatSend) (wheatReceive : Limit maxWheatReceive)
    (sheepSend : Limit maxSheepSend) (sheepReceive : Limit maxSheepReceive)
    {isPathPayment : Bool} {amounts : Int × Int}
    (ran : exchangeAmounts price (sellerValue price maxWheatSend maxSheepReceive).toNat
      (takerValue price maxWheatReceive maxSheepSend).toNat isPathPayment = .ok amounts)
    (fair : Fair price (min (sellerValue price maxWheatSend maxSheepReceive)
        (takerValue price maxWheatReceive maxSheepSend))
      (decide (sellerValue price maxWheatSend maxSheepReceive >
        takerValue price maxWheatReceive maxSheepSend)) amounts) :
    exchangeV10WithoutPriceErrorThresholds price maxWheatSend maxWheatReceive maxSheepSend
        maxSheepReceive isPathPayment = .ok
      { numWheatReceived := amounts.1
        numSheepSend := amounts.2
        wheatStays := decide (sellerValue price maxWheatSend maxSheepReceive >
          takerValue price maxWheatReceive maxSheepSend) } ∧
      amounts.1 ≤ min maxWheatSend maxWheatReceive ∧
      amounts.2 ≤ min maxSheepSend maxSheepReceive := by
  have n := positive.n
  have d := positive.d
  have nFits := positive.nFits.trans int32_le_int64
  have dFits := positive.dFits.trans int32_le_int64
  have sellerNonneg := sellerValue_nonneg positive wheatSend sheepReceive
  have takerNonneg := takerValue_nonneg positive wheatReceive sheepSend
  -- The value that changes hands is at most each of the four products.
  have wheatSent := fair.wheatWithin maxWheatSend
    ((min_le_left _ _).trans (min_le_left _ _))
  have wheatReceived := fair.wheatWithin maxWheatReceive
    ((min_le_right _ _).trans (min_le_right _ _))
  have sheepSent := fair.sheepWithin maxSheepSend
    ((min_le_right _ _).trans (min_le_left _ _))
  have sheepReceived := fair.sheepWithin maxSheepReceive
    ((min_le_left _ _).trans (min_le_right _ _))
  have wheatNonneg := fair.wheatNonneg
  have sheepNonneg := fair.sheepNonneg
  have wheatOk : ¬ (amounts.1 < 0 ∨ amounts.1 > min maxWheatReceive maxWheatSend) := by omega
  have sheepOk : ¬ (amounts.2 < 0 ∨ amounts.2 > min maxSheepReceive maxSheepSend) := by omega
  have sameStays : ((sellerValue price maxWheatSend maxSheepReceive).toNat >
        (takerValue price maxWheatReceive maxSheepSend).toNat) ↔
      (sellerValue price maxWheatSend maxSheepReceive >
        takerValue price maxWheatReceive maxSheepSend) := by omega
  refine ⟨?_, le_min wheatSent wheatReceived, le_min sheepSent sheepReceived⟩
  unfold exchangeV10WithoutPriceErrorThresholds
  rw [calculateOfferValue_eq n.le nFits d.le dFits wheatSend.nonneg wheatSend.fits
      sheepReceive.nonneg sheepReceive.fits,
    calculateOfferValue_eq d.le dFits n.le nFits sheepSend.nonneg sheepSend.fits
      wheatReceive.nonneg wheatReceive.fits]
  refine except_bind_ok.mpr ⟨_, rfl, ?_⟩
  refine except_bind_ok.mpr ⟨_, rfl, ?_⟩
  refine except_bind_ok.mpr ⟨amounts, ran, ?_⟩
  rw [if_neg wheatOk, if_neg sheepOk, ← decide_eq_decide.mpr sameStays]
  rfl

end Exchange

/-- An exchange that is not part of a path never throws, stays within the four limits, favours the
side that stays and, where anything changes hands, does so at a price within one percent. -/
theorem exchangeV10_fair (price : Price) (positive : PositivePrice price)
    (maxWheatSend maxWheatReceive maxSheepSend maxSheepReceive : Int)
    (wheatSend : Limit maxWheatSend) (wheatReceive : Limit maxWheatReceive)
    (sheepSend : Limit maxSheepSend) (sheepReceive : Limit maxSheepReceive) :
    ∃ result, exchangeV10 price maxWheatSend maxWheatReceive maxSheepSend maxSheepReceive false =
        .ok result ∧
      0 ≤ result.numWheatReceived ∧
      result.numWheatReceived ≤ min maxWheatSend maxWheatReceive ∧
      0 ≤ result.numSheepSend ∧
      result.numSheepSend ≤ min maxSheepSend maxSheepReceive ∧
      (result.numWheatReceived = 0 ∧ result.numSheepSend = 0 ∨
        0 < result.numWheatReceived ∧ 0 < result.numSheepSend) ∧
      (if result.wheatStays
        then result.numSheepSend * price.d ≥ result.numWheatReceived * price.n
        else result.numSheepSend * price.d ≤ result.numWheatReceived * price.n) ∧
      (result.numWheatReceived ≠ 0 →
        |(result.numSheepSend : ℚ) / result.numWheatReceived - price.n / price.d| ≤
          price.n / price.d / 100) := by
  have d := positive.d
  have fits := sellerValue_fits positive wheatSend sheepReceive
  obtain ⟨amounts, ran, fair, -⟩ := exchangeAmounts_fair positive
    (sellerValue_nonneg positive wheatSend sheepReceive)
    (takerValue_nonneg positive wheatReceive sheepSend)
    ((min_le_left _ _).trans fits.1) ((min_le_left _ _).trans fits.2)
  obtain ⟨without, wheatWithin, sheepWithin⟩ := exchangeWithout_of_fair positive wheatSend
    wheatReceive sheepSend sheepReceive ran fair
  obtain ⟨result, applied, stays, exchanged⟩ := applyPriceErrorThresholds_fair positive fair
    ((le_min_iff.mp wheatWithin).1.trans wheatSend.fits)
    ((le_min_iff.mp sheepWithin).1.trans sheepSend.fits)
  refine ⟨result, except_bind_ok.mpr ⟨_, without, applied⟩, ?_⟩
  have favoured := fair.favoured
  rcases exchanged with ⟨wheat, sheep⟩ | ⟨wheatSome, sheepSome, wheat, sheep, error⟩
  · rw [wheat, sheep]
    refine ⟨le_rfl, le_min wheatSend.nonneg wheatReceive.nonneg, le_rfl,
      le_min sheepSend.nonneg sheepReceive.nonneg, Or.inl ⟨rfl, rfl⟩, ?_, ?_⟩
    · split <;> simp
    · intro some
      exact absurd rfl some
  · rw [wheat, sheep, stays]
    exact ⟨fair.wheatNonneg, wheatWithin, fair.sheepNonneg, sheepWithin,
      Or.inr ⟨wheatSome, sheepSome⟩, favoured, fun _ => price_error_le d wheatSome error⟩

/-- At the price 3/2, a seller who takes at most 80 sheep gives 53 wheat for 79. -/
theorem exchangeV10_fair_threeHalves :
    exchangeV10 ⟨3, 2⟩ 100 200 150 80 false = .ok ⟨53, 79, false⟩ ∧
      |((79 : Int) : ℚ) / (53 : Int) - (3 : Int) / (2 : Int)| ≤ (3 : Int) / (2 : Int) / 100 := by
  have ran : exchangeV10 ⟨3, 2⟩ 100 200 150 80 false = .ok ⟨53, 79, false⟩ := by decide
  obtain ⟨result, same, _, _, _, _, _, _, near⟩ := exchangeV10_fair ⟨3, 2⟩
    ⟨by decide, by decide, by decide, by decide⟩ 100 200 150 80 ⟨by decide, by decide⟩
    ⟨by decide, by decide⟩ ⟨by decide, by decide⟩ ⟨by decide, by decide⟩
  rw [ran] at same
  cases same
  exact ⟨ran, near (by decide)⟩

/-! ### The exchange before version 10 -/

def divided (rounding : Rounding) (a c : Int) : Option Int :=
  if quotient rounding a c ≤ INT64_MAX then some (quotient rounding a c) else none

theorem divided_getD (rounding : Rounding) (a c : Int) :
    (divided rounding a c).getD INT64_MAX = min (quotient rounding a c) INT64_MAX := by
  unfold divided
  split
  · rename_i fits
    rw [Option.getD_some, min_eq_left fits]
  · rename_i tooLarge
    rw [Option.getD_none, min_eq_right (not_le.mp tooLarge).le]

theorem divided_isNone (rounding : Rounding) (a c : Int) :
    (divided rounding a c).isNone = decide (INT64_MAX < quotient rounding a c) := by
  unfold divided
  split
  · rename_i fits
    simp [not_lt.mpr fits]
  · rename_i tooLarge
    simp [not_le.mp tooLarge]

theorem le_quotient_down {a c q : Int} (positive : 0 < c) (fits : q * c ≤ a) :
    q ≤ quotient .ROUND_DOWN a c := by
  have above := lt_quotient_down_mul a c positive
  have scaled : q * c < (quotient .ROUND_DOWN a c + 1) * c := by
    rw [add_mul, one_mul]
    omega
  exact Int.lt_add_one_iff.mp (lt_of_mul_lt_mul_right scaled positive.le)

section ExchangeV3

variable {price : Price} {wheat maxSheepSend : Int}

def sheepFor (price : Price) (wheat maxSheepSend : Int) : Int :=
  min (quotient .ROUND_UP (wheat * price.n) price.d) maxSheepSend

def wheatFor (price : Price) (wheat maxSheepSend : Int) : Int :=
  min wheat (quotient .ROUND_DOWN (sheepFor price wheat maxSheepSend * price.d) price.n)

theorem sheepFor_limit (positive : PositivePrice price) (wheatLimit : Limit wheat)
    (sheepLimit : Limit maxSheepSend) : Limit (sheepFor price wheat maxSheepSend) where
  nonneg := by
    have value := mul_nonneg wheatLimit.nonneg positive.n.le
    exact le_min (quotient_nonneg .ROUND_UP _ _ value positive.d) sheepLimit.nonneg
  fits := (min_le_right _ _).trans sheepLimit.fits

theorem wheatFor_favours (positive : PositivePrice price) :
    wheatFor price wheat maxSheepSend * price.n ≤ sheepFor price wheat maxSheepSend * price.d := by
  have n := positive.n
  calc wheatFor price wheat maxSheepSend * price.n
      ≤ quotient .ROUND_DOWN (sheepFor price wheat maxSheepSend * price.d) price.n * price.n :=
        mul_le_mul_of_nonneg_right (min_le_right _ _) n.le
    _ ≤ sheepFor price wheat maxSheepSend * price.d := quotient_down_mul_le _ _ n

theorem wheatFor_lt_iff (positive : PositivePrice price) :
    wheatFor price wheat maxSheepSend < wheat ↔
      maxSheepSend < quotient .ROUND_UP (wheat * price.n) price.d := by
  have n := positive.n
  have d := positive.d
  constructor
  · intro cut
    by_contra within
    have whole : sheepFor price wheat maxSheepSend =
        quotient .ROUND_UP (wheat * price.n) price.d := min_eq_left (not_lt.mp within)
    have paid := le_quotient_up_mul (wheat * price.n) price.d d
    rw [← whole] at paid
    have all : wheatFor price wheat maxSheepSend = wheat := min_eq_left (le_quotient_down n paid)
    omega
  · intro tooMany
    have limited : sheepFor price wheat maxSheepSend = maxSheepSend := min_eq_right tooMany.le
    have worth : maxSheepSend * price.d < wheat * price.n := by
      by_contra enough
      have bounded := quotient_le .ROUND_UP (wheat * price.n) price.d maxSheepSend d
        (not_lt.mp enough)
      omega
    have favours : wheatFor price wheat maxSheepSend * price.n ≤ _ := wheatFor_favours positive
    rw [limited] at favours
    exact lt_of_mul_lt_mul_right (favours.trans_lt worth) n.le

theorem exchangeV3_eq (positive : PositivePrice price) {wheatReceive maxWheatReceive : Int}
    (wheatLimit : Limit wheatReceive) (receiveLimit : Limit maxWheatReceive)
    (sheepLimit : Limit maxSheepSend) :
    exchangeV3 wheatReceive price maxWheatReceive maxSheepSend = .ok
      { numWheatReceived := wheatFor price (min wheatReceive maxWheatReceive) maxSheepSend
        numSheepSend := sheepFor price (min wheatReceive maxWheatReceive) maxSheepSend
        reduced := decide (maxWheatReceive < wheatReceive ∨
          maxSheepSend <
            quotient .ROUND_UP (min wheatReceive maxWheatReceive * price.n) price.d) } := by
  have nFits := positive.nFits.trans int32_le_int64
  have dFits := positive.dFits.trans int32_le_int64
  have least : Limit (min wheatReceive maxWheatReceive) :=
    ⟨le_min wheatLimit.nonneg receiveLimit.nonneg, (min_le_left _ _).trans wheatLimit.fits⟩
  have sheep := sheepFor_limit positive least sheepLimit
  have sheepLeast : min ((divided .ROUND_UP (min wheatReceive maxWheatReceive * price.n)
      price.d).getD INT64_MAX) maxSheepSend =
        sheepFor price (min wheatReceive maxWheatReceive) maxSheepSend := by
    have fits := sheepLimit.fits
    rw [divided_getD]
    unfold sheepFor
    omega
  have asked : bigDivide _ price.n price.d .ROUND_UP = .ok (divided .ROUND_UP _ _) :=
    bigDivide_eq _ price.n price.d .ROUND_UP least.nonneg least.fits positive.n.le nFits positive.d
      dFits
  have given : bigDivide _ price.d price.n .ROUND_DOWN = .ok (divided .ROUND_DOWN _ _) :=
    bigDivide_eq _ price.d price.n .ROUND_DOWN sheep.nonneg sheep.fits positive.d.le dFits
      positive.n nFits
  rw [← sheepLeast] at given
  unfold exchangeV3
  refine except_bind_ok.mpr ⟨_, asked, except_bind_ok.mpr ⟨_, given, ?_⟩⟩
  change Except.ok (ExchangeResult.mk _ _ _) = _
  have fits := sheepLimit.fits
  have leastFits := least.fits
  congr 2
  · rw [sheepLeast, divided_getD]
    unfold wheatFor
    omega
  · rw [divided_getD, divided_isNone, Bool.or_assoc, ← Bool.decide_or, ← Bool.decide_or]
    apply decide_eq_decide.mpr
    omega

/-- Before version 10 an exchange keeps to the three limits and never gives the seller less than its
price; it says that it was reduced exactly where the taker gets less than was offered. -/
theorem exchangeV3_fair (price : Price) (positive : PositivePrice price)
    (wheatReceive maxWheatReceive maxSheepSend : Int) (wheatLimit : Limit wheatReceive)
    (receiveLimit : Limit maxWheatReceive) (sheepLimit : Limit maxSheepSend) :
    ∃ result, exchangeV3 wheatReceive price maxWheatReceive maxSheepSend = .ok result ∧
      result.numWheatReceived ≤ min wheatReceive maxWheatReceive ∧
      result.numSheepSend ≤ maxSheepSend ∧
      result.numWheatReceived * price.n ≤ result.numSheepSend * price.d ∧
      (result.reduced = true ↔ result.numWheatReceived < wheatReceive) := by
  refine ⟨_, exchangeV3_eq positive wheatLimit receiveLimit sheepLimit, min_le_left _ _,
    min_le_right _ _, wheatFor_favours positive, ?_⟩
  have cut : wheatFor price (min wheatReceive maxWheatReceive) maxSheepSend <
      min wheatReceive maxWheatReceive ↔ _ := wheatFor_lt_iff positive
  have within : wheatFor price (min wheatReceive maxWheatReceive) maxSheepSend ≤
      min wheatReceive maxWheatReceive := min_le_left _ _
  dsimp only
  rw [decide_eq_true_eq, ← cut]
  omega

/-- At the price 3/2, 50 sheep buy 33 of the 80 wheat that are asked for. -/
theorem exchangeV3_fair_reduced :
    exchangeV3 100 ⟨3, 2⟩ 80 50 = .ok ⟨33, 50, true⟩ ∧ (33 : Int) * 3 ≤ 50 * 2 := by
  have ran : exchangeV3 100 ⟨3, 2⟩ 80 50 = .ok ⟨33, 50, true⟩ := by decide
  obtain ⟨result, same, _, _, favours, _⟩ := exchangeV3_fair ⟨3, 2⟩
    ⟨by decide, by decide, by decide, by decide⟩ 100 80 50 ⟨by decide, by decide⟩
    ⟨by decide, by decide⟩ ⟨by decide, by decide⟩
  rw [ran] at same
  cases same
  exact ⟨ran, favours⟩

end ExchangeV3

end ViiCore.Transactions
