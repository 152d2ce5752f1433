import ViiCore.Transactions.TransactionUtils

/-!
The liabilities of an offer as integer division.

An offer is measured against a taker without limits, so the taker always stays and rounding
favours it: the two amounts are quotients of the value of the offer. Adjusting an offer keeps
exactly what it stands for, or nothing; an adjusted offer is not adjusted further and has the
liabilities it had before.
-/

namespace ViiCore.Transactions

open ViiCore.Ledger

structure PositivePrice (price : Price) : Prop where
  n : 0 < price.n
  nFits : price.n ≤ INT32_MAX
  d : 0 < price.d
  dFits : price.d ≤ INT32_MAX

theorem bigMultiply_eq (a b : Int) (aNonneg : 0 ≤ a) (aFits : a ≤ INT64_MAX) (bNonneg : 0 ≤ b)
    (bFits : b ≤ INT64_MAX) : bigMultiply a b = .ok (a * b).toNat := by
  obtain ⟨a, rfl⟩ := Int.eq_ofNat_of_zero_le aNonneg
  obtain ⟨b, rfl⟩ := Int.eq_ofNat_of_zero_le bNonneg
  have productFits : a * b ≤ 9223372036854775807 * 9223372036854775807 := by
    unfold INT64_MAX at aFits bFits
    exact Nat.mul_le_mul (by omega) (by omega)
  have small : a * b < 2 ^ 128 := by
    norm_num at productFits ⊢
    omega
  have product : ((a : Int) * (b : Int)).toNat = a * b := by
    rw [← Nat.cast_mul, Int.toNat_natCast]
  unfold bigMultiply assertThat
  simp only [Nat.cast_nonneg, and_self, decide_true, if_true, pure_bind, Int.toNat_natCast, product]
  rw [wrap128_of_lt small]
  rfl

theorem bigDivideOrThrow_eq (a b c : Int) (rounding : Rounding) (aNonneg : 0 ≤ a)
    (aFits : a ≤ INT64_MAX) (bNonneg : 0 ≤ b) (bFits : b ≤ INT64_MAX) (positive : 0 < c)
    (cFits : c ≤ INT64_MAX) (fits : quotient rounding (a * b) c ≤ INT64_MAX) :
    bigDivideOrThrow a b c rounding = .ok (quotient rounding (a * b) c) := by
  unfold bigDivideOrThrow
  rw [bigDivide_eq a b c rounding aNonneg aFits bNonneg bFits positive cFits, if_pos fits]
  rfl

theorem bigDivide128OrThrow_eq (a : Nat) (b : Int) (rounding : Rounding) (positive : 0 < b)
    (bFits : b ≤ INT64_MAX) (small : a < 2 ^ 127) (fits : quotient rounding a b ≤ INT64_MAX) :
    bigDivide128OrThrow a b rounding = .ok (quotient rounding a b) := by
  unfold bigDivide128OrThrow
  rw [bigDivide128_eq a b rounding positive bFits (by omega), if_pos fits]
  rfl

/-! ### What an offer stands for -/

/-- The value of an offer in units of `1 / (n * d)`. -/
def offerValue (price : Price) (amount : Int) : Int :=
  min (amount * price.n) (INT64_MAX * price.d)

def standing (price : Price) (amount : Int) : Int × Int :=
  if price.n > price.d then
    let wheat := quotient .ROUND_DOWN (offerValue price amount) price.n
    (wheat, quotient .ROUND_DOWN (wheat * price.n) price.d)
  else
    let sheep := quotient .ROUND_DOWN (offerValue price amount) price.d
    (quotient .ROUND_UP (sheep * price.d) price.n, sheep)

section Standing

variable {price : Price} {amount : Int}

theorem standing_dear (dear : price.n > price.d) (amount : Int) :
    standing price amount =
      (quotient .ROUND_DOWN (offerValue price amount) price.n,
        quotient .ROUND_DOWN
          (quotient .ROUND_DOWN (offerValue price amount) price.n * price.n) price.d) :=
  if_pos dear

theorem standing_cheap (cheap : ¬ price.n > price.d) (amount : Int) :
    standing price amount =
      (quotient .ROUND_UP
          (quotient .ROUND_DOWN (offerValue price amount) price.d * price.d) price.n,
        quotient .ROUND_DOWN (offerValue price amount) price.d) :=
  if_neg cheap

theorem int32_le_int64 : INT32_MAX ≤ INT64_MAX := by
  unfold INT32_MAX INT64_MAX
  omega

theorem offerValue_nonneg (positive : PositivePrice price) (nonneg : 0 ≤ amount) :
    0 ≤ offerValue price amount := by
  have n := positive.n
  have d := positive.d
  have bound : (0 : Int) ≤ INT64_MAX := by
    unfold INT64_MAX
    omega
  exact le_min (mul_nonneg nonneg n.le) (mul_nonneg bound d.le)

theorem standing_nonneg (positive : PositivePrice price) (nonneg : 0 ≤ amount) :
    0 ≤ (standing price amount).1 ∧ 0 ≤ (standing price amount).2 := by
  have value := offerValue_nonneg positive nonneg
  have n := positive.n
  have d := positive.d
  unfold standing
  split
  · have wheat := quotient_nonneg .ROUND_DOWN _ price.n value n
    exact ⟨wheat, quotient_nonneg .ROUND_DOWN _ price.d (mul_nonneg wheat n.le) d⟩
  · have sheep := quotient_nonneg .ROUND_DOWN _ price.d value d
    exact ⟨quotient_nonneg .ROUND_UP _ price.n (mul_nonneg sheep d.le) n, sheep⟩

theorem standing_bounds (positive : PositivePrice price) (amount : Int) :
    (standing price amount).1 ≤ amount ∧ (standing price amount).2 ≤ INT64_MAX ∧
      (standing price amount).2 * price.d ≤ (standing price amount).1 * price.n := by
  have n := positive.n
  have d := positive.d
  have byAmount : offerValue price amount ≤ amount * price.n := min_le_left _ _
  have byLimit : offerValue price amount ≤ INT64_MAX * price.d := min_le_right _ _
  unfold standing
  split
  · have wheat := quotient_down_mul_le (offerValue price amount) price.n n
    dsimp only
    constructor
    · exact quotient_down_le _ _ _ n byAmount
    constructor
    · exact quotient_down_le _ _ _ d (wheat.trans byLimit)
    · exact quotient_down_mul_le _ _ d
  · rename_i cheap
    have sheep := quotient_down_mul_le (offerValue price amount) price.d d
    dsimp only
    constructor
    · have below := quotient_up_mul_lt
        (quotient .ROUND_DOWN (offerValue price amount) price.d * price.d) price.n n
      have scaled : quotient .ROUND_UP
          (quotient .ROUND_DOWN (offerValue price amount) price.d * price.d) price.n * price.n <
          (amount + 1) * price.n := by
        rw [add_mul, one_mul]
        omega
      exact Int.lt_add_one_iff.mp (lt_of_mul_lt_mul_right scaled n.le)
    constructor
    · exact quotient_down_le _ _ _ d byLimit
    · exact le_quotient_up_mul _ _ n

theorem quotient_down_eq {a c q : Int} (positive : 0 < c) (low : q * c ≤ a) (high : a < q * c + c) :
    quotient .ROUND_DOWN a c = q := by
  have below := quotient_down_mul_le a c positive
  have above := lt_quotient_down_mul a c positive
  have upper : quotient .ROUND_DOWN a c * c < (q + 1) * c := by
    rw [add_mul, one_mul]
    omega
  have lower : q * c < (quotient .ROUND_DOWN a c + 1) * c := by
    rw [add_mul, one_mul]
    omega
  have upper' := lt_of_mul_lt_mul_right upper positive.le
  have lower' := lt_of_mul_lt_mul_right lower positive.le
  omega

theorem standing_idem (positive : PositivePrice price) (fits : amount ≤ INT64_MAX) :
    standing price (standing price amount).1 = standing price amount := by
  have n := positive.n
  have d := positive.d
  have bounds := standing_bounds positive amount
  have byLimit : offerValue price amount ≤ INT64_MAX * price.d := min_le_right _ _
  by_cases dear : price.n > price.d
  · have wheat := quotient_down_mul_le (offerValue price amount) price.n n
    have value : offerValue price (standing price amount).1 =
        (standing price amount).1 * price.n := by
      rw [standing_dear dear amount]
      exact min_eq_left (wheat.trans byLimit)
    have same : quotient .ROUND_DOWN (offerValue price (standing price amount).1) price.n =
        (standing price amount).1 := by
      rw [value]
      apply quotient_down_eq n le_rfl
      omega
    rw [standing_dear dear (standing price amount).1, same, standing_dear dear amount]
  · have sheepValue : (standing price amount).1 * price.n ≤ INT64_MAX * price.d := by
      have small : (standing price amount).1 ≤ INT64_MAX := bounds.1.trans fits
      exact mul_le_mul small (not_lt.mp dear) n.le (by unfold INT64_MAX; omega)
    have value : offerValue price (standing price amount).1 =
        (standing price amount).1 * price.n := min_eq_left sheepValue
    have above : (standing price amount).1 * price.n <
        (standing price amount).2 * price.d + price.d := by
      have near := quotient_up_mul_lt
        (quotient .ROUND_DOWN (offerValue price amount) price.d * price.d) price.n n
      rw [standing_cheap dear amount]
      dsimp only
      omega
    have same : quotient .ROUND_DOWN (offerValue price (standing price amount).1) price.d =
        (standing price amount).2 := by
      rw [value]
      exact quotient_down_eq d bounds.2.2 above
    rw [standing_cheap dear (standing price amount).1, same, standing_cheap dear amount]

theorem calculateOfferValue_eq {priceN priceD maxSend maxReceive : Int} (n : 0 ≤ priceN)
    (nFits : priceN ≤ INT64_MAX) (d : 0 ≤ priceD) (dFits : priceD ≤ INT64_MAX)
    (send : 0 ≤ maxSend) (sendFits : maxSend ≤ INT64_MAX) (receive : 0 ≤ maxReceive)
    (receiveFits : maxReceive ≤ INT64_MAX) :
    calculateOfferValue priceN priceD maxSend maxReceive =
      .ok (min (maxSend * priceN) (maxReceive * priceD)).toNat := by
  unfold calculateOfferValue
  rw [bigMultiply_eq maxSend priceN send sendFits n nFits,
    bigMultiply_eq maxReceive priceD receive receiveFits d dFits]
  have least : min (maxSend * priceN).toNat (maxReceive * priceD).toNat =
      (min (maxSend * priceN) (maxReceive * priceD)).toNat := by omega
  rw [← least]
  rfl

theorem offerValue_small (positive : PositivePrice price) (amount : Int) :
    (offerValue price amount).toNat < 2 ^ 127 := by
  have byLimit : offerValue price amount ≤ INT64_MAX * price.d := min_le_right _ _
  have dFits := positive.dFits
  unfold INT64_MAX at byLimit
  unfold INT32_MAX at dFits
  omega

theorem exchangeAmounts_standing (positive : PositivePrice price) (nonneg : 0 ≤ amount)
    (fits : amount ≤ INT64_MAX) {sheepValue : Nat}
    (stays : ¬ (offerValue price amount).toNat > sheepValue) :
    exchangeAmounts price (offerValue price amount).toNat sheepValue false =
      .ok (standing price amount) := by
  have n := positive.n
  have d := positive.d
  have nFits := positive.nFits.trans int32_le_int64
  have dFits := positive.dFits.trans int32_le_int64
  have value : (((offerValue price amount).toNat : Nat) : Int) = offerValue price amount :=
    Int.toNat_of_nonneg (offerValue_nonneg positive nonneg)
  have small := offerValue_small positive amount
  have bounds := standing_bounds positive amount
  have nonnegs := standing_nonneg positive nonneg
  unfold exchangeAmounts
  rw [if_neg stays]
  by_cases dear : price.n > price.d
  · rw [standing_dear dear amount] at bounds nonnegs ⊢
    dsimp only at bounds nonnegs
    rw [if_pos dear, bigDivide128OrThrow_eq _ _ _ n nFits small (by rw [value]; omega), value]
    have second := bigDivideOrThrow_eq _ price.n price.d .ROUND_DOWN nonnegs.1 (by omega) n.le
      nFits d dFits bounds.2.1
    change (bigDivideOrThrow _ _ _ _ >>= _) = _
    rw [second]
    rfl
  · rw [standing_cheap dear amount] at bounds nonnegs ⊢
    dsimp only at bounds nonnegs
    rw [if_neg dear, bigDivide128OrThrow_eq _ _ _ d dFits small (by rw [value]; omega), value]
    have second := bigDivideOrThrow_eq _ price.d price.n .ROUND_UP nonnegs.2 bounds.2.1 d.le
      dFits n nFits (by omega)
    change (bigDivideOrThrow _ _ _ _ >>= _) = _
    rw [second]
    rfl

theorem offerLiabilities_eq (positive : PositivePrice price) (nonneg : 0 ≤ amount)
    (fits : amount ≤ INT64_MAX) :
    offerLiabilities price amount =
      .ok { numWheatReceived := (standing price amount).1
            numSheepSend := (standing price amount).2
            wheatStays := false } := by
  have n := positive.n
  have d := positive.d
  have nFits := positive.nFits.trans int32_le_int64
  have dFits := positive.dFits.trans int32_le_int64
  have limit : (0 : Int) ≤ INT64_MAX := by
    unfold INT64_MAX
    omega
  have bounds := standing_bounds positive amount
  have nonnegs := standing_nonneg positive nonneg
  -- Against an unlimited taker it is the offer that runs out.
  have stays : ¬ (offerValue price amount).toNat >
      (min (INT64_MAX * price.d) (INT64_MAX * price.n)).toNat := by
    have byAmount : amount * price.n ≤ INT64_MAX * price.n := mul_le_mul_of_nonneg_right fits n.le
    have least : offerValue price amount ≤ min (INT64_MAX * price.d) (INT64_MAX * price.n) := by
      unfold offerValue
      omega
    omega
  unfold offerLiabilities exchangeV10WithoutPriceErrorThresholds
  rw [calculateOfferValue_eq n.le nFits d.le dFits nonneg fits limit le_rfl,
    calculateOfferValue_eq d.le dFits n.le nFits limit le_rfl limit le_rfl]
  change (exchangeAmounts price (offerValue price amount).toNat _ false >>= _) = _
  rw [exchangeAmounts_standing positive nonneg fits stays]
  have wheatWithin : ¬ ((standing price amount).1 < 0 ∨
      (standing price amount).1 > min INT64_MAX amount) := by omega
  have sheepWithin : ¬ ((standing price amount).2 < 0 ∨
      (standing price amount).2 > min INT64_MAX INT64_MAX) := by omega
  change (if (standing price amount).1 < 0 ∨ (standing price amount).1 > min INT64_MAX amount
    then _ else _) = _
  rw [if_neg wheatWithin, if_neg sheepWithin]
  change Except.ok (ExchangeResultV10.mk (standing price amount).1 (standing price amount).2
    (decide ((offerValue price amount).toNat > _))) = _
  rw [decide_eq_false stays]

/-! ### Adjusting -/

/-- Whether the price error of an exchange is small enough for it to take place. -/
def tolerable (price : Price) (exchange : Int × Int) : Bool :=
  0 < exchange.1 && 0 < exchange.2 &&
    checkPriceErrorBound price exchange.1 exchange.2 false matches .ok true

def adjusted (price : Price) (amount : Int) : Int :=
  if tolerable price (standing price amount) then (standing price amount).1 else 0

theorem checkPriceErrorBound_total (positive : PositivePrice price) {wheat sheep : Int}
    (wheatNonneg : 0 ≤ wheat) (wheatFits : wheat ≤ INT64_MAX) (sheepNonneg : 0 ≤ sheep)
    (sheepFits : sheep ≤ INT64_MAX) :
    ∃ bounded, checkPriceErrorBound price wheat sheep false = .ok bounded := by
  have n := positive.n
  have d := positive.d
  have nFits := positive.nFits
  have dFits := positive.dFits
  have wide : 100 * INT32_MAX ≤ INT64_MAX := by
    unfold INT32_MAX INT64_MAX
    omega
  unfold checkPriceErrorBound
  rw [bigMultiply_eq (100 * price.n) wheat (by omega) (by omega) wheatNonneg wheatFits,
    bigMultiply_eq (100 * price.d) sheep (by omega) (by omega) sheepNonneg sheepFits,
    bigMultiply_eq price.n wheat n.le (nFits.trans int32_le_int64) wheatNonneg wheatFits]
  exact ⟨_, rfl⟩

theorem applyPriceErrorThresholds_eq (positive : PositivePrice price) {wheat sheep : Int}
    (wheatNonneg : 0 ≤ wheat) (wheatFits : wheat ≤ INT64_MAX) (sheepNonneg : 0 ≤ sheep)
    (sheepFits : sheep ≤ INT64_MAX) (favoured : sheep * price.d ≤ wheat * price.n) :
    ∃ result, applyPriceErrorThresholds price wheat sheep false false = .ok result ∧
      result.numWheatReceived = if tolerable price (wheat, sheep) then wheat else 0 := by
  have n := positive.n
  have d := positive.d
  have nFits := positive.nFits.trans int32_le_int64
  have dFits := positive.dFits.trans int32_le_int64
  obtain ⟨bounded, checked⟩ := checkPriceErrorBound_total positive wheatNonneg wheatFits sheepNonneg
    sheepFits
  unfold applyPriceErrorThresholds
  by_cases both : wheat > 0 ∧ sheep > 0
  · rw [if_pos both, bigMultiply_eq wheat price.n wheatNonneg wheatFits n.le nFits,
      bigMultiply_eq sheep price.d sheepNonneg sheepFits d.le dFits, checked]
    have within : ¬ (¬ (false = true) ∧ (sheep * price.d).toNat > (wheat * price.n).toNat) := by
      omega
    have kept : tolerable price (wheat, sheep) = bounded := by
      unfold tolerable
      dsimp only
      rw [checked]
      cases bounded <;> simp [both.1, both.2]
    cases bounded with
    | true =>
        refine ⟨⟨wheat, sheep, false⟩, ?_, ?_⟩
        · change (if ¬ (false = true) ∧ (sheep * price.d).toNat > (wheat * price.n).toNat
            then _ else _) = _
          rw [if_neg within]
          rfl
        · rw [kept]
          rfl
    | false =>
        refine ⟨⟨0, 0, false⟩, ?_, ?_⟩
        · change (if ¬ (false = true) ∧ (sheep * price.d).toNat > (wheat * price.n).toNat
            then _ else _) = _
          rw [if_neg within]
          rfl
        · rw [kept]
          rfl
  · rw [if_neg both]
    have refused : tolerable price (wheat, sheep) = false := by
      unfold tolerable
      by_cases positiveWheat : 0 < wheat
      · have zero : ¬ 0 < sheep := fun positiveSheep => both ⟨positiveWheat, positiveSheep⟩
        simp [zero]
      · simp [positiveWheat]
    refine ⟨⟨0, 0, false⟩, rfl, ?_⟩
    rw [refused]
    rfl

theorem adjustOfferAmount_eq (positive : PositivePrice price) (nonneg : 0 ≤ amount)
    (fits : amount ≤ INT64_MAX) :
    adjustOfferAmount price amount INT64_MAX = .ok (adjusted price amount) := by
  have bounds := standing_bounds positive amount
  have nonnegs := standing_nonneg positive nonneg
  obtain ⟨result, applied, amounts⟩ := applyPriceErrorThresholds_eq positive nonnegs.1
    (bounds.1.trans fits) nonnegs.2 bounds.2.1 bounds.2.2
  have exchanged := offerLiabilities_eq positive nonneg fits
  unfold offerLiabilities at exchanged
  unfold adjustOfferAmount exchangeV10
  rw [exchanged]
  change (applyPriceErrorThresholds price (standing price amount).1 (standing price amount).2
    false false >>= _) = _
  rw [applied]
  change Except.ok result.numWheatReceived = _
  rw [amounts]
  rfl

theorem tolerable_pos {exchange : Int × Int} (tolerated : tolerable price exchange = true) :
    0 < exchange.1 ∧ 0 < exchange.2 := by
  unfold tolerable at tolerated
  simp only [Bool.and_eq_true, decide_eq_true_eq] at tolerated
  exact tolerated.1

theorem standing_adjusted (positive : PositivePrice price) (fits : amount ≤ INT64_MAX)
    (kept : adjusted price amount ≠ 0) :
    standing price (adjusted price amount) = standing price amount ∧
      0 < (standing price amount).1 ∧ 0 < (standing price amount).2 := by
  unfold adjusted at kept ⊢
  split
  · rename_i tolerated
    exact ⟨standing_idem positive fits, tolerable_pos tolerated⟩
  · rename_i refused
    rw [if_neg refused] at kept
    exact absurd rfl kept

theorem adjusted_fixed (positive : PositivePrice price) (fits : amount ≤ INT64_MAX)
    (kept : adjusted price amount ≠ 0) :
    adjusted price (adjusted price amount) = adjusted price amount := by
  have same := (standing_adjusted positive fits kept).1
  change (if tolerable price (standing price (adjusted price amount)) then
    (standing price (adjusted price amount)).1 else 0) = _
  rw [same]
  rfl

theorem adjusted_bounds (positive : PositivePrice price) (nonneg : 0 ≤ amount) :
    0 ≤ adjusted price amount ∧ adjusted price amount ≤ amount := by
  have bounds := standing_bounds positive amount
  have nonnegs := standing_nonneg positive nonneg
  unfold adjusted
  split <;> omega

end Standing

end ViiCore.Transactions
