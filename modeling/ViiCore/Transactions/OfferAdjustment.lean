import ViiCore.Transactions.ExchangeBounds

/-!
Adjusting an offer, under any limits of its seller.

Against a taker without limits the offer runs out, and the value it stands for decides both
amounts. Adjusting an offer to its wheat keeps that value within a unit of the larger term of the
price, so both amounts come out again: adjusting twice changes nothing, the liabilities of the
adjusted offer are its amount and its sheep, and a taker that takes all of it pays just these
sheep, also on a path, where an error of more than one percent would throw.
-/

namespace ViiCore.Transactions

open ViiCore.Ledger

section Whole

variable {price : Price} {value : Int}

def whole (price : Price) (value : Int) : Int × Int :=
  if price.n > price.d then divideTwice .ROUND_DOWN value price.n price.d
  else (divideTwice .ROUND_UP value price.d price.n).swap

theorem whole_dear (dear : price.n > price.d) :
    whole price value = divideTwice .ROUND_DOWN value price.n price.d := if_pos dear

theorem whole_cheap (cheap : ¬ price.n > price.d) :
    whole price value = (divideTwice .ROUND_UP value price.d price.n).swap := if_neg cheap

theorem whole_fair (positive : PositivePrice price) (nonneg : 0 ≤ value) :
    Fair price value false (whole price value) := by
  by_cases dear : price.n > price.d
  · rw [whole_dear dear]
    exact fair_wheatFirst positive nonneg false
  · rw [whole_cheap dear]
    exact fair_sheepFirst positive nonneg false

/-- An offer cut down to its wheat has the same amounts, as long as the limit for sheep is one that
the value was within. -/
theorem whole_again (positive : PositivePrice price) {limit : Int}
    (within : value ≤ limit * price.d) :
    whole price (min ((whole price value).1 * price.n) (limit * price.d)) = whole price value := by
  have n := positive.n
  have d := positive.d
  by_cases dear : price.n > price.d
  · rw [whole_dear dear, whole_dear dear]
    have wheat := quotient_down_mul_le value price.n n
    have cut : min (quotient .ROUND_DOWN value price.n * price.n) (limit * price.d) =
        quotient .ROUND_DOWN value price.n * price.n := min_eq_left (wheat.trans within)
    have same : quotient .ROUND_DOWN (quotient .ROUND_DOWN value price.n * price.n) price.n =
        quotient .ROUND_DOWN value price.n := by
      apply quotient_down_eq n le_rfl
      omega
    simp only [divideTwice, cut, same]
  · rw [whole_cheap dear, whole_cheap dear]
    have sheep := quotient_down_mul_le value price.d d
    have paid := le_quotient_up_mul (quotient .ROUND_DOWN value price.d * price.d) price.n n
    have near := quotient_up_mul_lt (quotient .ROUND_DOWN value price.d * price.d) price.n n
    have same : quotient .ROUND_DOWN
        (min (quotient .ROUND_UP (quotient .ROUND_DOWN value price.d * price.d) price.n * price.n)
          (limit * price.d)) price.d = quotient .ROUND_DOWN value price.d := by
      apply quotient_down_eq d
      · exact le_min paid (sheep.trans within)
      · omega
    simp only [divideTwice, Prod.swap_prod_mk, same]

theorem exchangeAmounts_whole (positive : PositivePrice price) {sheepValue : Int}
    (nonneg : 0 ≤ value) (runsOut : value ≤ sheepValue)
    (wheatFits : value ≤ INT64_MAX * price.n) (sheepFits : value ≤ INT64_MAX * price.d)
    (isPathPayment : Bool) :
    exchangeAmounts price value.toNat sheepValue.toNat isPathPayment =
      .ok (whole price value) := by
  have leaves : ¬ value.toNat > sheepValue.toNat := by omega
  unfold exchangeAmounts
  rw [if_neg leaves]
  by_cases dear : price.n > price.d
  · have ran := divideTwice_ok .ROUND_DOWN nonneg positive.n positive.nFits positive.d
      positive.dFits wheatFits sheepFits
    rw [if_pos dear, whole_dear dear]
    exact except_bind_ok.mpr ⟨_, ran.1, except_bind_ok.mpr ⟨_, ran.2, rfl⟩⟩
  · have ran := divideTwice_ok .ROUND_UP nonneg positive.d positive.dFits positive.n
      positive.nFits sheepFits wheatFits
    rw [if_neg dear, whole_cheap dear]
    exact except_bind_ok.mpr ⟨_, ran.1, except_bind_ok.mpr ⟨_, ran.2, rfl⟩⟩

end Whole

/-! ### The exchange where the offer runs out -/

section Exchange

variable {price : Price} {maxWheatSend maxWheatReceive maxSheepSend maxSheepReceive : Int}

def exhausted (price : Price) (maxWheatSend maxSheepReceive : Int) : Int × Int :=
  whole price (sellerValue price maxWheatSend maxSheepReceive)

theorem exhausted_fair (positive : PositivePrice price) (wheatSend : Limit maxWheatSend)
    (sheepReceive : Limit maxSheepReceive) :
    Fair price (sellerValue price maxWheatSend maxSheepReceive) false
      (exhausted price maxWheatSend maxSheepReceive) :=
  whole_fair positive (sellerValue_nonneg positive wheatSend sheepReceive)

theorem exhausted_within (positive : PositivePrice price) (wheatSend : Limit maxWheatSend)
    (sheepReceive : Limit maxSheepReceive) :
    (exhausted price maxWheatSend maxSheepReceive).1 ≤ maxWheatSend ∧
      (exhausted price maxWheatSend maxSheepReceive).2 ≤ maxSheepReceive := by
  have fair := exhausted_fair positive wheatSend sheepReceive
  exact ⟨fair.wheatWithin maxWheatSend (min_le_left _ _),
    fair.sheepWithin maxSheepReceive (min_le_right _ _)⟩

/-- Cut down to its wheat the offer is exhausted by the same amounts, also where the limit for
sheep is larger. -/
theorem exhausted_again (positive : PositivePrice price) {limit : Int}
    (within : maxSheepReceive ≤ limit) :
    exhausted price (exhausted price maxWheatSend maxSheepReceive).1 limit =
      exhausted price maxWheatSend maxSheepReceive := by
  apply whole_again positive
  exact (min_le_right _ _).trans (mul_le_mul_of_nonneg_right within positive.d.le)

theorem exhausted_zero (positive : PositivePrice price) (sheepReceive : Limit maxSheepReceive) :
    exhausted price 0 maxSheepReceive = (0, 0) := by
  have nothing : Limit 0 := ⟨le_rfl, by unfold INT64_MAX; omega⟩
  have fair := exhausted_fair positive nothing sheepReceive
  have noValue : sellerValue price 0 maxSheepReceive = 0 := by
    have sheep := mul_nonneg sheepReceive.nonneg positive.d.le
    unfold sellerValue
    rw [zero_mul]
    exact min_eq_left sheep
  have wheat := fair.wheatWithin 0 (by rw [noValue, zero_mul])
  have sheep := fair.sheepWithin 0 (by rw [noValue, zero_mul])
  have wheatNonneg := fair.wheatNonneg
  have sheepNonneg := fair.sheepNonneg
  apply Prod.ext
  · exact le_antisymm wheat wheatNonneg
  · exact le_antisymm sheep sheepNonneg

theorem exchangeWithout_exhausted (positive : PositivePrice price)
    (wheatSend : Limit maxWheatSend) (wheatReceive : Limit maxWheatReceive)
    (sheepSend : Limit maxSheepSend) (sheepReceive : Limit maxSheepReceive)
    (runsOut : sellerValue price maxWheatSend maxSheepReceive ≤
      takerValue price maxWheatReceive maxSheepSend) (isPathPayment : Bool) :
    exchangeV10WithoutPriceErrorThresholds price maxWheatSend maxWheatReceive maxSheepSend
        maxSheepReceive isPathPayment = .ok
      { numWheatReceived := (exhausted price maxWheatSend maxSheepReceive).1
        numSheepSend := (exhausted price maxWheatSend maxSheepReceive).2
        wheatStays := false } := by
  have nonneg := sellerValue_nonneg positive wheatSend sheepReceive
  have fits := sellerValue_fits positive wheatSend sheepReceive
  have ran := exchangeAmounts_whole positive nonneg runsOut fits.1 fits.2 isPathPayment
  have leaves : decide (sellerValue price maxWheatSend maxSheepReceive >
      takerValue price maxWheatReceive maxSheepSend) = false := decide_eq_false (not_lt.mpr runsOut)
  have without := exchangeWithout_of_fair positive wheatSend wheatReceive sheepSend sheepReceive ran
  rw [min_eq_left runsOut, leaves] at without
  exact (without (whole_fair positive nonneg)).1

theorem sellerValue_unlimited (positive : PositivePrice price) (wheatSend : Limit maxWheatSend)
    (sheepReceive : Limit maxSheepReceive) :
    sellerValue price maxWheatSend maxSheepReceive ≤ takerValue price INT64_MAX INT64_MAX := by
  have fits := sellerValue_fits positive wheatSend sheepReceive
  exact le_min fits.2 fits.1

theorem unlimited : Limit INT64_MAX := ⟨by unfold INT64_MAX; omega, le_rfl⟩

def adjustedWithin (price : Price) (maxWheatSend maxSheepReceive : Int) : Int :=
  if tolerable price (exhausted price maxWheatSend maxSheepReceive) then
    (exhausted price maxWheatSend maxSheepReceive).1
  else 0

theorem adjustOfferAmount_exhausted (positive : PositivePrice price)
    (wheatSend : Limit maxWheatSend) (sheepReceive : Limit maxSheepReceive) :
    adjustOfferAmount price maxWheatSend maxSheepReceive =
      .ok (adjustedWithin price maxWheatSend maxSheepReceive) := by
  have fair := exhausted_fair positive wheatSend sheepReceive
  have within := exhausted_within positive wheatSend sheepReceive
  have without := exchangeWithout_exhausted positive wheatSend unlimited unlimited sheepReceive
    (sellerValue_unlimited positive wheatSend sheepReceive) false
  obtain ⟨result, applied, amount⟩ := applyPriceErrorThresholds_eq positive fair.wheatNonneg
    (within.1.trans wheatSend.fits) fair.sheepNonneg (within.2.trans sheepReceive.fits)
    fair.favoured
  refine except_bind_ok.mpr ⟨result, except_bind_ok.mpr ⟨_, without, applied⟩, ?_⟩
  rw [amount]
  rfl

theorem adjustedWithin_cases (price : Price) (maxWheatSend maxSheepReceive : Int) :
    adjustedWithin price maxWheatSend maxSheepReceive = 0 ∨
      tolerable price (exhausted price maxWheatSend maxSheepReceive) = true ∧
        adjustedWithin price maxWheatSend maxSheepReceive =
          (exhausted price maxWheatSend maxSheepReceive).1 := by
  unfold adjustedWithin
  split
  · rename_i tolerated
    exact Or.inr ⟨tolerated, rfl⟩
  · exact Or.inl rfl

theorem adjustedWithin_limit (positive : PositivePrice price) (wheatSend : Limit maxWheatSend)
    (sheepReceive : Limit maxSheepReceive) :
    Limit (adjustedWithin price maxWheatSend maxSheepReceive) ∧
      adjustedWithin price maxWheatSend maxSheepReceive ≤ maxWheatSend := by
  have fair := exhausted_fair positive wheatSend sheepReceive
  have within := exhausted_within positive wheatSend sheepReceive
  have nonneg := fair.wheatNonneg
  have sendNonneg := wheatSend.nonneg
  have sendFits := wheatSend.fits
  rcases adjustedWithin_cases price maxWheatSend maxSheepReceive with zero | ⟨-, amount⟩
  · rw [zero]
    exact ⟨⟨le_rfl, sendNonneg.trans sendFits⟩, sendNonneg⟩
  · rw [amount]
    exact ⟨⟨nonneg, within.1.trans sendFits⟩, within.1⟩

theorem tolerable_checked {exchange : Int × Int} (tolerated : tolerable price exchange = true) :
    checkPriceErrorBound price exchange.1 exchange.2 false = .ok true := by
  unfold tolerable at tolerated
  rw [Bool.and_eq_true] at tolerated
  have matched := tolerated.2
  split at matched
  · assumption
  · cases matched

/-- The adjusted offer is exhausted by its amount, for sheep within the limit and at a price that is
tolerated, whatever more its seller could take. -/
theorem exhausted_adjusted (positive : PositivePrice price) (wheatSend : Limit maxWheatSend)
    (sheepReceive : Limit maxSheepReceive) :
    ∃ sheep ≤ maxSheepReceive,
      (∀ limit, Limit limit → maxSheepReceive ≤ limit →
        exhausted price (adjustedWithin price maxWheatSend maxSheepReceive) limit =
          (adjustedWithin price maxWheatSend maxSheepReceive, sheep)) ∧
      (0 < adjustedWithin price maxWheatSend maxSheepReceive → 0 < sheep ∧
        checkPriceErrorBound price (adjustedWithin price maxWheatSend maxSheepReceive) sheep false =
          .ok true) := by
  rcases adjustedWithin_cases price maxWheatSend maxSheepReceive with zero | ⟨tolerated, amount⟩
  · rw [zero]
    refine ⟨0, sheepReceive.nonneg, ?_, fun impossible => absurd impossible (lt_irrefl 0)⟩
    intro limit limited _
    exact exhausted_zero positive limited
  · rw [amount]
    refine ⟨_, (exhausted_within positive wheatSend sheepReceive).2, ?_,
      fun _ => ⟨(tolerable_pos tolerated).2, tolerable_checked tolerated⟩⟩
    intro limit _ within
    exact exhausted_again positive within

theorem adjustedWithin_again (positive : PositivePrice price) {limit : Int} (limited : Limit limit)
    (within : maxSheepReceive ≤ limit) :
    adjustedWithin price (adjustedWithin price maxWheatSend maxSheepReceive) limit =
      adjustedWithin price maxWheatSend maxSheepReceive := by
  rcases adjustedWithin_cases price maxWheatSend maxSheepReceive with zero | ⟨tolerated, amount⟩
  · rw [zero]
    unfold adjustedWithin
    rw [exhausted_zero positive limited]
    split <;> rfl
  · have same : exhausted price (adjustedWithin price maxWheatSend maxSheepReceive) limit =
        exhausted price maxWheatSend maxSheepReceive := by
      rw [amount]
      exact exhausted_again positive within
    rw [adjustedWithin, same, if_pos tolerated, amount]

theorem offerLiabilities_limit {amount : Int} (positive : PositivePrice price)
    (limit : Limit amount) :
    offerLiabilities price amount = .ok
      ⟨(exhausted price amount INT64_MAX).1, (exhausted price amount INT64_MAX).2, false⟩ :=
  exchangeWithout_exhausted positive limit unlimited unlimited unlimited
    (sellerValue_unlimited positive limit unlimited) false

/-- An adjusted offer is within the wheat its seller has, is not adjusted further, and its
liabilities are its amount and sheep that the seller can take. -/
theorem adjustOffer_fixed (price : Price) (positive : PositivePrice price)
    (maxWheatSend maxSheepReceive : Int) (wheatSend : Limit maxWheatSend)
    (sheepReceive : Limit maxSheepReceive) :
    ∃ amount, adjustOfferAmount price maxWheatSend maxSheepReceive = .ok amount ∧
      amount ≤ maxWheatSend ∧
      adjustOfferAmount price amount maxSheepReceive = .ok amount ∧
      adjustOfferAmount price amount INT64_MAX = .ok amount ∧
      ∀ (header : LedgerHeader) (offer : OfferEntry), 10 ≤ header.ledgerVersion →
        offer.price = price → offer.amount = amount →
          getOfferSellingLiabilities header offer = .ok amount ∧
          ∃ buying, getOfferBuyingLiabilities header offer = .ok buying ∧
            buying ≤ maxSheepReceive := by
  obtain ⟨limit, within⟩ := adjustedWithin_limit positive wheatSend sheepReceive
  refine ⟨_, adjustOfferAmount_exhausted positive wheatSend sheepReceive, within, ?_, ?_, ?_⟩
  · rw [adjustOfferAmount_exhausted positive limit sheepReceive,
      adjustedWithin_again positive sheepReceive le_rfl]
  · rw [adjustOfferAmount_exhausted positive limit unlimited,
      adjustedWithin_again positive unlimited sheepReceive.fits]
  · intro header offer version samePrice sameAmount
    have late : ¬ header.ledgerVersion < 10 := by omega
    obtain ⟨sheep, asked, same, -⟩ := exhausted_adjusted positive wheatSend sheepReceive
    have liabilities := offerLiabilities_limit positive limit
    rw [same INT64_MAX unlimited sheepReceive.fits] at liabilities
    unfold getOfferSellingLiabilities getOfferBuyingLiabilities
    rw [if_neg late, if_neg late, samePrice, sameAmount, liabilities]
    exact ⟨rfl, sheep, rfl, asked⟩

/-- At the price 3/2, 100 wheat for at most 80 sheep is an offer of 53 wheat. -/
theorem adjustOffer_fixed_threeHalves :
    adjustOfferAmount ⟨3, 2⟩ 100 80 = .ok 53 ∧ adjustOfferAmount ⟨3, 2⟩ 53 80 = .ok 53 ∧
      adjustOfferAmount ⟨3, 2⟩ 53 INT64_MAX = .ok 53 := by
  have ran : adjustOfferAmount ⟨3, 2⟩ 100 80 = .ok 53 := by decide
  obtain ⟨amount, adjusted, _, again, free, _⟩ := adjustOffer_fixed ⟨3, 2⟩
    ⟨by decide, by decide, by decide, by decide⟩ 100 80 ⟨by decide, by decide⟩
    ⟨by decide, by decide⟩
  rw [ran] at adjusted
  cases adjusted
  exact ⟨ran, again, free⟩

/-! ### On a path -/

theorem checkPriceErrorBound_path (positive : PositivePrice price) {wheat sheep : Int}
    (wheatLimit : Limit wheat) (sheepLimit : Limit sheep)
    (bounded : wheat * price.n ≤ sheep * price.d ∨
      checkPriceErrorBound price wheat sheep false = .ok true) :
    checkPriceErrorBound price wheat sheep true = .ok true := by
  have n := positive.n
  have d := positive.d
  have nFits := positive.nFits
  have dFits := positive.dFits
  have wide : 100 * INT32_MAX ≤ INT64_MAX := by
    unfold INT32_MAX INT64_MAX
    omega
  have wheatValue : 0 ≤ price.n * wheat := mul_nonneg n.le wheatLimit.nonneg
  have sheepValue : 0 ≤ price.d * sheep := mul_nonneg d.le sheepLimit.nonneg
  have error : price.n * wheat < price.d * sheep ∨
      |100 * (price.n * wheat) - 100 * (price.d * sheep)| ≤ price.n * wheat := by
    rcases bounded with enough | tolerated
    · rw [mul_comm wheat, mul_comm sheep] at enough
      rcases enough.lt_or_eq with less | equal
      · exact Or.inl less
      · right
        rw [equal, sub_self, abs_zero]
        exact sheepValue
    · rw [checkPriceErrorBound_eq positive wheatLimit sheepLimit] at tolerated
      cases decided : decide (|100 * (price.n * wheat) - 100 * (price.d * sheep)| ≤
          price.n * wheat) with
      | true => exact Or.inr (of_decide_eq_true decided)
      | false =>
          rw [decided] at tolerated
          cases tolerated
  unfold checkPriceErrorBound
  rw [bigMultiply_eq (100 * price.n) wheat (by omega) (by omega) wheatLimit.nonneg wheatLimit.fits,
    bigMultiply_eq (100 * price.d) sheep (by omega) (by omega) sheepLimit.nonneg sheepLimit.fits,
    bigMultiply_eq price.n wheat n.le (nFits.trans int32_le_int64) wheatLimit.nonneg
      wheatLimit.fits, mul_assoc, mul_assoc]
  change (if true = true ∧ (100 * (price.d * sheep)).toNat > (100 * (price.n * wheat)).toNat
    then _ else Except.ok (decide ((if (100 * (price.n * wheat)).toNat >
      (100 * (price.d * sheep)).toNat then _ else _) ≤ _))) = _
  by_cases favours : (100 * (price.d * sheep)).toNat > (100 * (price.n * wheat)).toNat
  · rw [if_pos ⟨rfl, favours⟩]
    rfl
  · rw [if_neg (fun both => favours both.2)]
    congr 1
    apply decide_eq_true
    rw [abs_le] at error
    split <;> omega

/-- Where the taker runs out on a path the wheat is rounded down first, whatever the price. -/
theorem exchangeWithout_path (positive : PositivePrice price)
    (wheatSend : Limit maxWheatSend) (wheatReceive : Limit maxWheatReceive)
    (sheepSend : Limit maxSheepSend) (sheepReceive : Limit maxSheepReceive)
    (stays : sellerValue price maxWheatSend maxSheepReceive >
      takerValue price maxWheatReceive maxSheepSend) :
    ∃ amounts, Fair price (takerValue price maxWheatReceive maxSheepSend) true amounts ∧
      amounts.1 ≤ INT64_MAX ∧ amounts.2 ≤ INT64_MAX ∧
      exchangeV10WithoutPriceErrorThresholds price maxWheatSend maxWheatReceive maxSheepSend
        maxSheepReceive true = .ok ⟨amounts.1, amounts.2, true⟩ := by
  have sellerFits := sellerValue_fits positive wheatSend sheepReceive
  have nonneg := takerValue_nonneg positive wheatReceive sheepSend
  have ran := divideTwice_ok .ROUND_UP nonneg positive.n positive.nFits positive.d positive.dFits
    (stays.le.trans sellerFits.1) (stays.le.trans sellerFits.2)
  have fair := fair_wheatFirst positive nonneg true
  have staysNat : (sellerValue price maxWheatSend maxSheepReceive).toNat >
      (takerValue price maxWheatReceive maxSheepSend).toNat := by omega
  have amounts : exchangeAmounts price (sellerValue price maxWheatSend maxSheepReceive).toNat
      (takerValue price maxWheatReceive maxSheepSend).toNat true =
        .ok (divideTwice .ROUND_UP (takerValue price maxWheatReceive maxSheepSend) price.n
          price.d) := by
    unfold exchangeAmounts
    rw [if_pos staysNat, if_pos (Or.inr rfl)]
    exact except_bind_ok.mpr ⟨_, ran.1, except_bind_ok.mpr ⟨_, ran.2, rfl⟩⟩
  have without := exchangeWithout_of_fair positive wheatSend wheatReceive sheepSend sheepReceive
    amounts
  rw [min_eq_right stays.le, decide_eq_true stays] at without
  obtain ⟨exchanged, wheatWithin, sheepWithin⟩ := without fair
  exact ⟨_, fair, (le_min_iff.mp wheatWithin).1.trans wheatSend.fits,
    (le_min_iff.mp sheepWithin).1.trans sheepSend.fits, exchanged⟩

theorem exchangeV10_of_without {isPathPayment : Bool} {before result : ExchangeResultV10}
    (without : exchangeV10WithoutPriceErrorThresholds price maxWheatSend maxWheatReceive
      maxSheepSend maxSheepReceive isPathPayment = .ok before)
    (applied : applyPriceErrorThresholds price before.numWheatReceived before.numSheepSend
      before.wheatStays isPathPayment = .ok result) :
    exchangeV10 price maxWheatSend maxWheatReceive maxSheepSend maxSheepReceive isPathPayment =
      .ok result :=
  except_bind_ok.mpr ⟨before, without, applied⟩

theorem applyPriceErrorThresholds_path (positive : PositivePrice price) {value : Int}
    {wheatStays : Bool} {amounts : Int × Int} (fair : Fair price value wheatStays amounts)
    (wheatFits : amounts.1 ≤ INT64_MAX) (sheepFits : amounts.2 ≤ INT64_MAX)
    (bounded : amounts.1 > 0 ∧ amounts.2 > 0 → amounts.1 * price.n ≤ amounts.2 * price.d ∨
      checkPriceErrorBound price amounts.1 amounts.2 false = .ok true) :
    applyPriceErrorThresholds price amounts.1 amounts.2 wheatStays true =
      .ok (if amounts.1 > 0 ∧ amounts.2 > 0 then ⟨amounts.1, amounts.2, wheatStays⟩
        else ⟨0, 0, wheatStays⟩) := by
  by_cases some : amounts.1 > 0 ∧ amounts.2 > 0
  · have checked := checkPriceErrorBound_path positive ⟨fair.wheatNonneg, wheatFits⟩
      ⟨fair.sheepNonneg, sheepFits⟩ (bounded some)
    rw [applyPriceErrorThresholds_favoured positive fair wheatFits sheepFits some checked,
      if_pos some]
    rfl
  · unfold applyPriceErrorThresholds
    rw [if_neg some, if_neg some]
    rfl

/-- An exchange on a path with the adjusted offer, as `crossOfferV10` makes it, does not throw;
where the wheat does not stay it is of the whole offer. -/
theorem exchangeV10_adjusted (price : Price) (positive : PositivePrice price)
    (offerAmount maxWheatSend maxSheepReceive maxWheatReceive maxSheepSend : Int)
    (offered : Limit offerAmount) (wheatSend : Limit maxWheatSend)
    (sheepReceive : Limit maxSheepReceive) (wheatReceive : Limit maxWheatReceive)
    (sheepSend : Limit maxSheepSend) :
    ∃ amount result full,
      adjustOfferAmount price (min offerAmount maxWheatSend) maxSheepReceive = .ok amount ∧
      exchangeV10 price (min amount maxWheatSend) maxWheatReceive maxSheepSend maxSheepReceive
        true = .ok result ∧
      offerLiabilities price amount = .ok full ∧
      (result.wheatStays = false →
        result.numWheatReceived = amount ∧ result.numSheepSend = full.numSheepSend) := by
  have least : Limit (min offerAmount maxWheatSend) :=
    ⟨le_min offered.nonneg wheatSend.nonneg, (min_le_left _ _).trans offered.fits⟩
  obtain ⟨limit, within⟩ := adjustedWithin_limit positive least sheepReceive
  obtain ⟨sheep, asked, same, tolerated⟩ := exhausted_adjusted positive least sheepReceive
  have adjusts := adjustOfferAmount_exhausted positive least sheepReceive
  generalize adjustedWithin price (min offerAmount maxWheatSend) maxSheepReceive = amount at *
  have liabilities := offerLiabilities_limit positive limit
  rw [same INT64_MAX unlimited sheepReceive.fits] at liabilities
  refine ⟨amount, ?_⟩
  rw [min_eq_left (within.trans (min_le_right _ _))]
  by_cases stays : sellerValue price amount maxSheepReceive >
      takerValue price maxWheatReceive maxSheepSend
  · obtain ⟨amounts, fair, wheatFits, sheepFits, without⟩ := exchangeWithout_path positive limit
      wheatReceive sheepSend sheepReceive stays
    have applied := applyPriceErrorThresholds_path positive fair wheatFits sheepFits
      (fun _ => Or.inl fair.favoured)
    refine ⟨_, _, adjusts, exchangeV10_of_without without applied, liabilities, ?_⟩
    intro leaves
    split at leaves <;> cases leaves
  · have without := exchangeWithout_exhausted positive limit wheatReceive sheepSend sheepReceive
      (not_lt.mp stays) true
    have fair := exhausted_fair positive limit sheepReceive
    rw [same maxSheepReceive sheepReceive le_rfl] at without fair
    have applied := applyPriceErrorThresholds_path positive fair limit.fits
      (asked.trans sheepReceive.fits) (fun some => Or.inr (tolerated some.1).2)
    refine ⟨_, _, adjusts, exchangeV10_of_without without applied, liabilities, ?_⟩
    intro _
    split
    · exact ⟨rfl, rfl⟩
    · rename_i nothing
      have noWheat : amount = 0 := by
        by_contra some
        have positiveAmount : 0 < amount := lt_of_le_of_ne limit.nonneg (Ne.symm some)
        exact nothing ⟨positiveAmount, (tolerated positiveAmount).1⟩
      have noSheep := same maxSheepReceive sheepReceive le_rfl
      rw [noWheat, exhausted_zero positive sheepReceive] at noSheep
      cases noSheep
      exact ⟨noWheat.symm, rfl⟩

/-- The 53 wheat of an adjusted offer, all taken on a path, cost 79 sheep. -/
theorem exchangeV10_adjusted_threeHalves :
    ∃ full, adjustOfferAmount ⟨3, 2⟩ (min 100 120) 80 = .ok 53 ∧
      exchangeV10 ⟨3, 2⟩ (min 53 120) 60 90 80 true = .ok ⟨53, 79, false⟩ ∧
      offerLiabilities ⟨3, 2⟩ 53 = .ok full ∧ 79 = full.numSheepSend := by
  have adjusts : adjustOfferAmount ⟨3, 2⟩ (min 100 120) 80 = .ok 53 := by decide
  have exchanges : exchangeV10 ⟨3, 2⟩ (min 53 120) 60 90 80 true = .ok ⟨53, 79, false⟩ := by decide
  obtain ⟨amount, result, full, adjusted, exchanged, liabilities, taken⟩ := exchangeV10_adjusted
    ⟨3, 2⟩ ⟨by decide, by decide, by decide, by decide⟩ 100 120 80 60 90 ⟨by decide, by decide⟩
    ⟨by decide, by decide⟩ ⟨by decide, by decide⟩ ⟨by decide, by decide⟩ ⟨by decide, by decide⟩
  rw [adjusts] at adjusted
  cases adjusted
  rw [exchanges] at exchanged
  cases exchanged
  exact ⟨full, adjusts, exchanges, liabilities, (taken rfl).2⟩

end Exchange

end ViiCore.Transactions
