import ViiCore.Transactions.ExchangeBounds
import ViiCore.Transactions.OfferBook

/-!
An offer operation does not commit its owner to more than it says.

What is left of the amount is recomputed after the crossings, from the limits that then hold and
through the adjustment of the whole offer. The bounds below follow it from the limits of the
operation to the offer that is put on the book.
-/

namespace ViiCore.Transactions

open ViiCore.Ledger ViiCore.FiniteMap ViiCore.Execution ViiCore.Least

variable {ledger : Ledger} {book : OrderBook}

/-! ### The adjusted amount -/

theorem adjustOfferAmount_within {price : Price} {maxWheatSend maxSheepReceive amount : Int}
    (adjusted : adjustOfferAmount price maxWheatSend maxSheepReceive = .ok amount) :
    0 ≤ amount ∧ amount ≤ max 0 maxWheatSend ∧ amount ≤ INT64_MAX := by
  unfold adjustOfferAmount at adjusted
  obtain ⟨result, exchanged, same⟩ := except_bind_ok.mp adjusted
  cases same
  have bounded := exchangeV10_bounded exchanged
  refine ⟨bounded.wheatNonneg, bounded.wheatSend, ?_⟩
  have least := bounded.wheatReceive
  unfold INT64_MAX at least ⊢
  omega

theorem standing_zero {price : Price} (positive : PositivePrice price) :
    (standing price 0).2 ≤ 0 := by
  have bounds := standing_bounds positive 0
  have worth : (standing price 0).2 * price.d ≤ 0 := by
    have wheat := mul_le_mul_of_nonneg_right bounds.1 positive.n.le
    rw [zero_mul] at wheat
    exact bounds.2.2.trans wheat
  by_contra more
  exact absurd worth (not_le.mpr (mul_pos (not_le.mp more) positive.d))

theorem standing_le {price : Price} (positive : PositivePrice price) {wheat sheep : Int}
    (near : wheat * price.n < (sheep + 1) * price.d) : (standing price wheat).2 ≤ sheep := by
  have bounds := standing_bounds positive wheat
  have scaled : (standing price wheat).2 * price.d < (sheep + 1) * price.d :=
    calc (standing price wheat).2 * price.d
        ≤ (standing price wheat).1 * price.n := bounds.2.2
      _ ≤ wheat * price.n := mul_le_mul_of_nonneg_right bounds.1 positive.n.le
      _ < (sheep + 1) * price.d := near
  exact Int.lt_add_one_iff.mp (lt_of_mul_lt_mul_right scaled positive.d.le)

theorem exchangeWithout_near {price : Price} (positive : PositivePrice price)
    {maxWheatSend maxSheepReceive : Int} {result : ExchangeResultV10}
    (exchanged : exchangeV10WithoutPriceErrorThresholds price maxWheatSend INT64_MAX INT64_MAX
      maxSheepReceive false = .ok result) :
    result.numWheatReceived * price.n < (result.numSheepSend + 1) * price.d := by
  have n := positive.n
  have d := positive.d
  have nFits := positive.nFits.trans int32_le_int64
  have dFits := positive.dFits.trans int32_le_int64
  have limit : (0 : Int) ≤ INT64_MAX := by
    unfold INT64_MAX
    omega
  unfold exchangeV10WithoutPriceErrorThresholds at exchanged
  obtain ⟨wheatValue, -, exchanged⟩ := except_bind_ok.mp exchanged
  rw [calculateOfferValue_eq d.le dFits n.le nFits limit le_rfl limit le_rfl] at exchanged
  obtain ⟨sheepValue, sheepSame, exchanged⟩ := except_bind_ok.mp exchanged
  cases sheepSame
  have sheepNonneg : 0 ≤ min (INT64_MAX * price.d) (INT64_MAX * price.n) :=
    le_min (mul_nonneg limit d.le) (mul_nonneg limit n.le)
  obtain ⟨amounts, ran, -, near⟩ := exchangeAmounts_fair positive
    (Int.natCast_nonneg wheatValue) sheepNonneg (by omega) (by omega)
  rw [Int.toNat_natCast] at ran
  rw [ran] at exchanged
  obtain ⟨same, sameIs, exchanged⟩ := except_bind_ok.mp exchanged
  cases sameIs
  split at exchanged
  · cases exchanged
  split at exchanged
  · cases exchanged
  cases exchanged
  exact near

theorem adjustOfferAmount_asks {price : Price} (positive : PositivePrice price)
    {maxWheatSend maxSheepReceive amount : Int}
    (adjusted : adjustOfferAmount price maxWheatSend maxSheepReceive = .ok amount) :
    (standing price amount).2 ≤ max 0 maxSheepReceive := by
  unfold adjustOfferAmount exchangeV10 at adjusted
  obtain ⟨result, exchanged, same⟩ := except_bind_ok.mp adjusted
  cases same
  obtain ⟨before, without, applied⟩ := except_bind_ok.mp exchanged
  have within := exchangeWithout_within without
  obtain ⟨-, ⟨nothing, -⟩ | ⟨-, -, wheatSame, -⟩⟩ := applyPriceErrorThresholds_cases applied
  · rw [nothing]
    exact (standing_zero positive).trans (le_max_left 0 maxSheepReceive)
  · rw [wheatSame]
    have asked := standing_le positive (exchangeWithout_near positive without)
    omega

theorem getOfferBuyingLiabilities_adjusted {header : LedgerHeader} {offer : OfferEntry}
    (version : 10 ≤ header.ledgerVersion) (positive : PositivePrice offer.price)
    {maxWheatSend maxSheepReceive : Int}
    (adjusted : adjustOfferAmount offer.price maxWheatSend maxSheepReceive = .ok offer.amount) :
    ∃ buying, getOfferBuyingLiabilities header offer = .ok buying ∧
      buying ≤ max 0 maxSheepReceive := by
  have within := adjustOfferAmount_within adjusted
  have late : ¬ header.ledgerVersion < 10 := by omega
  refine ⟨(standing offer.price offer.amount).2, ?_, adjustOfferAmount_asks positive adjusted⟩
  unfold getOfferBuyingLiabilities
  rw [if_neg late, offerLiabilities_eq positive within.1 within.2.2]
  rfl

namespace ManageOfferOpFrame

variable {frame : ManageOfferOpFrame}

/-! ### The filter -/

theorem filter_keep {passive : Bool} {key : OfferKey} {offer : OfferEntry}
    (offerPositive : PositivePrice offer.price) (positive : PositivePrice frame.price)
    (kept : frame.filter passive key offer = .ok .eKeep) :
    key.sellerID ≠ frame.sourceID ∧ offer.price.ratio ≤ frame.price.ratio⁻¹ ∧
      (passive = true → offer.price.ratio < frame.price.ratio⁻¹) := by
  unfold filter at kept
  obtain ⟨-, kept⟩ := assertThat_bind_ok.mp kept
  dsimp only at kept
  split at kept
  · cases kept
  rename_i cheap
  split at kept
  · cases kept
  rename_i stranger
  rw [ratio_le_inverse offerPositive.d positive.n, ratio_lt_inverse offerPositive.d positive.n]
  simp only [not_or, not_and, not_le, not_lt] at cheap
  exact ⟨stranger, cheap.2, cheap.1⟩

theorem filter_stop {key : OfferKey} {offer : OfferEntry}
    (offerPositive : PositivePrice offer.price) (positive : PositivePrice frame.price)
    (stopped : frame.filter false key offer = .ok (.eStop false)) :
    frame.price.ratio⁻¹ < offer.price.ratio := by
  unfold filter at stopped
  obtain ⟨-, stopped⟩ := assertThat_bind_ok.mp stopped
  dsimp only at stopped
  split at stopped
  · rename_i dear
    rw [← not_le, ratio_le_inverse offerPositive.d positive.n, not_le]
    simpa using dear
  · split at stopped <;> cases stopped

/-! ### Crossing the book -/

def InitialLimits (frame : ManageOfferOpFrame) (limits : Int × Int) : Prop :=
  ∃ maxSheepSend maxWheatReceive,
    limits = frame.applyOperationSpecificLimits maxSheepSend 0 maxWheatReceive 0

/-- The amount left is the adjusted one under some limits for what was not exchanged. -/
def AmountLeft (frame : ManageOfferOpFrame) (sheepSent wheatReceived amount : Int) : Prop :=
  ∃ maxSheepSend maxWheatReceive,
    adjustOfferAmount frame.price
      (frame.applyOperationSpecificLimits maxSheepSend sheepSent maxWheatReceive wheatReceived).1
      (frame.applyOperationSpecificLimits maxSheepSend sheepSent maxWheatReceive wheatReceived).2 =
        .ok amount

/-- The book holds no offer that the operation would still cross. -/
def Uncrossed (frame : ManageOfferOpFrame) (ledger : Ledger) : Prop :=
  ∀ key offer, ledger.offers.lookup key = some offer → offer.buying = frame.sheep →
    offer.selling = frame.wheat → frame.price.ratio⁻¹ < offer.price.ratio

structure Exchanged (frame : ManageOfferOpFrame) (passive : Bool) (start : Ledger) (amount : Int)
    (claims : List ClaimOfferAtom) (after : Ledger) : Prop where
  version : after.header.ledgerVersion = start.header.ledgerVersion
  thinned : Thinned start.offers after.offers
  passed : ∀ claim ∈ claims, ∃ offer,
    start.offers.lookup ⟨claim.sellerID, claim.offerID⟩ = some offer ∧
      claim.sellerID ≠ frame.sourceID ∧ offer.price.ratio ≤ frame.price.ratio⁻¹ ∧
        (passive = true → offer.price.ratio < frame.price.ratio⁻¹)
  limited : ∃ limits, frame.InitialLimits limits ∧
    (claims.map ClaimOfferAtom.amountBought).sum ≤ max 0 limits.1 ∧
    (claims.map ClaimOfferAtom.amountSold).sum ≤ max 0 limits.2
  left : amount = 0 ∨ frame.AmountLeft (claims.map ClaimOfferAtom.amountBought).sum
    (claims.map ClaimOfferAtom.amountSold).sum amount
  uncrossed : 0 < amount → passive = false → frame.Uncrossed after

theorem Priced.thinned {before after : Ledger} (priced : Priced before)
    (thinned : Thinned before.offers after.offers) : Priced after := by
  intro key offer found
  obtain ⟨earlier, earlierFound, same⟩ := thinned key offer found
  rw [same]
  exact priced key earlier earlierFound

theorem settleSource_keeps (converted : Converted) :
    Ensures (frame.settleSource converted) ledger fun _ after =>
      KeepsOffers ledger after ∧ after.header.ledgerVersion = ledger.header.ledgerVersion := by
  unfold settleSource
  split
  · apply Ensures.bind (orThrow_ensures (addBalance_follows frame.sourceID frame.wheat
      converted.wheatReceived))
    intro _ middle ⟨received, receivedKeeps⟩
    apply Ensures.mono (orThrow_ensures (addBalance_follows frame.sourceID frame.sheep
      (-converted.sheepSend)))
    intro _ after ⟨sent, sentKeeps⟩
    exact ⟨receivedKeeps.trans sentKeeps, sent.version.trans received.version⟩
  · exact ⟨KeepsOffers.refl ledger, rfl⟩

theorem amountLeft_adjusts (version : 10 ≤ ledger.header.ledgerVersion) (maxSheepSend : Int)
    (sheepStays : Bool) (converted : Converted) :
    Ensures (frame.amountLeft maxSheepSend sheepStays converted) ledger fun amount after =>
      after = ledger ∧ if sheepStays then
        frame.AmountLeft converted.sheepSend converted.wheatReceived amount else amount = 0 := by
  unfold amountLeft
  cases sheepStays with
  | false =>
      simp only [Ensures, wp_bind, wp_loadHeader, ge_iff_le, version, if_true, if_false,
        Bool.false_eq_true]
      exact ⟨rfl, rfl⟩
  | true =>
      simp only [Ensures, wp_bind, wp_loadHeader, ge_iff_le, version, if_true]
      apply Ensures.mono (tradeLimits_reads frame.sourceID frame.sheep frame.wheat)
      rintro ⟨sheepSendLimit, wheatReceiveLimit⟩ _ rfl
      simp only [wp_computed]
      split
      · rename_i amount adjusted
        exact ⟨trivial, sheepSendLimit, wheatReceiveLimit, adjusted⟩
      · trivial

theorem uncrossed_of_stopped {conversion : Conversion} {converted : Converted}
    (exact : Exact conversion.book) (priced : Priced ledger) (positive : PositivePrice frame.price)
    (sheep : conversion.sheep = frame.sheep) (wheat : conversion.wheat = frame.wheat)
    (filter : conversion.filter = frame.filter false)
    (stopped : Stopped conversion ledger converted.result)
    (stays : frame.sheepStays converted = .ok true) : frame.Uncrossed ledger := by
  intro key offer found buying selling
  have least : LeastOf offerRank (fun item => ledger.offers.lookup item.1 = some item.2 ∧
        item.2.buying = frame.sheep ∧ item.2.selling = frame.wheat)
      (conversion.book.getBestOffer frame.sheep frame.wheat ledger) :=
    getBestOffer_least exact.ranked priced
  have member : ledger.offers.lookup key = some offer ∧ offer.buying = frame.sheep ∧
      offer.selling = frame.wheat := ⟨found, buying, selling⟩
  unfold sheepStays at stays
  split at stays
  · cases stays
  · rename_i partially
    rw [partially, Stopped, sheep, wheat] at stopped
    rw [stopped] at least
    exact absurd member (least (key, offer))
  · rename_i crossSelf filterStop
    rw [filterStop, Stopped, sheep, wheat, filter] at stopped
    obtain ⟨bestKey, best, isBest, stop⟩ := stopped
    rw [isBest] at least
    split at stays
    · cases stays
    rename_i stranger
    have strangerFalse : crossSelf = false := by simpa using stranger
    rw [strangerFalse] at stop
    have bestPositive := priced bestKey best least.1.1
    have ranked : offerRank (bestKey, best) ≤ offerRank (key, offer) := least.2 (key, offer) member
    have cheapest := offerRank_price ranked
    exact lt_of_lt_of_le (filter_stop bestPositive positive stop) cheapest
  · cases stays

theorem crossBook_exchanged (exact : Exact book) (priced : Priced ledger)
    (positive : PositivePrice frame.price) (version : 10 ≤ ledger.header.ledgerVersion)
    (passive : Bool) {limits : Int × Int} (initial : frame.InitialLimits limits) :
    Succeeds (frame.crossBook book passive limits.1 limits.2) ledger fun traded after =>
      frame.Exchanged passive ledger traded.1 traded.2 after := by
  unfold crossBook
  simp only [Succeeds, Ensures, wp_bind, wp_loadHeader]
  apply Ensures.mono ((convertWithOffers_underway _ limits.1 limits.2).and
    (convertWithOffers_trades version))
  rintro converted middle ⟨underway, trades⟩
  apply Ensures.mono (computed_reads _)
  rintro _ _ rfl
  cases stays : frame.sheepStays converted with
  | error code =>
      intro value impossible
      cases impossible
  | ok sheepStays =>
      simp only [wp_bind]
      apply Ensures.mono (settleSource_keeps converted)
      rintro _ settled ⟨keeps, sameVersion⟩
      have settledVersion : 10 ≤ settled.header.ledgerVersion := by
        rw [sameVersion, trades.version]
        exact version
      apply Ensures.mono (amountLeft_adjusts settledVersion limits.1 sheepStays converted)
      rintro amount _ ⟨rfl, adjusted⟩
      rintro _ ⟨⟩
      have sheepSum := underway.claimed.sheep
      have wheatSum := underway.claimed.wheat
      constructor
      · rw [sameVersion, trades.version]
      · rw [keeps.offers]
        exact trades.thinned
      · intro claim member
        obtain ⟨offer, atTheTime, found, kept⟩ := trades.passed claim member
        have offerPositive : PositivePrice { offer with amount := atTheTime }.price :=
          priced _ offer found
        obtain ⟨stranger, noWorse, better⟩ := filter_keep offerPositive positive kept
        exact ⟨offer, found, stranger, noWorse, better⟩
      · refine ⟨limits, initial, ?_, ?_⟩
        · rw [← sheepSum]
          exact trades.sheep
        · rw [← wheatSum]
          exact trades.wheat
      · cases sheepStays with
        | false => exact .inl adjusted
        | true =>
            right
            rw [← sheepSum, ← wheatSum]
            exact adjusted
      · intro some notPassive
        cases sheepStays with
        | false =>
            simp only [Bool.false_eq_true, if_false] at adjusted
            omega
        | true =>
            have settledPriced := Priced.thinned priced trades.thinned
            rw [notPassive] at trades
            have uncrossed := uncrossed_of_stopped exact settledPriced positive rfl rfl rfl
              trades.stopped stays
            intro key offer found
            rw [keeps.offers] at found
            exact uncrossed key offer found

theorem exchangeParameters_initial (version : 10 ≤ ledger.header.ledgerVersion) :
    Succeeds frame.exchangeParameters ledger fun limits _ => frame.InitialLimits limits := by
  unfold exchangeParameters
  simp only [Succeeds, Ensures, wp_bind, wp_loadHeader]
  apply Ensures.mono (tradeLimits_reads frame.sourceID frame.sheep frame.wheat)
  rintro ⟨maxSheepSend, maxWheatReceive⟩ before rfl
  have checked : Succeeds frame.checkLiabilities before fun _ _ => True := by
    apply Ensures.mono (ensures_true _)
    intro _ _ _ _ _
    trivial
  simp only [ge_iff_le, version, if_true]
  apply Succeeds.andThen checked
  intro _ _ _
  exact Succeeds.ok ⟨maxSheepSend, maxWheatReceive, rfl⟩

theorem computeOfferExchangeParameters_initial (version : 10 ≤ ledger.header.ledgerVersion)
    (creatingNewOffer : Bool) :
    Succeeds (frame.computeOfferExchangeParameters creatingNewOffer) ledger fun limits after =>
      after = ledger ∧ frame.InitialLimits limits := by
  unfold computeOfferExchangeParameters
  rw [Succeeds, Ensures, wp_rolledBack]
  simp only [wp_bind, wp_loadHeader]
  suffices initial : Succeeds (if creatingNewOffer = true ∧ (ledger.header.ledgerVersion ≥ 10 ∨
      frame.sheep = .native ∧ ledger.header.ledgerVersion > 8) then
        andThen frame.addOfferEntry fun _ => frame.exchangeParameters
      else frame.exchangeParameters) ledger fun limits _ => frame.InitialLimits limits by
    apply Ensures.mono initial
    intro result _ holds value ok
    exact ⟨trivial, holds value ok⟩
  split
  · apply Succeeds.andThen (addOfferEntry_follows frame)
    intro _ counted follows
    apply exchangeParameters_initial
    rw [follows.version]
    exact version
  · exact exchangeParameters_initial version

theorem tradeOffer_exchanged (exact : Exact book) (priced : Priced ledger)
    (positive : PositivePrice frame.price) (version : 10 ≤ ledger.header.ledgerVersion)
    (creatingNewOffer passive : Bool) :
    Succeeds (frame.tradeOffer book creatingNewOffer passive) ledger fun traded after =>
      frame.Exchanged passive ledger traded.1 traded.2 after := by
  unfold tradeOffer
  split
  · apply Succeeds.ok
    constructor
    · rfl
    · exact Thinned.refl ledger.offers
    · intro claim absent
      cases absent
    · exact ⟨_, ⟨0, 0, rfl⟩, le_max_left _ _, le_max_left _ _⟩
    · exact .inl rfl
    · intro impossible
      exact absurd impossible (lt_irrefl 0)
  · apply Succeeds.andThen (computeOfferExchangeParameters_initial version creatingNewOffer)
    rintro limits _ ⟨rfl, initial⟩
    split
    · exact Succeeds.error
    · exact crossBook_exchanged exact priced positive version passive initial

/-! ### The offer before and after -/

/-- Whether the operation only crosses offers at a better price: a new offer by its kind, a
changed one as it was made. -/
def isPassive (frame : ManageOfferOpFrame) (ledger : Ledger) : Bool :=
  if frame.offerID ≠ 0 then
    (ledger.offers.lookup ⟨frame.sourceID, frame.offerID⟩).any fun offer =>
      hasFlag offer.flags PASSIVE_FLAG
  else frame.setPassiveOnCreate

theorem takeOldOffer_passive :
    Succeeds frame.takeOldOffer ledger fun taken after =>
      after.header.ledgerVersion = ledger.header.ledgerVersion ∧
        Thinned ledger.offers after.offers ∧
        hasFlag taken.2 PASSIVE_FLAG = frame.isPassive ledger := by
  unfold takeOldOffer isPassive
  split
  · rename_i changed
    simp only [Succeeds, Ensures, wp_bind, wp_load, offerTable_read]
    cases found : ledger.offers.lookup ⟨frame.sourceID, frame.offerID⟩ with
    | none =>
        intro value impossible
        cases impossible
    | some offer =>
        simp only [wp_bind, wp_loadHeader]
        have released : Ensures (takeOldOffer.releaseFrom frame ledger.header offer) ledger
            fun _ after => after.header.ledgerVersion = ledger.header.ledgerVersion ∧
              KeepsOffers ledger after := by
          unfold takeOldOffer.releaseFrom
          split
          · apply Ensures.mono (acquireOrReleaseLiabilities_follows frame.sourceID offer false)
            rintro _ after ⟨follows, keeps⟩
            exact ⟨follows.version, keeps⟩
          · exact ⟨rfl, KeepsOffers.refl ledger⟩
        apply Ensures.mono released
        rintro _ middle ⟨version, keeps⟩
        simp only [wp_erase, offerTable_read, keeps.offers, found, offerTable_write, wp_pure]
        rintro _ ⟨⟩
        exact ⟨version, thinned_erase ledger.offers _, rfl⟩
  · apply Succeeds.ok
    refine ⟨rfl, Thinned.refl ledger.offers, ?_⟩
    cases frame.setPassiveOnCreate <;> rfl

theorem storeOffer_inserts (key : OfferKey) (offer : OfferEntry) :
    Ensures (storeOffer key offer) ledger fun _ after =>
      after.offers = ledger.offers.insert key offer := by
  unfold storeOffer
  simp only [Ensures, wp_bind, wp_create, offerTable_read, offerTable_write]
  cases ledger.offers.lookup key with
  | some old => trivial
  | none =>
      simp only [wp_loadHeader, wp_ite]
      constructor
      · intro _
        apply Ensures.mono (acquireOrReleaseLiabilities_follows key.sellerID offer true)
        rintro _ after ⟨_, keeps⟩
        exact keeps.offers
      · intro _
        rfl

end ManageOfferOpFrame

def ManageOfferEffect.offer? : ManageOfferEffect → Option (OfferKey × OfferEntry)
  | .CREATED key offer => some (key, offer)
  | .UPDATED key offer => some (key, offer)
  | .DELETED => none

namespace ManageOfferOpFrame

variable {frame : ManageOfferOpFrame}

structure Placed (frame : ManageOfferOpFrame) (flags : BitVec 32) (amount : Int)
    (effect : ManageOfferEffect) (before after : Ledger) : Prop where
  nothing : amount ≤ 0 → effect.offer? = none
  something : 0 < amount → ∃ key, effect.offer? = some (key, frame.buildOffer amount flags) ∧
    after.offers = before.offers.insert key (frame.buildOffer amount flags)

theorem placeOffer_placed (creatingNewOffer : Bool) (flags : BitVec 32) (amount : Int) :
    Succeeds (frame.placeOffer creatingNewOffer flags amount) ledger fun effect after =>
      frame.Placed flags amount effect ledger after := by
  unfold placeOffer
  dsimp only
  split
  · rename_i positive
    have placed : ∀ {effect : ManageOfferEffect} {key : OfferKey} {after : Ledger},
        effect.offer? = some (key, frame.buildOffer amount flags) →
        after.offers = ledger.offers.insert key (frame.buildOffer amount flags) →
        frame.Placed flags amount effect ledger after := by
      intro effect key after same inserted
      exact ⟨fun none => absurd positive (not_lt.mpr none), fun _ => ⟨key, same, inserted⟩⟩
    cases creatingNewOffer with
    | true =>
        have counted : Succeeds frame.addOfferEntry ledger fun _ after =>
            after.offers = ledger.offers := by
          unfold addOfferEntry
          apply Ensures.bind (addNumEntriesOf_follows frame.sourceID 1)
          intro result after ⟨keeps, _⟩
          cases result with
          | SUCCESS => exact Succeeds.ok keeps.offers
          | LOW_RESERVE => exact Succeeds.error
          | TOO_MANY_SUBENTRIES => exact Succeeds.error
        apply Succeeds.andThen counted
        intro _ middle middleOffers
        apply Ensures.bind generateID_follows
        intro offerID named ⟨_, namedKeeps⟩
        apply Ensures.bind (storeOffer_inserts _ _)
        intro _ after stored
        rw [namedKeeps.offers, middleOffers] at stored
        exact Succeeds.ok (placed rfl stored)
    | false =>
        apply Ensures.bind (storeOffer_inserts _ _)
        intro _ after stored
        exact Succeeds.ok (placed rfl stored)
  · rename_i nothing
    have deleted : ∀ after, frame.Placed flags amount .DELETED ledger after :=
      fun _ => ⟨fun _ => rfl, fun some => absurd some nothing⟩
    cases creatingNewOffer with
    | true => exact Succeeds.ok (deleted ledger)
    | false =>
        apply Ensures.bind (ensures_true _)
        intro _ after _
        exact Succeeds.ok (deleted after)

/-! ### The whole operation -/

structure Done (frame : ManageOfferOpFrame) (before : Ledger) (success : ManageOfferSuccessResult)
    (after : Ledger) : Prop where
  version : after.header.ledgerVersion = before.header.ledgerVersion
  crossed : ∀ claim ∈ success.offersClaimed, ∃ offer,
    before.offers.lookup ⟨claim.sellerID, claim.offerID⟩ = some offer ∧
      claim.sellerID ≠ frame.sourceID ∧ offer.price.ratio ≤ frame.price.ratio⁻¹ ∧
        (frame.isPassive before = true → offer.price.ratio < frame.price.ratio⁻¹)
  limited : ∃ limits, frame.InitialLimits limits ∧
    (success.offersClaimed.map ClaimOfferAtom.amountBought).sum ≤ max 0 limits.1 ∧
    (success.offersClaimed.map ClaimOfferAtom.amountSold).sum ≤ max 0 limits.2
  left : ∀ key offer, success.effect.offer? = some (key, offer) → offer.price = frame.price ∧
    frame.AmountLeft (success.offersClaimed.map ClaimOfferAtom.amountBought).sum
      (success.offersClaimed.map ClaimOfferAtom.amountSold).sum offer.amount
  uncrossed : ∀ key offer, success.effect.offer? = some (key, offer) →
    hasFlag offer.flags PASSIVE_FLAG = false → ∀ other entry,
      after.offers.lookup other = some entry → entry.selling = offer.buying →
      entry.buying = offer.selling → offer.price.ratio⁻¹ < entry.price.ratio

theorem Exchanged.done {start traded after : Ledger} {flags : BitVec 32} {amount : Int}
    {claims : List ClaimOfferAtom} {effect : ManageOfferEffect} (different : frame.sheep ≠ frame.wheat)
    (sameVersion : start.header.ledgerVersion = ledger.header.ledgerVersion)
    (thinned : Thinned ledger.offers start.offers)
    (passive : hasFlag flags PASSIVE_FLAG = frame.isPassive ledger)
    (exchanged : frame.Exchanged (hasFlag flags PASSIVE_FLAG) start amount claims traded)
    (placedVersion : after.header.ledgerVersion = traded.header.ledgerVersion)
    (placed : frame.Placed flags amount effect traded after) :
    frame.Done ledger { offersClaimed := claims, effect } after := by
  -- An offer results only where an amount is left.
  have resulting : ∀ key offer, effect.offer? = some (key, offer) →
      0 < amount ∧ offer = frame.buildOffer amount flags ∧
        after.offers = traded.offers.insert key offer := by
    intro key offer results
    by_cases positive : 0 < amount
    · obtain ⟨placedKey, same, inserted⟩ := placed.something positive
      rw [same] at results
      cases results
      exact ⟨positive, rfl, inserted⟩
    · rw [placed.nothing (not_lt.mp positive)] at results
      cases results
  constructor
  · rw [placedVersion, exchanged.version, sameVersion]
  · intro claim member
    obtain ⟨offer, found, stranger, noWorse, better⟩ := exchanged.passed claim member
    obtain ⟨earlier, earlierFound, same⟩ := thinned _ offer found
    have samePrice : offer.price = earlier.price := by rw [same]
    rw [samePrice, passive] at better
    rw [samePrice] at noWorse
    exact ⟨earlier, earlierFound, stranger, noWorse, better⟩
  · exact exchanged.limited
  · intro key offer results
    obtain ⟨positive, same, -⟩ := resulting key offer results
    rw [same]
    exact ⟨rfl, exchanged.left.resolve_left positive.ne'⟩
  · intro key offer results notPassive other entry found selling buying
    obtain ⟨positive, same, inserted⟩ := resulting key offer results
    have uncrossed := exchanged.uncrossed positive (by rw [same] at notPassive; exact notPassive)
    rw [same] at selling buying ⊢
    rw [inserted] at found
    by_cases own : other = key
    · rw [own, AList.lookup_insert] at found
      cases found
      rw [same] at buying
      exact absurd buying.symm different
    · rw [AList.lookup_insert_ne own] at found
      exact uncrossed other entry found buying selling

theorem doApply_done (exact : Exact book) (priced : Priced ledger)
    (positive : PositivePrice frame.price) (different : frame.sheep ≠ frame.wheat)
    (version : 10 ≤ ledger.header.ledgerVersion) :
    Succeeds (frame.doApply book) ledger fun outcome after =>
      ∃ success, outcome = .manageOffer success ∧ frame.Done ledger success after := by
  unfold doApply
  apply Succeeds.nested
  apply Succeeds.andThen (Succeeds.rolledBack _)
  rintro _ before rfl
  apply Succeeds.andThen takeOldOffer_passive
  rintro ⟨creatingNewOffer, flags⟩ start ⟨sameVersion, thinned, passive⟩
  have startVersion : 10 ≤ start.header.ledgerVersion := by
    rw [sameVersion]
    exact version
  apply Succeeds.andThen (tradeOffer_exchanged exact (Priced.thinned priced thinned) positive
    startVersion creatingNewOffer (hasFlag flags PASSIVE_FLAG))
  rintro ⟨amount, claims⟩ traded exchanged
  apply Succeeds.andThen ((placeOffer_follows frame creatingNewOffer flags amount).and
    (placeOffer_placed creatingNewOffer flags amount))
  intro effect after ⟨follows, placed⟩
  exact Succeeds.ok ⟨_, rfl, exchanged.done different sameVersion thinned passive follows.version
    placed⟩

end ManageOfferOpFrame

/-! ### The three operations -/

namespace OperationBody

def offerFrame? (body : OperationBody) (sourceID : AccountID) : Option ManageOfferOpFrame :=
  match body with
  | .MANAGE_SELL_OFFER op => some (manageSellOfferFrame sourceID op false)
  | .CREATE_PASSIVE_SELL_OFFER op => some (createPassiveSellOfferFrame sourceID op)
  | .MANAGE_BUY_OFFER op => some (manageBuyOfferFrame sourceID op)
  | _ => none

/-- A sale: the sheep sent to the crossed offers, and what is still offered. -/
def SoldWithin (amount : Int) (success : ManageOfferSuccessResult) : Prop :=
  (success.offersClaimed.map ClaimOfferAtom.amountBought).sum +
    (success.effect.offer?.elim 0 fun placed => placed.2.amount) ≤ amount

/-- A purchase: the wheat received from the crossed offers, and what is still asked for. -/
def BoughtWithin (buyAmount : Int) (header : LedgerHeader) (success : ManageOfferSuccessResult) :
    Prop :=
  ∃ asked,
    (match success.effect.offer? with
      | none => pure 0
      | some (_, offer) => getOfferBuyingLiabilities header offer) = Except.ok asked ∧
    (success.offersClaimed.map ClaimOfferAtom.amountSold).sum + asked ≤ buyAmount

def WithinAmount (body : OperationBody) (header : LedgerHeader)
    (success : ManageOfferSuccessResult) : Prop :=
  match body with
  | .MANAGE_SELL_OFFER op => SoldWithin op.amount success
  | .CREATE_PASSIVE_SELL_OFFER op => SoldWithin op.amount success
  | .MANAGE_BUY_OFFER op => BoughtWithin op.buyAmount header success
  | _ => True

variable {body : OperationBody} {sourceID : AccountID}

theorem offerFrame_doApply {frame : ManageOfferOpFrame}
    (isOffer : body.offerFrame? sourceID = some frame) :
    body.doApply sourceID book = frame.doApply book := by
  cases body <;> cases isOffer <;> rfl

theorem offerFrame_doCheckValid {frame : ManageOfferOpFrame}
    (isOffer : body.offerFrame? sourceID = some frame) (ledgerVersion : Nat) :
    body.doCheckValid sourceID ledgerVersion = frame.doCheckValid ledgerVersion := by
  cases body <;> cases isOffer <;> rfl

theorem offerFrame_sourceID {frame : ManageOfferOpFrame}
    (isOffer : body.offerFrame? sourceID = some frame) : frame.sourceID = sourceID := by
  cases body <;> cases isOffer <;> rfl

theorem soldWithin_of_done {op : ManageSellOfferOp} {passive : Bool} {before after : Ledger}
    {success : ManageOfferSuccessResult} (nonneg : 0 ≤ op.amount)
    (done : (manageSellOfferFrame sourceID op passive).Done before success after) :
    SoldWithin op.amount success := by
  obtain ⟨limits, ⟨maxSheepSend, maxWheatReceive, rfl⟩, sheep, -⟩ := done.limited
  simp only [manageSellOfferFrame, sub_zero] at sheep
  unfold SoldWithin
  cases results : success.effect.offer? with
  | none =>
      simp only [Option.elim_none]
      omega
  | some placed =>
      obtain ⟨-, sheepSendLimit, wheatReceiveLimit, adjusted⟩ := done.left placed.1 placed.2 results
      have within := adjustOfferAmount_within adjusted
      simp only [manageSellOfferFrame] at within
      simp only [Option.elim_some]
      omega

theorem boughtWithin_of_done {op : ManageBuyOfferOp} {before after : Ledger}
    {success : ManageOfferSuccessResult} (nonneg : 0 ≤ op.buyAmount)
    (version : 10 ≤ after.header.ledgerVersion)
    (positive : PositivePrice (manageBuyOfferFrame sourceID op).price)
    (done : (manageBuyOfferFrame sourceID op).Done before success after) :
    BoughtWithin op.buyAmount after.header success := by
  obtain ⟨limits, ⟨maxSheepSend, maxWheatReceive, rfl⟩, -, wheat⟩ := done.limited
  simp only [manageBuyOfferFrame, sub_zero] at wheat
  unfold BoughtWithin
  cases results : success.effect.offer? with
  | none =>
      refine ⟨0, rfl, ?_⟩
      omega
  | some placed =>
      obtain ⟨price, sheepSendLimit, wheatReceiveLimit, adjusted⟩ :=
        done.left placed.1 placed.2 results
      rw [← price] at adjusted positive
      obtain ⟨asked, liabilities, within⟩ :=
        getOfferBuyingLiabilities_adjusted version positive adjusted
      simp only [manageBuyOfferFrame] at within
      refine ⟨asked, liabilities, ?_⟩
      omega

end OperationBody

theorem ManageOfferOpFrame.doCheckValid_ok {frame : ManageOfferOpFrame} {ledgerVersion : Nat}
    (valid : frame.doCheckValid ledgerVersion = .ok ()) :
    frame.sheep ≠ frame.wheat ∧ frame.isAmountValid = true ∧ 0 < frame.price.n ∧
      0 < frame.price.d := by
  unfold doCheckValid at valid
  split at valid
  · cases valid
  split at valid
  · cases valid
  rename_i different
  split at valid
  · cases valid
  rename_i acceptable
  simp only [not_or, not_not, not_le] at acceptable
  refine ⟨?_, acceptable.1, acceptable.2.2, acceptable.2.1⟩
  simpa [compareAsset] using different

/-- An offer operation commits its source to no more than it says: what is exchanged and what
stays on offer are within its amount, it crosses no offer of its own or at a worse price, and it
stays on the book only where nothing is left that it could cross. -/
theorem manageOffer_keepsTerms (book : OrderBook) (exact : Exact book) (body : OperationBody)
    (sourceID : AccountID) (frame : ManageOfferOpFrame)
    (isOffer : body.offerFrame? sourceID = some frame)
    (nFits : frame.price.n ≤ INT32_MAX) (dFits : frame.price.d ≤ INT32_MAX)
    (before after : Ledger) (priced : Priced before) (version : 10 ≤ before.header.ledgerVersion)
    (valid : body.doCheckValid sourceID before.header.ledgerVersion = .ok ())
    (outcome : OperationSuccess)
    (applied : body.doApply sourceID book before = .ok (.ok outcome) after) :
    ∃ success, outcome = .manageOffer success ∧
      body.WithinAmount after.header success ∧
      (∀ claim ∈ success.offersClaimed, ∃ offer,
        before.offers.lookup ⟨claim.sellerID, claim.offerID⟩ = some offer ∧
        claim.sellerID ≠ sourceID ∧ offer.price.ratio ≤ frame.price.ratio⁻¹ ∧
        (frame.isPassive before = true → offer.price.ratio < frame.price.ratio⁻¹)) ∧
      ∀ key offer, success.effect.offer? = some (key, offer) →
        hasFlag offer.flags PASSIVE_FLAG = false → ∀ other entry,
          after.offers.lookup other = some entry → entry.selling = offer.buying →
          entry.buying = offer.selling → offer.price.ratio⁻¹ < entry.price.ratio := by
  rw [body.offerFrame_doCheckValid isOffer] at valid
  obtain ⟨different, amountValid, n, d⟩ := ManageOfferOpFrame.doCheckValid_ok valid
  have positive : PositivePrice frame.price := ⟨n, nFits, d, dFits⟩
  have ensured := frame.doApply_done exact priced positive different version
  rw [body.offerFrame_doApply isOffer] at applied
  rw [Succeeds, Ensures, wp_of_ok applied] at ensured
  obtain ⟨success, same, done⟩ := ensured outcome rfl
  refine ⟨success, same, ?_, ?_, done.uncrossed⟩
  · have afterVersion : 10 ≤ after.header.ledgerVersion := by
      rw [done.version]
      exact version
    unfold OperationBody.offerFrame? at isOffer
    split at isOffer
    · cases isOffer
      exact OperationBody.soldWithin_of_done (by simpa [manageSellOfferFrame] using amountValid) done
    · cases isOffer
      exact OperationBody.soldWithin_of_done
        (by simpa [createPassiveSellOfferFrame, manageSellOfferFrame] using amountValid) done
    · cases isOffer
      exact OperationBody.boughtWithin_of_done (by simpa [manageBuyOfferFrame] using amountValid)
        afterVersion positive done
    · cases isOffer
  · rw [← body.offerFrame_sourceID isOffer]
    exact done.crossed

def trader (balance : Int) (numSubEntries : Nat) (ext : Option Liabilities) : AccountEntry :=
  { balance, seqNum := 3, numSubEntries, inflationDest := none, flags := 0, homeDomain := [],
    thresholds := ⟨1, 0, 0, 0⟩, signers := [], ext }

def tradedAsset : Asset := .alphaNum4 (Vector.replicate 4 88) 3

/-- Account 2 sells 10 of an asset issued by 3 for 10 native, and account 1 has a line in it. -/
def tradingLedger : Ledger where
  header := { ledgerVersion := 11, closeTime := 0, ledgerSeq := 5, totalCoins := 3000,
              feePool := 0, inflationSeq := 0, idPool := 7, baseFee := 100, baseReserve := 10,
              maxTxSetSize := 50 }
  accounts := (∅ : Map AccountID AccountEntry).insert 1 (trader 1000 1 none)
    |>.insert 2 (trader 1000 2 (some ⟨10, 0⟩))
    |>.insert 3 (trader 1000 0 none)
  trustLines := (∅ : Map TrustLineKey TrustLineEntry).insert ⟨1, tradedAsset⟩
      { balance := 0, limit := 100, flags := AUTHORIZED_FLAG, ext := none }
    |>.insert ⟨2, tradedAsset⟩
      { balance := 10, limit := 100, flags := AUTHORIZED_FLAG, ext := some ⟨0, 10⟩ }
  offers := (∅ : Map OfferKey OfferEntry).insert ⟨2, 7⟩
    { selling := tradedAsset, buying := .native, amount := 10, price := ⟨1, 1⟩, flags := 0 }
  data := ∅

def exactBook : OrderBook where
  isBetterOffer left right := left.2.price.ratio < right.2.price.ratio ∨
    left.2.price.ratio = right.2.price.ratio ∧ left.1.offerID < right.1.offerID

def tradingPurchase : ManageBuyOfferOp :=
  { selling := .native, buying := tradedAsset, buyAmount := 25, price := ⟨1, 1⟩, offerID := 0 }

def claimedAmounts : OperationResult → Option (List Int)
  | .ok (.manageOffer success) => some (success.offersClaimed.map ClaimOfferAtom.amountSold)
  | _ => none

theorem claimedAmounts_eq_some {result : OperationResult} {amounts : List Int}
    (claims : claimedAmounts result = some amounts) :
    ∃ success, result = .ok (.manageOffer success) ∧
      success.offersClaimed.map ClaimOfferAtom.amountSold = amounts := by
  unfold claimedAmounts at claims
  split at claims
  · exact ⟨_, rfl, Option.some.inj claims⟩
  · cases claims

/-- It gets 10 from account 2 and goes on asking for 15. -/
theorem manageOffer_keepsTerms_purchase :
    ∃ success after,
      (OperationBody.MANAGE_BUY_OFFER tradingPurchase).doApply 1 exactBook tradingLedger =
        .ok (.ok (.manageOffer success)) after ∧
      success.offersClaimed.map ClaimOfferAtom.amountSold = [10] ∧
      (OperationBody.MANAGE_BUY_OFFER tradingPurchase).WithinAmount after.header success := by
  have exact : Exact exactBook := ⟨fun left right _ _ => by simp [exactBook]⟩
  have priced : Priced tradingLedger := by
    intro key offer found
    have stored := AList.mem_lookup_iff.mp found
    change _ ∈ [_] at stored
    rw [List.mem_singleton] at stored
    cases stored
    exact ⟨by decide, by decide, by decide, by decide⟩
  have succeeds : (returned ((OperationBody.MANAGE_BUY_OFFER tradingPurchase).doApply 1 exactBook)
      tradingLedger).bind claimedAmounts = some [10] := by
    decide +kernel
  obtain ⟨result, returns, claims⟩ := Option.bind_eq_some_iff.mp succeeds
  obtain ⟨after, applied⟩ := returned_eq_some.mp returns
  obtain ⟨success, rfl, amounts⟩ := claimedAmounts_eq_some claims
  refine ⟨success, after, applied, amounts, ?_⟩
  obtain ⟨found, same, within, -⟩ := manageOffer_keepsTerms exactBook exact
    (.MANAGE_BUY_OFFER tradingPurchase) 1 (manageBuyOfferFrame 1 tradingPurchase) rfl (by decide)
    (by decide) tradingLedger after priced (by decide) (by decide +kernel) _ applied
  cases same
  exact within

end ViiCore.Transactions
