import ViiCore.Transactions.Effects

/-!
The effect of crossing offers on the books: every claim of the offer trail is a movement
of both assets at its seller, and the totals `convertWithOffers` returns are the sums over
the trail.
-/

namespace ViiCore.Transactions

open ViiCore.Ledger ViiCore.FiniteMap ViiCore.Execution

variable {ledger : Ledger}

/-! ### Reading limits -/

theorem loadTrustLineIfNotNative_reads (accountID : AccountID) (asset : Asset) :
    Ensures (loadTrustLineIfNotNative accountID asset) ledger fun _ after => after = ledger := by
  cases asset with
  | native => rfl
  | alphaNum4 code issuer =>
      simp only [loadTrustLineIfNotNative]
      exact loadTrustLine_reads accountID _
  | alphaNum12 code issuer =>
      simp only [loadTrustLineIfNotNative]
      exact loadTrustLine_reads accountID _

theorem tradeLimits_reads (accountID : AccountID) (selling buying : Asset) :
    Ensures (tradeLimits accountID selling buying) ledger fun _ after => after = ledger := by
  unfold tradeLimits
  simp only [Ensures, wp_bind, wp_loadHeader, wp_load]
  apply Ensures.mono (loadTrustLineIfNotNative_reads accountID selling)
  rintro sellingLine _ rfl
  apply Ensures.mono (loadTrustLineIfNotNative_reads accountID buying)
  rintro buyingLine middle rfl
  apply Ensures.mono (computed_reads _)
  rintro maxSell _ rfl
  apply Ensures.mono (computed_reads _)
  rintro maxBuy _ rfl
  rfl

theorem adjustOffer_reads (sellerID : AccountID) (offer : OfferEntry) :
    Ensures (adjustOffer sellerID offer) ledger fun _ after => after = ledger := by
  unfold adjustOffer
  apply Ensures.bind (tradeLimits_reads sellerID offer.selling offer.buying)
  rintro limits _ rfl
  exact computed_reads _

theorem remainingAmount_reads (key : OfferKey) (offer : OfferEntry) (exchange : ExchangeResultV10) :
    Ensures (remainingAmount key offer exchange) ledger fun _ after => after = ledger := by
  unfold remainingAmount
  split
  · exact adjustOffer_reads _ _
  · rfl

/-! ### Settling an offer -/

theorem eraseOffer_follows (key : OfferKey) :
    Ensures (eraseOffer key) ledger fun _ after =>
      Follows [] 0 ledger after ∧ after.offers = ledger.offers.erase key ∧
        after.data = ledger.data := by
  unfold eraseOffer
  simp only [Ensures, wp_bind, wp_erase, offerTable_read, offerTable_write]
  cases found : ledger.offers.lookup key with
  | none => trivial
  | some offer =>
      simp only
      apply Ensures.mono (dropEntry_follows key.sellerID)
      rintro _ after ⟨keeps, dropped⟩
      have erased := follows_eraseOffer found
      refine ⟨(erased.trans dropped).congr (fun _ => rfl) ?_, keeps.offers, keeps.data⟩
      intro accountID
      simp only [only, Pi.add_apply, Pi.zero_apply]
      split <;> omega

theorem settleOffer_follows {key : OfferKey} {old : OfferEntry} (offer : OfferEntry)
    (found : ledger.offers.lookup key = some old) :
    Ensures (settleOffer key offer) ledger fun _ after =>
      Follows [] 0 ledger after ∧
        (offer.amount = 0 → after.offers = ledger.offers.erase key) := by
  unfold settleOffer
  split
  · apply Ensures.mono (eraseOffer_follows key)
    rintro _ after ⟨follows, offers, _⟩
    exact ⟨follows, fun _ => offers⟩
  · rename_i nonzero
    exact ⟨follows_storeOffer found, fun zero => absurd zero nonzero⟩

theorem settleOfferV10_follows {key : OfferKey} {old : OfferEntry} (offer : OfferEntry)
    (found : ledger.offers.lookup key = some old) :
    Ensures (settleOfferV10 key offer) ledger fun _ after =>
      Follows [] 0 ledger after ∧
        (offer.amount = 0 → after.offers = ledger.offers.erase key) := by
  unfold settleOfferV10
  split
  · apply Ensures.mono (eraseOffer_follows key)
    rintro _ after ⟨follows, offers, _⟩
    exact ⟨follows, fun _ => offers⟩
  · rename_i nonzero
    simp only [Ensures, wp_bind, wp_store, offerTable_read, offerTable_write]
    apply Ensures.mono (acquireOrReleaseLiabilities_follows key.sellerID offer true)
    rintro _ after ⟨follows, _⟩
    exact ⟨(follows_storeOffer found).trans follows, fun zero => absurd zero nonzero⟩

/-! ### Crossing one offer -/

structure Crossed (key : OfferKey) (offer : OfferEntry) (crossing : Crossing)
    (before after : Ledger) : Prop where
  follows : Follows (crossing.claim key offer).movements 0 before after
  together : crossing.numWheatReceived = 0 ↔ crossing.numSheepSend = 0
  taken : crossing.result = .eOfferTaken → after.offers = before.offers.erase key

theorem performExchange_together {header : LedgerHeader} {offer : OfferEntry}
    {accountB : AccountEntry} {wheatLine sheepLine : Option TrustLineWrapper}
    {maxWheatReceived maxSheepSend : Int} {exchange : PerformedExchange}
    (performed : performExchange header offer accountB wheatLine sheepLine maxWheatReceived
      maxSheepSend = .ok exchange) (normal : exchange.type ≠ .REDUCED_TO_ZERO) :
    exchange.numWheatReceived = 0 ↔ exchange.numSheepSend = 0 := by
  unfold performExchange at performed
  obtain ⟨basedOnSheep, -, performed⟩ := except_bind_ok.mp performed
  obtain ⟨basedOnWheat, -, performed⟩ := except_bind_ok.mp performed
  obtain ⟨-, performed⟩ := assertThat_bind_ok.mp performed
  obtain ⟨exchanged, -, performed⟩ := except_bind_ok.mp performed
  cases type : exchanged.type with
  | REDUCED_TO_ZERO =>
      simp only [type] at performed
      cases performed
      exact absurd rfl normal
  | BOGUS =>
      simp only [type] at performed
      cases performed
      exact Iff.rfl
  | NORMAL =>
      simp only [type] at performed
      cases performed
      have nonzero : exchanged.numWheatReceived ≠ 0 ∧ exchanged.numSheepSend ≠ 0 := by
        unfold ExchangeResult.type at type
        split at type
        · assumption
        · split at type <;> cases type
      simp [nonzero.1, nonzero.2]

theorem crossOffer_crossed {key : OfferKey} {offer : OfferEntry}
    (found : ledger.offers.lookup key = some offer) (maxWheatReceived maxSheepSend : Int) :
    Ensures (crossOffer key offer maxWheatReceived maxSheepSend) ledger fun crossing after =>
      crossing.result ≠ .eOfferCantConvert → Crossed key offer crossing ledger after := by
  unfold crossOffer
  apply Ensures.bind (computed_reads _)
  rintro _ _ rfl
  apply Ensures.bind (computed_reads _)
  rintro _ before rfl
  simp only [Ensures, wp_bind, wp_load, accountTable_read]
  cases before.accounts.lookup key.sellerID with
  | none => trivial
  | some accountB =>
      simp only [wp_bind, wp_loadHeader]
      apply Ensures.mono (loadTrustLineIfNotNative_reads key.sellerID offer.buying)
      rintro sheepLine _ rfl
      apply Ensures.mono (loadTrustLineIfNotNative_reads key.sellerID offer.selling)
      rintro wheatLine before rfl
      simp only [wp_computed]
      cases performed : performExchange before.header offer accountB wheatLine sheepLine
          maxWheatReceived maxSheepSend with
      | error fault => trivial
      | ok exchange =>
          simp only [wp_ite]
          constructor
          · intro _
            simp
          · intro normal
            simp only [wp_bind]
            apply Ensures.mono (settleOffer_follows _ found)
            rintro _ settledLedger ⟨settled, erased⟩
            apply Ensures.mono (addBalanceUnlessZero_follows key.sellerID offer.buying
              exchange.numSheepSend)
            intro received receivedLedger receivedResult
            cases received with
            | false => simp
            | true =>
                simp only [if_true] at receivedResult
                simp only [not_true_eq_false, if_false, wp_bind]
                apply Ensures.mono (addBalanceUnlessZero_follows key.sellerID offer.selling
                  (-exchange.numWheatReceived))
                intro sent after sentResult
                cases sent with
                | false => simp
                | true =>
                    simp only [if_true] at sentResult
                    simp only [not_true_eq_false, if_false, wp_pure]
                    intro _
                    constructor
                    · exact (settled.trans (receivedResult.1.trans sentResult.1)).congr
                        (fun _ => rfl) (fun _ => rfl)
                    · exact performExchange_together performed normal
                    · intro taken
                      have zero : exchange.newAmount = 0 := by
                        by_contra nonzero
                        simp [nonzero] at taken
                      rw [sentResult.2.offers, receivedResult.2.offers]
                      exact erased zero

theorem crossOfferV10_crossed {key : OfferKey} {offer : OfferEntry}
    (found : ledger.offers.lookup key = some offer) (maxWheatReceived maxSheepSend : Int)
    (isPathPayment : Bool) :
    Ensures (crossOfferV10 key offer maxWheatReceived maxSheepSend isPathPayment) ledger
      fun crossing after => Crossed key offer crossing ledger after := by
  unfold crossOfferV10
  apply Ensures.bind (computed_reads _)
  rintro _ _ rfl
  apply Ensures.bind (computed_reads _)
  rintro _ before rfl
  simp only [Ensures, wp_bind, wp_load, accountTable_read]
  cases before.accounts.lookup key.sellerID with
  | none => trivial
  | some accountB =>
      simp only [wp_bind]
      apply Ensures.mono (acquireOrReleaseLiabilities_follows key.sellerID offer false)
      rintro _ released ⟨releasedFollows, releasedKeeps⟩
      apply Ensures.mono (adjustOffer_reads key.sellerID offer)
      rintro adjustedAmount _ rfl
      apply Ensures.mono (tradeLimits_reads key.sellerID offer.selling offer.buying)
      rintro limits released rfl
      simp only [wp_computed]
      cases exchanged : exchangeV10 offer.price (min adjustedAmount limits.1) maxWheatReceived
          maxSheepSend limits.2 isPathPayment with
      | error fault => trivial
      | ok exchange =>
          apply Ensures.mono (orThrow_ensures (addBalanceUnlessZero_follows key.sellerID
            offer.buying exchange.numSheepSend))
          rintro _ receivedLedger ⟨received, receivedKeeps⟩
          apply Ensures.mono (orThrow_ensures (addBalanceUnlessZero_follows key.sellerID
            offer.selling (-exchange.numWheatReceived)))
          rintro _ sentLedger ⟨sent, sentKeeps⟩
          apply Ensures.mono (remainingAmount_reads key _ exchange)
          rintro remaining sentLedger rfl
          have stillThere : sentLedger.offers.lookup key = some offer := by
            rw [sentKeeps.offers, receivedKeeps.offers, releasedKeeps.offers]
            exact found
          apply Ensures.mono (settleOfferV10_follows _ stillThere)
          rintro _ after ⟨settled, erased⟩
          constructor
          · exact (releasedFollows.trans (received.trans (sent.trans settled))).congr
              (fun _ => rfl) (fun _ => rfl)
          · exact (exchangeV10_bounded exchanged).together
          · intro taken
            have zero : remaining = 0 := by
              by_contra nonzero
              simp [nonzero] at taken
            rw [erased zero, sentKeeps.offers, receivedKeeps.offers, releasedKeeps.offers]

/-! ### Crossing the book -/

/-- The totals of a conversion are the sums over its claims, all of one pair. -/
structure Claimed (conversion : Conversion) (claims : List ClaimOfferAtom)
    (sheepSend wheatReceived : Int) : Prop where
  sheep : sheepSend = (claims.map ClaimOfferAtom.amountBought).sum
  wheat : wheatReceived = (claims.map ClaimOfferAtom.amountSold).sum
  amounts : ∀ claim ∈ claims, 0 ≤ claim.amountSold ∧ 0 ≤ claim.amountBought ∧
    (claim.amountSold = 0 ↔ claim.amountBought = 0)
  assets : ∀ claim ∈ claims, claim.assetSold = conversion.wheat ∧
    claim.assetBought = conversion.sheep

theorem Claimed.nil (conversion : Conversion) : Claimed conversion [] 0 0 where
  sheep := rfl
  wheat := rfl
  amounts _ absent := by cases absent
  assets _ absent := by cases absent

theorem Claimed.snoc {conversion : Conversion} {claims : List ClaimOfferAtom}
    {sheepSend wheatReceived : Int} (claimed : Claimed conversion claims sheepSend wheatReceived)
    {claim : ClaimOfferAtom} (wheatNonneg : 0 ≤ claim.amountSold)
    (sheepNonneg : 0 ≤ claim.amountBought)
    (together : claim.amountSold = 0 ↔ claim.amountBought = 0)
    (assets : claim.assetSold = conversion.wheat ∧ claim.assetBought = conversion.sheep) :
    Claimed conversion (claims ++ [claim]) (sheepSend + claim.amountBought)
      (wheatReceived + claim.amountSold) where
  sheep := by simp [claimed.sheep]
  wheat := by simp [claimed.wheat]
  amounts other member := by
    rcases List.mem_append.mp member with early | last
    · exact claimed.amounts other early
    · rw [List.mem_singleton.mp last]
      exact ⟨wheatNonneg, sheepNonneg, together⟩
  assets other member := by
    rcases List.mem_append.mp member with early | last
    · exact claimed.assets other early
    · rw [List.mem_singleton.mp last]
      exact assets

/-- What holds of the ledger and the running totals at each round of the loop. -/
structure Underway (conversion : Conversion) (start : Ledger) (claims : List ClaimOfferAtom)
    (sheepSend wheatReceived : Int) (current : Ledger) : Prop where
  follows : Follows (claimMovements claims) 0 start current
  claimed : Claimed conversion claims sheepSend wheatReceived

theorem Crossing.checkBounds_ok {crossing : Crossing} {progress : ConvertProgress}
    (checked : crossing.checkBounds progress = .ok ()) :
    (0 ≤ crossing.numSheepSend ∧ crossing.numSheepSend ≤ progress.maxSheepSend) ∧
    (0 ≤ crossing.numWheatReceived ∧ crossing.numWheatReceived ≤ progress.maxWheatReceive) := by
  unfold Crossing.checkBounds at checked
  obtain ⟨sheepNonneg, checked⟩ := assertThat_bind_ok.mp checked
  obtain ⟨sheepFits, checked⟩ := assertThat_bind_ok.mp checked
  obtain ⟨wheatNonneg, checked⟩ := assertThat_bind_ok.mp checked
  simp only [decide_eq_true_eq] at sheepNonneg sheepFits wheatNonneg
  refine ⟨⟨sheepNonneg, sheepFits⟩, wheatNonneg, ?_⟩
  unfold assertThat at checked
  split at checked
  · rename_i fits
    simpa using fits
  · cases checked

theorem crossBestOffer_crossed {key : OfferKey} {offer : OfferEntry} (conversion : Conversion)
    (progress : ConvertProgress) (found : ledger.offers.lookup key = some offer) :
    Ensures (crossBestOffer conversion progress key offer) ledger fun crossing after =>
      crossing.result ≠ .eOfferCantConvert → Crossed key offer crossing ledger after := by
  unfold crossBestOffer
  simp only [Ensures, wp_bind, wp_loadHeader, wp_ite]
  constructor
  · intro _
    apply Ensures.mono (crossOfferV10_crossed found _ _ _)
    intro crossing after crossed _
    exact crossed
  · intro _
    exact crossOffer_crossed found _ _

theorem convertStep_underway (conversion : Conversion) (start : Ledger)
    (progress : ConvertProgress)
    (underway : Underway conversion start progress.offerTrail progress.sheepSend
      progress.wheatReceived ledger) :
    Ensures (convertStep conversion progress) ledger fun outcome after =>
      match outcome with
      | .inl converted => Underway conversion start converted.offerTrail converted.sheepSend
          converted.wheatReceived after
      | .inr next => Underway conversion start next.offerTrail next.sheepSend next.wheatReceived
          after := by
  unfold convertStep OrderBook.loadBestOffer
  simp only [Ensures, wp_bind, wp_loadHeader, wp_get, wp_pure]
  cases best : conversion.book.getBestOffer conversion.sheep conversion.wheat ledger with
  | none => exact underway
  | some entry =>
      obtain ⟨key, offer⟩ := entry
      obtain ⟨found, buying, selling⟩ := OrderBook.getBestOffer_lookup _ _ _ _ _ _ best
      simp only [wp_bind, wp_computed]
      cases conversion.filter key offer with
      | error fault => trivial
      | ok verdict =>
          cases verdict with
          | eStop crossSelf => exact underway
          | eKeep =>
              simp only [wp_ite, wp_bind, wp_get, wp_pure]
              constructor
              · intro _
                exact underway
              · intro _
                apply Ensures.mono (crossBestOffer_crossed conversion progress found)
                intro crossing after crossed
                cases checked : crossing.checkBounds progress with
                | error fault => trivial
                | ok bounds =>
                    have within := Crossing.checkBounds_ok checked
                    simp only [wp_computed, wp_set]
                    constructor
                    · intro _
                      exact underway
                    · intro converts
                      have went := crossed converts
                      have next : Underway conversion start
                          (progress.cross key offer crossing).offerTrail
                          (progress.cross key offer crossing).sheepSend
                          (progress.cross key offer crossing).wheatReceived after := by
                        constructor
                        · have follows := underway.follows.trans went.follows
                          apply follows.congr
                          · intro asset
                            simp [ConvertProgress.cross, claimMovements]
                          · intro accountID
                            rfl
                        · exact underway.claimed.snoc within.2.1 within.1.1 went.together
                            ⟨selling, buying⟩
                      refine ⟨fun _ => next, fun _ => ⟨fun _ => next, fun _ => next⟩⟩

theorem convertLoop_underway (conversion : Conversion) (start : Ledger) (fuel : Nat)
    (progress : ConvertProgress)
    (underway : Underway conversion start progress.offerTrail progress.sheepSend
      progress.wheatReceived ledger) :
    Ensures (convertLoop conversion fuel progress) ledger fun converted after =>
      Underway conversion start converted.offerTrail converted.sheepSend converted.wheatReceived
        after := by
  induction fuel generalizing progress ledger with
  | zero => trivial
  | succ fuel ih =>
      unfold convertLoop
      apply Ensures.bind (convertStep_underway conversion start progress underway)
      intro outcome after reached
      cases outcome with
      | inl converted => exact reached
      | inr next => exact ih next reached

theorem convertWithOffers_underway (conversion : Conversion) (maxSheepSend maxWheatReceive : Int) :
    Ensures (convertWithOffers conversion maxSheepSend maxWheatReceive) ledger
      fun converted after => Underway conversion ledger converted.offerTrail converted.sheepSend
        converted.wheatReceived after := by
  unfold convertWithOffers
  have initial : Underway conversion ledger [] 0 0 ledger :=
    ⟨Follows.refl ledger, Claimed.nil conversion⟩
  simp only [Ensures, wp_ite, wp_bind, wp_get, wp_pure]
  constructor
  · intro _
    exact convertLoop_underway conversion ledger _ _ initial
  · intro _
    exact initial

end ViiCore.Transactions
