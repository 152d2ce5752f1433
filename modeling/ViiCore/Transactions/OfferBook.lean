import Mathlib.Algebra.Order.Field.Basic
import Mathlib.Data.Prod.Lex
import Mathlib.Data.Rat.Cast.Order
import ViiCore.Library.Least
import ViiCore.Transactions.OfferLiabilities
import ViiCore.Transactions.OperationEffects

/-!
The order book that an offer crosses: the best offer of a pair is the one with the least price,
and crossing from version 10 on only removes offers and cuts their amounts.

Prices are compared as the rational numbers they stand for. That `isBetterOffer` does the same is
an assumption, because the code divides floating point numbers.
-/

namespace ViiCore.Ledger

def Price.ratio (price : Price) : ℚ := price.n / price.d

end ViiCore.Ledger

namespace ViiCore.Transactions

open ViiCore.Ledger ViiCore.FiniteMap ViiCore.Execution ViiCore.Least

variable {ledger : Ledger} {book : OrderBook}

/-! ### Prices -/

theorem inverse_ratio (price : Price) : price.ratio⁻¹ = price.d / price.n := by
  rw [Price.ratio, inv_div]

theorem ratio_le_inverse {offered asked : Price} (d : 0 < offered.d) (n : 0 < asked.n) :
    offered.ratio ≤ asked.ratio⁻¹ ↔ offered.n * asked.n ≤ offered.d * asked.d := by
  have dRat : (0 : ℚ) < offered.d := by exact_mod_cast d
  have nRat : (0 : ℚ) < asked.n := by exact_mod_cast n
  rw [inverse_ratio, Price.ratio, div_le_div_iff₀ dRat nRat, mul_comm (asked.d : ℚ)]
  exact_mod_cast Iff.rfl

theorem ratio_lt_inverse {offered asked : Price} (d : 0 < offered.d) (n : 0 < asked.n) :
    offered.ratio < asked.ratio⁻¹ ↔ offered.n * asked.n < offered.d * asked.d := by
  have dRat : (0 : ℚ) < offered.d := by exact_mod_cast d
  have nRat : (0 : ℚ) < asked.n := by exact_mod_cast n
  rw [inverse_ratio, Price.ratio, div_lt_div_iff₀ dRat nRat, mul_comm (asked.d : ℚ)]
  exact_mod_cast Iff.rfl

/-! ### The best offer -/

/-- Every offer on the book has a price that was accepted when it was made. -/
def Priced (ledger : Ledger) : Prop :=
  ∀ key offer, ledger.offers.lookup key = some offer → PositivePrice offer.price

/-- The book compares offers by the exact quotients of their prices, and equal ones by id. -/
structure Exact (book : OrderBook) : Prop where
  better : ∀ left right, PositivePrice left.2.price → PositivePrice right.2.price →
    (book.isBetterOffer left right = true ↔ left.2.price.ratio < right.2.price.ratio ∨
      left.2.price.ratio = right.2.price.ratio ∧ left.1.offerID < right.1.offerID)

def offerRank (entry : OfferKey × OfferEntry) : ℚ ×ₗ Int :=
  toLex (entry.2.price.ratio, entry.1.offerID)

/-- The book compares the offers that are valid by a rank. -/
def Ranked {β : Type} [LinearOrder β] (book : OrderBook) (rank : OfferKey × OfferEntry → β)
    (valid : OfferEntry → Prop) : Prop :=
  ∀ left right, valid left.2 → valid right.2 →
    (book.isBetterOffer left right = true ↔ rank left < rank right)

theorem Exact.ranked (exact : Exact book) :
    Ranked book offerRank fun offer => PositivePrice offer.price := by
  intro left right leftPositive rightPositive
  rw [exact.better left right leftPositive rightPositive, offerRank, offerRank,
    Prod.Lex.toLex_lt_toLex]

theorem offerRank_price {left right : OfferKey × OfferEntry}
    (ranked : offerRank left ≤ offerRank right) :
    left.2.price.ratio ≤ right.2.price.ratio := by
  rw [offerRank, offerRank, Prod.Lex.toLex_le_toLex] at ranked
  rcases ranked with below | ⟨same, -⟩
  · exact below.le
  · exact same.le

section BestOffer

variable (book) (buying selling : Asset)

def considerOffer (best : Option (OfferKey × OfferEntry))
    (entry : Sigma fun _ : OfferKey => OfferEntry) : Option (OfferKey × OfferEntry) :=
  if entry.2.buying = buying ∧ entry.2.selling = selling then
    match best with
    | none => some (entry.1, entry.2)
    | some found => if book.isBetterOffer (entry.1, entry.2) found
        then some (entry.1, entry.2) else some found
  else best

variable {book buying selling}

theorem getBestOffer_eq :
    book.getBestOffer buying selling ledger =
      ledger.offers.entries.foldl (considerOffer book buying selling) none :=
  rfl

variable {β : Type} [LinearOrder β] {rank : OfferKey × OfferEntry → β} {valid : OfferEntry → Prop}

theorem considerOffer_least (ranked : Ranked book rank valid)
    {among : OfferKey × OfferEntry → Prop}
    {best : Option (OfferKey × OfferEntry)} (least : LeastOf rank among best)
    (bestValid : ∀ found, best = some found → valid found.2)
    (entry : Sigma fun _ : OfferKey => OfferEntry) (entryValid : valid entry.2) :
    LeastOf rank (fun item => among item ∨
        (item = (entry.1, entry.2) ∧ item.2.buying = buying ∧ item.2.selling = selling))
      (considerOffer book buying selling best entry) := by
  by_cases pair : entry.2.buying = buying ∧ entry.2.selling = selling
  · have considered : considerOffer book buying selling best entry =
        lower rank (some (entry.1, entry.2)) best := by
      unfold considerOffer
      rw [if_pos pair]
      cases best with
      | none => rfl
      | some found =>
          have better : book.isBetterOffer (entry.1, entry.2) found = true ↔
              rank (entry.1, entry.2) < rank found :=
            ranked _ found entryValid (bestValid found rfl)
          simp only [lower, better]
    rw [considered]
    apply ((leastOf_single (entry.1, entry.2)).lower least).congr
    intro item
    constructor
    · rintro (early | ⟨same, -⟩)
      · exact .inr early
      · exact .inl same
    · rintro (same | early)
      · rw [same]
        exact .inr ⟨rfl, pair⟩
      · exact .inl early
  · unfold considerOffer
    rw [if_neg pair]
    apply least.congr
    intro item
    constructor
    · rintro (early | ⟨same, ofPair⟩)
      · exact early
      · rw [same] at ofPair
        exact absurd ofPair pair
    · exact .inl

theorem considerOffer_valid {best : Option (OfferKey × OfferEntry)}
    (bestValid : ∀ found, best = some found → valid found.2)
    (entry : Sigma fun _ : OfferKey => OfferEntry) (entryValid : valid entry.2)
    (found : OfferKey × OfferEntry)
    (considered : considerOffer book buying selling best entry = some found) :
    valid found.2 := by
  unfold considerOffer at considered
  split at considered
  · split at considered
    · cases considered
      exact entryValid
    · split at considered
      · cases considered
        exact entryValid
      · exact bestValid found considered
  · exact bestValid found considered

theorem foldl_considerOffer_least (ranked : Ranked book rank valid)
    (entries : List (Sigma fun _ : OfferKey => OfferEntry))
    (entriesValid : ∀ entry ∈ entries, valid entry.2)
    {among : OfferKey × OfferEntry → Prop} {best : Option (OfferKey × OfferEntry)}
    (least : LeastOf rank among best)
    (bestValid : ∀ found, best = some found → valid found.2) :
    LeastOf rank (fun item => among item ∨
        (⟨item.1, item.2⟩ ∈ entries ∧ item.2.buying = buying ∧ item.2.selling = selling))
      (entries.foldl (considerOffer book buying selling) best) := by
  induction entries generalizing among best with
  | nil =>
      apply least.congr
      intro item
      simp
  | cons head tail ih =>
      have headValid := entriesValid head List.mem_cons_self
      apply (ih (fun entry member => entriesValid entry (List.mem_cons_of_mem head member))
        (considerOffer_least ranked least bestValid head headValid)
        (considerOffer_valid bestValid head headValid)).congr
      intro item
      have same : (⟨item.1, item.2⟩ : Sigma fun _ : OfferKey => OfferEntry) = head ↔
          item = (head.1, head.2) := by
        obtain ⟨key, offer⟩ := item
        obtain ⟨headKey, headOffer⟩ := head
        simp
      rw [List.mem_cons, same]
      tauto

theorem getBestOffer_least (ranked : Ranked book rank valid)
    (offersValid : ∀ key offer, ledger.offers.lookup key = some offer → valid offer) :
    LeastOf rank (fun item => ledger.offers.lookup item.1 = some item.2 ∧
        item.2.buying = buying ∧ item.2.selling = selling)
      (book.getBestOffer buying selling ledger) := by
  have entriesValid : ∀ entry ∈ ledger.offers.entries, valid entry.2 := by
    intro entry member
    exact offersValid entry.1 entry.2 (AList.mem_lookup_iff.mpr member)
  rw [getBestOffer_eq]
  apply (foldl_considerOffer_least ranked ledger.offers.entries entriesValid leastOf_none
    (fun _ impossible => by cases impossible)).congr
  intro item
  rw [false_or, ← AList.mem_lookup_iff, Option.mem_def]

end BestOffer

/-! ### Crossing one offer -/

/-- Every offer of the later book was on the earlier one, on the same terms. -/
def Thinned (before after : Map OfferKey OfferEntry) : Prop :=
  ∀ key offer, after.lookup key = some offer →
    ∃ earlier, before.lookup key = some earlier ∧ offer = { earlier with amount := offer.amount }

theorem Thinned.refl (offers : Map OfferKey OfferEntry) : Thinned offers offers :=
  fun _ offer found => ⟨offer, found, rfl⟩

theorem Thinned.trans {first second third : Map OfferKey OfferEntry}
    (early : Thinned first second) (late : Thinned second third) : Thinned first third := by
  intro key offer found
  obtain ⟨middle, middleFound, same⟩ := late key offer found
  obtain ⟨earliest, earliestFound, middleSame⟩ := early key middle middleFound
  refine ⟨earliest, earliestFound, ?_⟩
  rw [same, middleSame]

theorem thinned_erase (offers : Map OfferKey OfferEntry) (key : OfferKey) :
    Thinned offers (offers.erase key) := by
  intro other offer found
  by_cases same : other = key
  · rw [same, AList.lookup_erase] at found
    cases found
  · rw [AList.lookup_erase_ne same] at found
    exact ⟨offer, found, rfl⟩

theorem thinned_cut {offers : Map OfferKey OfferEntry} {key : OfferKey} {offer : OfferEntry}
    (found : offers.lookup key = some offer) (amount : Int) :
    Thinned offers (offers.insert key { offer with amount }) := by
  intro other changed changedFound
  by_cases same : other = key
  · rw [same, AList.lookup_insert] at changedFound
    cases changedFound
    rw [same]
    exact ⟨offer, found, rfl⟩
  · rw [AList.lookup_insert_ne same] at changedFound
    exact ⟨changed, changedFound, rfl⟩

theorem settleOfferV10_thinned {key : OfferKey} {offer : OfferEntry}
    (found : ledger.offers.lookup key = some offer) (amount : Int) :
    Ensures (settleOfferV10 key { offer with amount }) ledger fun _ after =>
      Thinned ledger.offers after.offers := by
  unfold settleOfferV10
  split
  · apply Ensures.mono (eraseOffer_follows key)
    rintro _ after ⟨_, offers, _⟩
    rw [offers]
    exact thinned_erase ledger.offers key
  · simp only [Ensures, wp_bind, wp_store, offerTable_read, offerTable_write]
    apply Ensures.mono (acquireOrReleaseLiabilities_follows key.sellerID _ true)
    rintro _ after ⟨_, keeps⟩
    rw [keeps.offers]
    exact thinned_cut found amount

theorem remainingAmount_none (key : OfferKey) (offer : OfferEntry) (exchange : ExchangeResultV10) :
    Ensures (remainingAmount key offer exchange) ledger fun amount after =>
      after = ledger ∧ (exchange.wheatStays = false → amount = 0) := by
  cases stays : exchange.wheatStays with
  | true =>
      apply Ensures.mono (remainingAmount_reads key offer exchange)
      intro amount after same
      exact ⟨same, fun impossible => by cases impossible⟩
  | false =>
      unfold remainingAmount
      rw [stays]
      exact ⟨rfl, fun _ => rfl⟩

structure CrossedBook (crossing : Crossing) (before after : Ledger) : Prop where
  version : after.header.ledgerVersion = before.header.ledgerVersion
  thinned : Thinned before.offers after.offers
  converts : crossing.result ≠ .eOfferCantConvert
  taken : crossing.wheatStays = false → crossing.result = .eOfferTaken

theorem Follows.version {moves : List Movement} {entries : AccountID → Int} {before after : Ledger}
    (follows : Follows moves entries before after) :
    after.header.ledgerVersion = before.header.ledgerVersion := by
  rw [follows.header]

theorem crossOfferV10_book {key : OfferKey} {offer : OfferEntry}
    (found : ledger.offers.lookup key = some offer) (maxWheatReceived maxSheepSend : Int)
    (isPathPayment : Bool) :
    Ensures (crossOfferV10 key offer maxWheatReceived maxSheepSend isPathPayment) ledger
      fun crossing after => CrossedBook crossing ledger after := by
  have crossed := crossOfferV10_crossed found maxWheatReceived maxSheepSend isPathPayment
  suffices book : Ensures (crossOfferV10 key offer maxWheatReceived maxSheepSend isPathPayment)
      ledger fun crossing after => Thinned ledger.offers after.offers ∧
        crossing.result ≠ .eOfferCantConvert ∧
        (crossing.wheatStays = false → crossing.result = .eOfferTaken) by
    apply Ensures.mono (crossed.and book)
    rintro crossing after ⟨went, thinned, converts, taken⟩
    exact ⟨went.follows.version, thinned, converts, taken⟩
  unfold crossOfferV10
  apply Ensures.bind (computed_reads _)
  rintro _ _ rfl
  apply Ensures.bind (computed_reads _)
  rintro _ before rfl
  simp only [Ensures, wp_bind, wp_load, accountTable_read]
  cases before.accounts.lookup key.sellerID with
  | none => trivial
  | some accountB =>
      simp only [wp_bind]
      apply Ensures.mono (acquireOrReleaseLiabilities_follows key.sellerID offer false)
      rintro _ released ⟨_, releasedKeeps⟩
      apply Ensures.mono (adjustOffer_reads key.sellerID offer)
      rintro adjustedAmount _ rfl
      apply Ensures.mono (tradeLimits_reads key.sellerID offer.selling offer.buying)
      rintro limits released rfl
      apply Ensures.mono (computed_reads _)
      rintro exchange _ rfl
      apply Ensures.mono (orThrow_ensures (addBalanceUnlessZero_follows key.sellerID
        offer.buying exchange.numSheepSend))
      rintro _ receivedLedger ⟨_, receivedKeeps⟩
      apply Ensures.mono (orThrow_ensures (addBalanceUnlessZero_follows key.sellerID
        offer.selling (-exchange.numWheatReceived)))
      rintro _ sentLedger ⟨_, sentKeeps⟩
      have kept : sentLedger.offers = before.offers := by
        rw [sentKeeps.offers, receivedKeeps.offers, releasedKeeps.offers]
      apply Ensures.mono (remainingAmount_none key _ exchange)
      rintro remaining _ ⟨rfl, nothing⟩
      apply Ensures.mono (settleOfferV10_thinned (kept ▸ found) remaining)
      intro _ after thinned
      rw [kept] at thinned
      refine ⟨thinned, ?_, ?_⟩
      · dsimp only
        split <;> simp
      · intro stays
        exact if_pos (nothing stays)

/-! ### Crossing the book -/

/-- A claim on an offer that the filter let pass, on the terms it had at the start. -/
def Passed (conversion : Conversion) (start : Ledger) (claim : ClaimOfferAtom) : Prop :=
  ∃ offer amount, start.offers.lookup ⟨claim.sellerID, claim.offerID⟩ = some offer ∧
    conversion.filter ⟨claim.sellerID, claim.offerID⟩ { offer with amount } = .ok .eKeep

def Stopped (conversion : Conversion) (ledger : Ledger) : ConvertResult → Prop
  | .eOK => True
  | .eCrossedTooMany => True
  | .ePartial => conversion.book.getBestOffer conversion.sheep conversion.wheat ledger = none
  | .eFilterStop crossSelf => ∃ key offer,
      conversion.book.getBestOffer conversion.sheep conversion.wheat ledger = some (key, offer) ∧
        conversion.filter key offer = .ok (.eStop crossSelf)

structure Trading (conversion : Conversion) (start : Ledger) (maxSheepSend maxWheatReceive : Int)
    (progress : ConvertProgress) (current : Ledger) : Prop where
  version : current.header.ledgerVersion = start.header.ledgerVersion
  thinned : Thinned start.offers current.offers
  sheep : progress.sheepSend + progress.maxSheepSend = maxSheepSend
  wheat : progress.wheatReceived + progress.maxWheatReceive = maxWheatReceive
  sheepLeft : 0 ≤ progress.maxSheepSend
  wheatLeft : 0 ≤ progress.maxWheatReceive
  passed : ∀ claim ∈ progress.offerTrail, Passed conversion start claim

/-- What a conversion from version 10 on has done to the book and kept to. -/
structure Traded (conversion : Conversion) (start : Ledger) (maxSheepSend maxWheatReceive : Int)
    (converted : Converted) (after : Ledger) : Prop where
  version : after.header.ledgerVersion = start.header.ledgerVersion
  thinned : Thinned start.offers after.offers
  sheep : converted.sheepSend ≤ max 0 maxSheepSend
  wheat : converted.wheatReceived ≤ max 0 maxWheatReceive
  passed : ∀ claim ∈ converted.offerTrail, Passed conversion start claim
  stopped : Stopped conversion after converted.result

section Loop

variable {conversion : Conversion} {start : Ledger} {maxSheepSend maxWheatReceive : Int}
variable {progress : ConvertProgress}

theorem Trading.finish
    (trading : Trading conversion start maxSheepSend maxWheatReceive progress ledger)
    {result : ConvertResult} (stopped : Stopped conversion ledger result) :
    Traded conversion start maxSheepSend maxWheatReceive (progress.finish result) ledger where
  version := trading.version
  thinned := trading.thinned
  sheep := by
    have sum := trading.sheep
    have left := trading.sheepLeft
    simp only [ConvertProgress.finish]
    omega
  wheat := by
    have sum := trading.wheat
    have left := trading.wheatLeft
    simp only [ConvertProgress.finish]
    omega
  passed := trading.passed
  stopped := stopped

theorem Trading.cross
    (trading : Trading conversion start maxSheepSend maxWheatReceive progress ledger)
    {key : OfferKey} {offer : OfferEntry} {crossing : Crossing} {after : Ledger}
    (found : ledger.offers.lookup key = some offer)
    (kept : conversion.filter key offer = .ok .eKeep)
    (within : crossing.checkBounds progress = .ok ())
    (crossed : CrossedBook crossing ledger after) :
    Trading conversion start maxSheepSend maxWheatReceive (progress.cross key offer crossing)
      after := by
  have bounds := Crossing.checkBounds_ok within
  constructor
  · rw [crossed.version, trading.version]
  · exact trading.thinned.trans crossed.thinned
  · rw [← trading.sheep]
    simp only [ConvertProgress.cross]
    omega
  · rw [← trading.wheat]
    simp only [ConvertProgress.cross]
    omega
  · simp only [ConvertProgress.cross]
    omega
  · simp only [ConvertProgress.cross]
    omega
  · intro claim member
    rcases List.mem_append.mp member with early | last
    · exact trading.passed claim early
    · rw [List.mem_singleton.mp last]
      obtain ⟨earlier, earlierFound, same⟩ := trading.thinned key offer found
      refine ⟨earlier, offer.amount, earlierFound, ?_⟩
      rw [same] at kept
      exact kept

theorem convertStep_trades (version : 10 ≤ start.header.ledgerVersion)
    (trading : Trading conversion start maxSheepSend maxWheatReceive progress ledger) :
    Ensures (convertStep conversion progress) ledger fun outcome after =>
      match outcome with
      | .inl converted => Traded conversion start maxSheepSend maxWheatReceive converted after
      | .inr next => Trading conversion start maxSheepSend maxWheatReceive next after := by
  have current : 10 ≤ ledger.header.ledgerVersion := by
    rw [trading.version]
    exact version
  unfold convertStep OrderBook.loadBestOffer
  simp only [Ensures, wp_bind, wp_loadHeader, wp_get, wp_pure]
  cases best : conversion.book.getBestOffer conversion.sheep conversion.wheat ledger with
  | none =>
      have late : ¬ ledger.header.ledgerVersion < 10 := by omega
      simp only [wp_pure, late, if_false]
      exact trading.finish best
  | some entry =>
      obtain ⟨key, offer⟩ := entry
      obtain ⟨found, -, -⟩ := OrderBook.getBestOffer_lookup _ _ _ _ _ _ best
      simp only [wp_bind, wp_computed]
      cases filtered : conversion.filter key offer with
      | error fault => trivial
      | ok verdict =>
          cases verdict with
          | eStop crossSelf => exact trading.finish ⟨key, offer, best, filtered⟩
          | eKeep =>
              simp only [wp_ite, wp_bind, wp_get, wp_pure]
              refine ⟨fun _ => trading.finish trivial, fun _ => ?_⟩
              unfold crossBestOffer
              simp only [wp_bind, wp_loadHeader, ge_iff_le, current, if_true]
              apply Ensures.mono (crossOfferV10_book found progress.maxWheatReceive
                progress.maxSheepSend conversion.isPathPayment)
              intro crossing after crossed
              cases checked : crossing.checkBounds progress with
              | error fault => trivial
              | ok bounds =>
                  have next := trading.cross found filtered checked crossed
                  simp only [wp_computed, wp_set]
                  refine ⟨fun failed => absurd failed crossed.converts, fun _ => ?_⟩
                  refine ⟨fun _ => next.finish trivial, fun goesOn => ?_⟩
                  -- Where the wheat does not stay the whole offer was taken.
                  have gone : crossing.wheatStays = false := by
                    cases stays : crossing.wheatStays with
                    | true => exact absurd (Or.inl stays) goesOn
                    | false => rfl
                  have taken := crossed.taken gone
                  refine ⟨fun cut => ?_, fun _ => next⟩
                  rw [taken] at cut
                  cases cut

theorem convertLoop_trades (version : 10 ≤ start.header.ledgerVersion) (fuel : Nat)
    (trading : Trading conversion start maxSheepSend maxWheatReceive progress ledger) :
    Ensures (convertLoop conversion fuel progress) ledger fun converted after =>
      Traded conversion start maxSheepSend maxWheatReceive converted after := by
  induction fuel generalizing progress ledger with
  | zero => trivial
  | succ fuel ih =>
      unfold convertLoop
      apply Ensures.bind (convertStep_trades version trading)
      intro outcome after reached
      cases outcome with
      | inl converted => exact reached
      | inr next => exact ih reached

theorem convertWithOffers_trades (version : 10 ≤ ledger.header.ledgerVersion) :
    Ensures (convertWithOffers conversion maxSheepSend maxWheatReceive) ledger
      fun converted after => Traded conversion ledger maxSheepSend maxWheatReceive converted
        after := by
  unfold convertWithOffers
  simp only [Ensures, wp_ite, wp_bind, wp_get, wp_pure]
  constructor
  · intro needMore
    simp only [ConvertProgress.needMore, decide_eq_true_eq] at needMore
    apply convertLoop_trades version
    constructor
    · rfl
    · exact Thinned.refl ledger.offers
    · simp
    · simp
    · exact needMore.2.le
    · exact needMore.1.le
    · intro claim absent
      cases absent
  · intro _
    constructor
    · rfl
    · exact Thinned.refl ledger.offers
    · exact le_max_left 0 maxSheepSend
    · exact le_max_left 0 maxWheatReceive
    · intro claim absent
      cases absent
    · trivial

end Loop

end ViiCore.Transactions
