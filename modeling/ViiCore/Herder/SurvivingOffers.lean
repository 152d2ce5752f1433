import ViiCore.Herder.LiabilitySums
import ViiCore.Transactions.Faults

/-!
The offers that `prepareLiabilities` leaves on the book.

An offer survives when the liabilities of all offers of its owner in its two assets fit what the
owner has, and the offer is not adjusted to nothing. The loop over the offers of an account erases
the others, gives back their sub-entries and sums up the liabilities of those it keeps; it never
throws.
-/

namespace ViiCore.Herder

open ViiCore.Ledger ViiCore.FiniteMap ViiCore.Execution ViiCore.Transactions

/-! ### Offers and recorded liabilities -/

/-- What the offers of an account add up to in one asset. -/
def offered (side : Side) (ledger : Ledger) (accountID : AccountID) (asset : Asset) : Int :=
  total (fun key offer => if key.sellerID = accountID ∧ side.asset offer = asset
    then side.amount ledger.header offer else 0) ledger.offers

def recordedIn (ledger : Ledger) (accountID : AccountID) (asset : Asset) : Liabilities :=
  if asset = .native then recorded ((ledger.accounts.lookup accountID).bind AccountEntry.ext)
  else recorded ((ledger.trustLines.lookup ⟨accountID, asset⟩).bind TrustLineEntry.ext)

/-- Recorded liabilities are those of the offers. An issuer has none in its own asset. -/
def LiabilitiesMatchOffers (ledger : Ledger) : Prop :=
  ∀ side accountID asset, asset.issuer? ≠ some accountID →
    side.of (recordedIn ledger accountID asset) = offered side ledger accountID asset

/-- What an account can sell or buy of an asset that it does not issue. -/
def capacity (side : Side) (ledger : Ledger) (accountID : AccountID) (asset : Asset) : Int :=
  if asset = .native then
    match ledger.accounts.lookup accountID, side with
    | none, _ => 0
    | some account, .selling => account.balance - getMinBalance ledger.header account.numSubEntries
    | some account, .buying => INT64_MAX - account.balance
  else
    match ledger.trustLines.lookup ⟨accountID, asset⟩, side with
    | none, _ => 0
    | some line, .selling => if isAuthorized line then line.balance else 0
    | some line, .buying => if isAuthorized line then line.limit - line.balance else 0

def OverCommitted (side : Side) (ledger : Ledger) (accountID : AccountID) (asset : Asset) : Prop :=
  asset.issuer? ≠ some accountID ∧
    capacity side ledger accountID asset < offered side ledger accountID asset

instance (side : Side) (ledger : Ledger) (accountID : AccountID) (asset : Asset) :
    Decidable (OverCommitted side ledger accountID asset) :=
  inferInstanceAs (Decidable (_ ∧ _))

structure Survives (ledger : Ledger) (key : OfferKey) (offer : OfferEntry) : Prop where
  sold : ¬ OverCommitted .selling ledger key.sellerID offer.selling
  bought : ¬ OverCommitted .buying ledger key.sellerID offer.buying
  kept : adjustOfferAmount offer.price offer.amount INT64_MAX ≠ .ok 0

instance (ledger : Ledger) (key : OfferKey) (offer : OfferEntry) :
    Decidable (Survives ledger key offer) :=
  decidable_of_iff
    (¬ OverCommitted .selling ledger key.sellerID offer.selling ∧
      ¬ OverCommitted .buying ledger key.sellerID offer.buying ∧
      adjustOfferAmount offer.price offer.amount INT64_MAX ≠ .ok 0)
    ⟨fun all => ⟨all.1, all.2.1, all.2.2⟩, fun all => ⟨all.sold, all.bought, all.kept⟩⟩

/-- The ledgers that the checks on entries let through. -/
structure SoundLedger (ledger : Ledger) : Prop where
  offers : ∀ key offer, ledger.offers.lookup key = some offer → SoundOffer offer
  sellers : ∀ key offer, ledger.offers.lookup key = some offer →
    ∃ account, ledger.accounts.lookup key.sellerID = some account
  balances : ∀ accountID account, ledger.accounts.lookup accountID = some account →
    0 ≤ account.balance ∧ account.balance ≤ INT64_MAX
  lines : ∀ key line, ledger.trustLines.lookup key = some line →
    0 ≤ line.balance ∧ line.balance ≤ line.limit ∧ line.limit ≤ INT64_MAX
  entries : Covered ledger
  entriesFit : SubEntriesFit ledger

/-! ### The offers of one account -/

def ownOffers (offers : List (OfferKey × OfferEntry)) (sellerID : AccountID) :
    List (OfferKey × OfferEntry) :=
  offers.filter fun offer => offer.1.sellerID = sellerID

def listed (ledger : Ledger) : List (OfferKey × OfferEntry) :=
  ledger.offers.entries.map fun entry => (entry.1, entry.2)

theorem mem_listed {ledger : Ledger} {entry : OfferKey × OfferEntry} :
    entry ∈ listed ledger ↔ ledger.offers.lookup entry.1 = some entry.2 := by
  constructor
  · intro member
    obtain ⟨found, present, rfl⟩ := List.mem_map.mp member
    exact AList.mem_lookup_iff.mpr present
  · intro found
    exact List.mem_map.mpr ⟨⟨entry.1, entry.2⟩, AList.mem_lookup_iff.mp found, rfl⟩

theorem mem_ownOffers {ledger : Ledger} {sellerID : AccountID} {entry : OfferKey × OfferEntry} :
    entry ∈ ownOffers (listed ledger) sellerID ↔
      ledger.offers.lookup entry.1 = some entry.2 ∧ entry.1.sellerID = sellerID := by
  unfold ownOffers
  rw [List.mem_filter, mem_listed, decide_eq_true_eq]

theorem ownOffers_nodup (ledger : Ledger) (sellerID : AccountID) :
    ((ownOffers (listed ledger) sellerID).map Prod.fst).Nodup := by
  have keys : ((listed ledger).map Prod.fst).Nodup := by
    unfold listed
    rw [List.map_map]
    exact ledger.offers.nodupKeys
  exact keys.sublist (List.Sublist.map Prod.fst List.filter_sublist)

theorem total_ownOffers (f : OfferKey → OfferEntry → Int) (ledger : Ledger)
    (sellerID : AccountID) :
    total (fun key offer => if key.sellerID = sellerID then f key offer else 0) ledger.offers =
      ((ownOffers (listed ledger) sellerID).map fun entry => f entry.1 entry.2).sum := by
  unfold total ownOffers listed
  induction ledger.offers.entries with
  | nil => rfl
  | cons head tail ih =>
      rw [List.map_cons, List.sum_cons, ih, List.map_cons]
      dsimp only
      by_cases owned : head.1.sellerID = sellerID
      · rw [if_pos owned, List.filter_cons_of_pos (by simpa using owned), List.map_cons,
          List.sum_cons]
      · rw [if_neg owned, List.filter_cons_of_neg (by simpa using owned), zero_add]

theorem offered_eq_sumOf (side : Side) (ledger : Ledger) (accountID : AccountID) (asset : Asset) :
    offered side ledger accountID asset =
      sumOf side ledger.header asset ((ownOffers (listed ledger) accountID).map Prod.snd) := by
  have nested := total_ownOffers
    (fun _ offer => if side.asset offer = asset then side.amount ledger.header offer else 0) ledger
    accountID
  unfold offered sumOf
  rw [List.map_map]
  simp only [ite_and]
  exact nested

theorem offered_nonneg {ledger : Ledger} (version : 10 ≤ ledger.header.ledgerVersion)
    (sound : SoundLedger ledger) (side : Side) (accountID : AccountID) (asset : Asset) :
    0 ≤ offered side ledger accountID asset := by
  rw [offered_eq_sumOf]
  apply sumOf_nonneg side asset version
  intro offer member
  obtain ⟨entry, owned, rfl⟩ := List.mem_map.mp member
  exact sound.offers entry.1 entry.2 (mem_ownOffers.mp owned).1

theorem ownOffers_le_entries {ledger : Ledger} (sound : SoundLedger ledger)
    {accountID : AccountID} {account : AccountEntry}
    (found : ledger.accounts.lookup accountID = some account) :
    (ownOffers (listed ledger) accountID).length ≤ account.numSubEntries := by
  have counted := total_ownOffers (fun _ _ => 1) ledger accountID
  have length : ((ownOffers (listed ledger) accountID).map fun _ => (1 : Int)).sum =
      (ownOffers (listed ledger) accountID).length := by
    simp
  have covered := sound.entries accountID
  have lines := count_nonneg (fun key : TrustLineKey => key.accountID = accountID) ledger.trustLines
  have data := count_nonneg (fun key : DataKey => key.accountID = accountID) ledger.data
  unfold surplus ownedEntries at covered
  rw [found] at covered
  change 0 ≤ ((account.numSubEntries : Int) - account.signers.length) - _ at covered
  rw [length] at counted
  unfold one at covered lines data
  omega

/-! ### Measuring -/

structure Measures (ledger : Ledger) (accountID : AccountID) (account : AccountEntry)
    (measure : Measure) : Prop where
  balance : measure.balance = account.balance
  aboveReserve : measure.balanceAboveReserve =
    account.balance - getMinBalance ledger.header account.numSubEntries
  bought : Tallied accountID .buying ledger.header
    ((ownOffers (listed ledger) accountID).map Prod.snd) measure.initialBuyingLiabilities
  sold : Tallied accountID .selling ledger.header
    ((ownOffers (listed ledger) accountID).map Prod.snd) measure.initialSellingLiabilities

/-- What the cap functions return: the capacity, or no limit for the issuer. -/
def cap (side : Side) (ledger : Ledger) (accountID : AccountID) (asset : Asset) : Int :=
  if asset.issuer? = some accountID then INT64_MAX else capacity side ledger accountID asset

section Measuring

variable {ledger now : Ledger} {accountID : AccountID} {account : AccountEntry}

theorem loadTrustLine_eq {asset : Asset} (credit : asset ≠ .native) :
    loadTrustLine accountID asset now =
      .ok (if asset.issuer? = some accountID then some .issuer
        else (now.trustLines.lookup ⟨accountID, asset⟩).map .nonIssuer) now := by
  unfold loadTrustLine
  cases asset with
  | native => exact absurd rfl credit
  | alphaNum4 code issuer => by_cases own : issuer = accountID <;> simp [Asset.issuer?, own] <;> rfl
  | alphaNum12 code issuer => by_cases own : issuer = accountID <;> simp [Asset.issuer?, own] <;> rfl

theorem getAvailableBalance_eq (found : ledger.accounts.lookup accountID = some account)
    (lines : ∀ asset, now.trustLines.lookup ⟨accountID, asset⟩ =
      ledger.trustLines.lookup ⟨accountID, asset⟩) (asset : Asset) :
    getAvailableBalanceExcludingLiabilities accountID asset
        (account.balance - getMinBalance ledger.header account.numSubEntries) now =
      .ok (cap .selling ledger accountID asset) now := by
  by_cases native : asset = .native
  · subst native
    unfold getAvailableBalanceExcludingLiabilities cap capacity
    rw [found]
    rfl
  · unfold getAvailableBalanceExcludingLiabilities
    split
    · exact absurd rfl native
    rw [bind_of_ok (loadTrustLine_eq native), lines asset]
    unfold cap capacity
    rw [if_neg native]
    by_cases issued : asset.issuer? = some accountID
    · rw [if_pos issued, if_pos issued]
      rfl
    · rw [if_neg issued, if_neg issued]
      cases ledger.trustLines.lookup ⟨accountID, asset⟩ <;> rfl

theorem getAvailableLimit_eq (found : ledger.accounts.lookup accountID = some account)
    (lines : ∀ asset, now.trustLines.lookup ⟨accountID, asset⟩ =
      ledger.trustLines.lookup ⟨accountID, asset⟩) (asset : Asset) :
    getAvailableLimitExcludingLiabilities accountID asset account.balance now =
      .ok (cap .buying ledger accountID asset) now := by
  by_cases native : asset = .native
  · subst native
    unfold getAvailableLimitExcludingLiabilities cap capacity
    rw [found]
    rfl
  · unfold getAvailableLimitExcludingLiabilities
    split
    · exact absurd rfl native
    rw [bind_of_ok (loadTrustLine_eq native), lines asset]
    unfold cap capacity
    rw [if_neg native]
    by_cases issued : asset.issuer? = some accountID
    · rw [if_pos issued, if_pos issued]
      rfl
    · rw [if_neg issued, if_neg issued]
      cases ledger.trustLines.lookup ⟨accountID, asset⟩ <;> rfl

theorem capacity_le (sound : SoundLedger ledger)
    (found : ledger.accounts.lookup accountID = some account) (side : Side) (asset : Asset) :
    capacity side ledger accountID asset ≤ INT64_MAX := by
  have balance := sound.balances accountID account found
  have reserve : 0 ≤ getMinBalance ledger.header account.numSubEntries := by
    unfold getMinBalance
    split <;> positivity
  have limit : (0 : Int) ≤ INT64_MAX := by
    unfold INT64_MAX
    omega
  unfold capacity
  split
  · rw [found]
    cases side <;> dsimp only <;> omega
  · cases line : ledger.trustLines.lookup ⟨accountID, asset⟩ with
    | none => cases side <;> exact limit
    | some line' =>
        have bounds := sound.lines _ _ line
        cases side <;> dsimp only <;> split <;> omega

theorem shouldDeleteOffer_eq (sound : SoundLedger ledger) (found : ledger.accounts.lookup accountID = some account)
    {side : Side} {liabilities : InitialLiabilities}
    (tallied : Tallied accountID side ledger.header
      ((ownOffers (listed ledger) accountID).map Prod.snd) liabilities)
    {key : OfferKey} {offer : OfferEntry}
    (owned : (key, offer) ∈ ownOffers (listed ledger) accountID) {getCap : Apply Int}
    (capped : getCap now = .ok (cap side ledger accountID (side.asset offer)) now) :
    shouldDeleteOffer (side.asset offer) liabilities getCap now =
      .ok (decide (OverCommitted side ledger accountID (side.asset offer))) now := by
  have room := capacity_le sound found side (side.asset offer)
  have present : ∃ other ∈ (ownOffers (listed ledger) accountID).map Prod.snd,
      side.asset other = side.asset offer := ⟨offer, List.mem_map.mpr ⟨(key, offer), owned, rfl⟩, rfl⟩
  have known := tallied (side.asset offer)
  rw [if_pos present, ← offered_eq_sumOf] at known
  unfold shouldDeleteOffer
  rw [known]
  by_cases issued : (side.asset offer).issuer? = some accountID
  · have fine : ¬ OverCommitted side ledger accountID (side.asset offer) := fun exceeded => exceeded.1 issued
    have limit : ¬ (0 : Int) > INT64_MAX := by
      unfold INT64_MAX
      omega
    rw [if_pos issued]
    change (getCap >>= _) now = _
    rw [bind_of_ok capped]
    unfold cap
    rw [if_pos issued, decide_eq_false fine]
    change EStateM.Result.ok (decide (0 > INT64_MAX)) now = _
    rw [decide_eq_false limit]
  · rw [if_neg issued]
    by_cases fits : offered side ledger accountID (side.asset offer) ≤ INT64_MAX
    · have sum : fitting (offered side ledger accountID (side.asset offer)) = some _ := if_pos fits
      rw [sum]
      change (getCap >>= _) now = _
      rw [bind_of_ok capped]
      unfold cap
      rw [if_neg issued]
      have same : decide (OverCommitted side ledger accountID (side.asset offer)) =
          decide (offered side ledger accountID (side.asset offer) >
            capacity side ledger accountID (side.asset offer)) := by
        apply decide_eq_decide.mpr
        exact ⟨fun exceeded => exceeded.2, fun exceeded => ⟨issued, exceeded⟩⟩
      rw [same]
      rfl
    · have lost : fitting (offered side ledger accountID (side.asset offer)) = none := if_neg fits
      have exceeded : OverCommitted side ledger accountID (side.asset offer) := ⟨issued, by omega⟩
      rw [lost, decide_eq_true exceeded]
      rfl

theorem isOverCommitted_eq (sound : SoundLedger ledger) (found : ledger.accounts.lookup accountID = some account)
    {measure : Measure} (measures : Measures ledger accountID account measure)
    (lines : ∀ asset, now.trustLines.lookup ⟨accountID, asset⟩ =
      ledger.trustLines.lookup ⟨accountID, asset⟩) {key : OfferKey} {offer : OfferEntry}
    (owned : (key, offer) ∈ ownOffers (listed ledger) accountID) :
    isOverCommitted measure key offer now =
      .ok (decide (OverCommitted .selling ledger accountID offer.selling ∨
        OverCommitted .buying ledger accountID offer.buying)) now := by
  have seller : key.sellerID = accountID := (mem_ownOffers.mp owned).2
  have balance := getAvailableBalance_eq found lines offer.selling
  have limit := getAvailableLimit_eq found lines offer.buying
  have sold := shouldDeleteOffer_eq sound found measures.sold owned balance
  have bought := shouldDeleteOffer_eq sound found measures.bought owned limit
  unfold isOverCommitted
  rw [seller, measures.aboveReserve, measures.balance]
  change shouldDeleteOffer offer.selling _ _ now = .ok (decide
    (OverCommitted .selling ledger accountID offer.selling)) now at sold
  change shouldDeleteOffer offer.buying _ _ now = .ok (decide
    (OverCommitted .buying ledger accountID offer.buying)) now at bought
  rw [bind_of_ok sold]
  by_cases exceeded : OverCommitted .selling ledger accountID offer.selling
  · rw [decide_eq_true exceeded, if_pos rfl, decide_eq_true (Or.inl exceeded)]
    rfl
  · rw [decide_eq_false exceeded, if_neg Bool.false_ne_true, bought]
    simp only [exceeded, false_or]

theorem survives_iff {key : OfferKey} {offer : OfferEntry} (soundOffer : SoundOffer offer) :
    Survives ledger key offer ↔
      ¬ (OverCommitted .selling ledger key.sellerID offer.selling ∨
        OverCommitted .buying ledger key.sellerID offer.buying) ∧
      adjusted offer.price offer.amount ≠ 0 := by
  have amount := adjustOfferAmount_eq soundOffer.price soundOffer.nonneg soundOffer.fits
  constructor
  · intro survives
    constructor
    · intro either
      exact either.elim survives.sold survives.bought
    · intro zero
      rw [zero] at amount
      exact survives.kept amount
  · intro ⟨within, nonzero⟩
    constructor
    · exact fun exceeded => within (Or.inl exceeded)
    · exact fun exceeded => within (Or.inr exceeded)
    · intro zero
      rw [amount] at zero
      exact nonzero (Except.ok.inj zero)

/-! ### Updating the offers -/

section Update

variable {measure : Measure} {liabilities : Map Asset Liabilities} {key : OfferKey}
  {offer : OfferEntry}

theorem erase_ok {κ ν : Type} [DecidableEq κ] {table : Table κ ν} {key : κ} {entry : ν}
    (present : (table.read now).lookup key = some entry) :
    table.erase key now = .ok () (table.write ((table.read now).erase key) now) := by
  have loaded : table.load key now = .ok (some entry) now := by
    rw [← present]
    rfl
  unfold Table.erase
  rw [bind_of_ok loaded]
  rfl

theorem updateOffer_erases (liabilities : Map Asset Liabilities) (sound : SoundLedger ledger)
    (found : ledger.accounts.lookup accountID = some account)
    (measures : Measures ledger accountID account measure)
    (lines : ∀ asset, now.trustLines.lookup ⟨accountID, asset⟩ =
      ledger.trustLines.lookup ⟨accountID, asset⟩)
    (owned : (key, offer) ∈ ownOffers (listed ledger) accountID)
    (present : now.offers.lookup key = some offer) (goes : ¬ Survives ledger key offer) :
    ∃ result, (result = .AdjustedToZero ∨ result = .Erased) ∧
      updateOffer measure key liabilities now =
        .ok (result, liabilities) { now with offers := now.offers.erase key } := by
  have entry := mem_ownOffers.mp owned
  have soundOffer := sound.offers key offer entry.1
  have amount := adjustOfferAmount_eq soundOffer.price soundOffer.nonneg soundOffer.fits
  have exceeded := isOverCommitted_eq sound found measures lines owned
  have seller : key.sellerID = accountID := entry.2
  rw [survives_iff soundOffer, seller] at goes
  have erased : offerTable.erase key now = .ok () { now with offers := now.offers.erase key } :=
    erase_ok present
  have header : loadHeader now = .ok now.header now := rfl
  have current : offerTable.current key now = .ok offer now := current_ok present
  unfold updateOffer
  rw [bind_of_ok header, bind_of_ok current, bind_of_ok exceeded]
  by_cases excess : OverCommitted .selling ledger accountID offer.selling ∨
      OverCommitted .buying ledger accountID offer.buying
  · refine ⟨.Erased, Or.inr rfl, ?_⟩
    rw [decide_eq_true excess, if_pos rfl, bind_of_ok erased]
    rfl
  · have zero : adjusted offer.price offer.amount = 0 := by
      by_contra nonzero
      exact goes ⟨excess, nonzero⟩
    have computedZero : computed (adjustOfferAmount offer.price offer.amount INT64_MAX) now =
        .ok 0 now := by
      rw [amount, zero]
      rfl
    refine ⟨.AdjustedToZero, Or.inl rfl, ?_⟩
    rw [decide_eq_false excess, if_neg Bool.false_ne_true, bind_of_ok computedZero, if_pos rfl,
      bind_of_ok erased]
    rfl

theorem updateOffer_keeps (sound : SoundLedger ledger)
    (found : ledger.accounts.lookup accountID = some account)
    (measures : Measures ledger accountID account measure)
    (lines : ∀ asset, now.trustLines.lookup ⟨accountID, asset⟩ =
      ledger.trustLines.lookup ⟨accountID, asset⟩)
    (owned : (key, offer) ∈ ownOffers (listed ledger) accountID)
    (present : now.offers.lookup key = some offer) (stays : Survives ledger key offer)
    {updated : Map Asset Liabilities}
    (kept : keepOffer now.header accountID (adjustedOffer offer) liabilities = .ok updated) :
    ∃ result, ¬ (result = .AdjustedToZero ∨ result = .Erased) ∧
      updateOffer measure key liabilities now =
        .ok (result, updated)
          { now with offers := now.offers.insert key (adjustedOffer offer) } := by
  have entry := mem_ownOffers.mp owned
  have soundOffer := sound.offers key offer entry.1
  have amount := adjustOfferAmount_eq soundOffer.price soundOffer.nonneg soundOffer.fits
  have exceeded := isOverCommitted_eq sound found measures lines owned
  have seller : key.sellerID = accountID := entry.2
  rw [survives_iff soundOffer, seller] at stays
  have header : loadHeader now = .ok now.header now := rfl
  have current : offerTable.current key now = .ok offer now := current_ok present
  have computedAmount : computed (adjustOfferAmount offer.price offer.amount INT64_MAX) now =
      .ok (adjusted offer.price offer.amount) now := by
    rw [amount]
    rfl
  have stored : offerTable.store key (adjustedOffer offer) now =
      .ok () { now with offers := now.offers.insert key (adjustedOffer offer) } := rfl
  have counted : computed (keepOffer now.header key.sellerID (adjustedOffer offer) liabilities)
      { now with offers := now.offers.insert key (adjustedOffer offer) } =
      .ok updated { now with offers := now.offers.insert key (adjustedOffer offer) } := by
    rw [seller, kept]
    rfl
  have ran : updateOffer measure key liabilities now =
      .ok (if adjusted offer.price offer.amount ≠ offer.amount then .Adjusted else .Unchanged,
          updated)
        { now with offers := now.offers.insert key (adjustedOffer offer) } := by
    unfold updateOffer
    rw [bind_of_ok header, bind_of_ok current, bind_of_ok exceeded, decide_eq_false stays.1,
      if_neg Bool.false_ne_true, bind_of_ok computedAmount, if_neg stays.2]
    change (offerTable.store key (adjustedOffer offer) >>= _) now = _
    rw [bind_of_ok stored]
    change (computed (keepOffer now.header key.sellerID (adjustedOffer offer) liabilities) >>= _) _ = _
    rw [bind_of_ok counted]
    rfl
  refine ⟨_, ?_, ran⟩
  split <;> simp

theorem addNumEntriesOf_drop (now : Ledger) (version : 10 ≤ now.header.ledgerVersion)
    (found : now.accounts.lookup accountID = some account) (some' : 1 ≤ account.numSubEntries)
    (fits : (account.numSubEntries : Int) ≤ INT32_MAX) :
    ∃ result, addNumEntriesOf accountID (-1) now = .ok result
      { now with
        accounts := now.accounts.insert accountID
          { account with numSubEntries := account.numSubEntries - 1 } } := by
  have current : accountTable.current accountID now = .ok account now := current_ok found
  have late : ¬ now.header.ledgerVersion < 10 := by omega
  have signed : unsignedToSigned account.numSubEntries = .ok (account.numSubEntries : Int) :=
    if_neg (by omega)
  have counted : addNumEntries now.header account (-1) =
      .ok (.SUCCESS, { account with numSubEntries := account.numSubEntries - 1 }) := by
    have reserved : getReservedBalance now.header account.ext =
        .ok (recorded account.ext).selling := by
      unfold getReservedBalance getSellingLiabilities getLiabilities
      rw [if_pos version, if_neg late]
      rfl
    have count : ((account.numSubEntries : Int) + -1).toNat = account.numSubEntries - 1 := by omega
    unfold addNumEntries
    apply except_bind_ok.mpr ⟨_, signed, ?_⟩
    rw [if_neg (by omega), if_neg (by omega), if_neg (by omega)]
    apply except_bind_ok.mpr ⟨_, reserved, ?_⟩
    dsimp only
    rw [if_neg (by omega), count]
    rfl
  have header : loadHeader now = .ok now.header now := rfl
  unfold addNumEntriesOf
  rw [bind_of_ok header, bind_of_ok current, counted]
  exact ⟨.SUCCESS, rfl⟩

end Update

/-! ### All offers of an account -/

def remaining (ledger : Ledger) (entry : OfferKey × OfferEntry) : Option OfferEntry :=
  if Survives ledger entry.1 entry.2 then some (adjustedOffer entry.2) else none

def dropped (ledger : Ledger) (entries : List (OfferKey × OfferEntry)) : Nat :=
  entries.countP fun entry => ¬ Survives ledger entry.1 entry.2

structure Visited (ledger : Ledger) (accountID : AccountID)
    (entries : List (OfferKey × OfferEntry)) (before after : Ledger) : Prop where
  header : after.header = before.header
  trustLines : after.trustLines = before.trustLines
  accounts : ∀ other, other ≠ accountID → after.accounts.lookup other = before.accounts.lookup other
  account : ∀ account, before.accounts.lookup accountID = some account →
    after.accounts.lookup accountID = some
      { account with numSubEntries := account.numSubEntries - dropped ledger entries }
  visited : ∀ entry ∈ entries, after.offers.lookup entry.1 = remaining ledger entry
  others : ∀ key, key ∉ entries.map Prod.fst → after.offers.lookup key = before.offers.lookup key
  amounts : ∀ side other asset, offered side after other asset =
    offered side before other asset -
      if other = accountID then
        sumOf side before.header asset (entries.map Prod.snd) -
          sumOf side before.header asset (entries.filterMap (remaining ledger))
      else 0

theorem Visited.nil (ledger : Ledger) (accountID : AccountID) (now : Ledger) :
    Visited ledger accountID [] now now where
  header := rfl
  trustLines := rfl
  accounts := fun _ _ => rfl
  account := fun _ found => found
  visited := fun _ member => by cases member
  others := fun _ _ => rfl
  amounts := by
    intro side other asset
    simp [sumOf]

theorem offered_erase {key : OfferKey} {offer : OfferEntry}
    (present : now.offers.lookup key = some offer) (side : Side) (other : AccountID)
    (asset : Asset) :
    offered side { now with offers := now.offers.erase key } other asset =
      offered side now other asset -
        if key.sellerID = other ∧ side.asset offer = asset then side.amount now.header offer else 0 := by
  unfold offered
  rw [total_erase, share_of_lookup present]

theorem offered_insert {key : OfferKey} {offer : OfferEntry}
    (present : now.offers.lookup key = some offer) (side : Side) (other : AccountID)
    (asset : Asset) (updated : OfferEntry) :
    offered side { now with offers := now.offers.insert key updated } other asset =
      offered side now other asset -
          (if key.sellerID = other ∧ side.asset offer = asset then side.amount now.header offer else 0) +
        if key.sellerID = other ∧ side.asset updated = asset then side.amount now.header updated
          else 0 := by
  unfold offered
  rw [total_insert, share_of_lookup present]

theorem Visited.erase {key : OfferKey} {offer : OfferEntry}
    {rest : List (OfferKey × OfferEntry)} {after : Ledger}
    (seller : key.sellerID = accountID) (fresh : key ∉ rest.map Prod.fst)
    (present : now.offers.lookup key = some offer) (goes : ¬ Survives ledger key offer)
    (found : now.accounts.lookup accountID = some account)
    (visited : Visited ledger accountID rest
      { now with
        offers := now.offers.erase key
        accounts := now.accounts.insert accountID
          { account with numSubEntries := account.numSubEntries - 1 } } after) :
    Visited ledger accountID ((key, offer) :: rest) now after where
  header := visited.header
  trustLines := visited.trustLines
  accounts := by
    intro other different
    rw [visited.accounts other different]
    exact AList.lookup_insert_ne different
  account := by
    intro account' found'
    have same : account' = account := Option.some.inj (found'.symm.trans found)
    rw [visited.account _ (AList.lookup_insert _), same]
    have count : dropped ledger ((key, offer) :: rest) = dropped ledger rest + 1 := by
      unfold dropped
      rw [List.countP_cons_of_pos (by simpa using goes)]
    have fewer : account.numSubEntries - 1 - dropped ledger rest =
        account.numSubEntries - (dropped ledger rest + 1) := by omega
    rw [count, ← fewer]
  visited := by
    intro entry member
    rcases List.mem_cons.mp member with first | later
    · subst first
      rw [visited.others key fresh]
      unfold remaining
      rw [if_neg goes]
      exact AList.lookup_erase _ _
    · exact visited.visited entry later
  others := by
    intro other absent
    rw [List.map_cons, List.mem_cons, not_or] at absent
    rw [visited.others other absent.2]
    exact AList.lookup_erase_ne absent.1
  amounts := by
    intro side other asset
    rw [visited.amounts side other asset]
    change offered side { now with offers := now.offers.erase key } other asset - _ = _
    rw [offered_erase present, seller]
    have gone : remaining ledger (key, offer) = none := if_neg goes
    rw [List.map_cons, sumOf_cons, List.filterMap_cons, gone]
    by_cases own : other = accountID
    · subst own
      simp only [true_and, if_true]
      change _ - _ - (sumOf side now.header asset _ - sumOf side now.header asset _) = _
      omega
    · have foreign : ¬ accountID = other := fun same => own same.symm
      simp only [foreign, own, false_and, if_false]
      omega

theorem Visited.keep {key : OfferKey} {offer : OfferEntry}
    {rest : List (OfferKey × OfferEntry)} {after : Ledger}
    (seller : key.sellerID = accountID) (fresh : key ∉ rest.map Prod.fst)
    (present : now.offers.lookup key = some offer) (stays : Survives ledger key offer)
    (visited : Visited ledger accountID rest
      { now with offers := now.offers.insert key (adjustedOffer offer) } after) :
    Visited ledger accountID ((key, offer) :: rest) now after where
  header := visited.header
  trustLines := visited.trustLines
  accounts := visited.accounts
  account := by
    intro account' found'
    have count : dropped ledger ((key, offer) :: rest) = dropped ledger rest := by
      unfold dropped
      rw [List.countP_cons_of_neg (by simpa using stays)]
    rw [visited.account account' found', count]
  visited := by
    intro entry member
    rcases List.mem_cons.mp member with first | later
    · subst first
      rw [visited.others key fresh]
      unfold remaining
      rw [if_pos stays]
      exact AList.lookup_insert _
    · exact visited.visited entry later
  others := by
    intro other absent
    rw [List.map_cons, List.mem_cons, not_or] at absent
    rw [visited.others other absent.2]
    exact AList.lookup_insert_ne absent.1
  amounts := by
    intro side other asset
    rw [visited.amounts side other asset, offered_insert present, seller]
    have kept : remaining ledger (key, offer) = some (adjustedOffer offer) := if_pos stays
    have sameAsset : side.asset (adjustedOffer offer) = side.asset offer := by
      cases side <;> rfl
    rw [List.map_cons, sumOf_cons, List.filterMap_cons, kept]
    dsimp only
    rw [sumOf_cons, sameAsset]
    by_cases own : other = accountID
    · subst own
      simp only [true_and, if_true]
      omega
    · have foreign : ¬ accountID = other := fun same => own same.symm
      simp only [foreign, own, false_and, if_false]
      omega

/-- Where the loop over the offers of an account stands: the offers still to come, those kept so
far, and their sums. -/
structure Visiting (ledger : Ledger) (accountID : AccountID) (account : AccountEntry)
    (entries : List (OfferKey × OfferEntry)) (kept : List OfferEntry)
    (liabilities : Map Asset Liabilities) (now : Ledger) : Prop where
  header : now.header = ledger.header
  trustLines : ∀ asset, now.trustLines.lookup ⟨accountID, asset⟩ =
    ledger.trustLines.lookup ⟨accountID, asset⟩
  found : now.accounts.lookup accountID = some account
  owned : ∀ entry ∈ entries, entry ∈ ownOffers (listed ledger) accountID
  present : ∀ entry ∈ entries, now.offers.lookup entry.1 = some entry.2
  distinct : (entries.map Prod.fst).Nodup
  enough : entries.length ≤ account.numSubEntries
  entriesFit : (account.numSubEntries : Int) ≤ INT32_MAX
  sound : ∀ offer ∈ kept, SoundOffer offer
  summed : Summed accountID ledger.header (fun _ => kept) liabilities
  room : ∀ side asset, asset.issuer? ≠ some accountID → ¬ OverCommitted side ledger accountID asset →
    sumOf side ledger.header asset kept +
      sumOf side ledger.header asset (entries.map Prod.snd) ≤ INT64_MAX

section Visiting

variable {key : OfferKey} {offer : OfferEntry} {rest : List (OfferKey × OfferEntry)}
  {kept : List OfferEntry} {liabilities : Map Asset Liabilities}

theorem Visiting.erase (version : 10 ≤ ledger.header.ledgerVersion) (sound : SoundLedger ledger)
    (visiting : Visiting ledger accountID account ((key, offer) :: rest) kept liabilities now) :
    Visiting ledger accountID { account with numSubEntries := account.numSubEntries - 1 } rest kept
      liabilities
      { now with
        offers := now.offers.erase key
        accounts := now.accounts.insert accountID
          { account with numSubEntries := account.numSubEntries - 1 } } where
  header := visiting.header
  trustLines := visiting.trustLines
  found := AList.lookup_insert _
  owned := fun entry member => visiting.owned entry (List.mem_cons_of_mem _ member)
  present := by
    intro entry member
    have fresh := (List.nodup_cons.mp visiting.distinct).1
    have other : entry.1 ≠ key := by
      intro same
      rw [← same] at fresh
      exact fresh (List.mem_map.mpr ⟨entry, member, rfl⟩)
    dsimp only
    rw [AList.lookup_erase_ne other]
    exact visiting.present entry (List.mem_cons_of_mem _ member)
  distinct := (List.nodup_cons.mp visiting.distinct).2
  enough := by
    have enough := visiting.enough
    rw [List.length_cons] at enough
    dsimp only
    omega
  entriesFit := by
    have fit := visiting.entriesFit
    dsimp only
    omega
  sound := visiting.sound
  summed := visiting.summed
  room := by
    intro side asset foreign within
    have room := visiting.room side asset foreign within
    have entry := mem_ownOffers.mp (visiting.owned (key, offer) List.mem_cons_self)
    have nonneg := amount_nonneg side version (sound.offers key offer entry.1)
    rw [List.map_cons, sumOf_cons] at room
    dsimp only at room
    split at room <;> omega

theorem Visiting.keep (version : 10 ≤ ledger.header.ledgerVersion) (sound : SoundLedger ledger)
    (visiting : Visiting ledger accountID account ((key, offer) :: rest) kept liabilities now)
    (stays : Survives ledger key offer) {updated : Map Asset Liabilities}
    (summed : Summed accountID ledger.header (fun _ => kept ++ [adjustedOffer offer]) updated) :
    Visiting ledger accountID account rest (kept ++ [adjustedOffer offer]) updated
      { now with offers := now.offers.insert key (adjustedOffer offer) } where
  header := visiting.header
  trustLines := visiting.trustLines
  found := visiting.found
  owned := fun entry member => visiting.owned entry (List.mem_cons_of_mem _ member)
  present := by
    intro entry member
    have fresh := (List.nodup_cons.mp visiting.distinct).1
    have other : entry.1 ≠ key := by
      intro same
      rw [← same] at fresh
      exact fresh (List.mem_map.mpr ⟨entry, member, rfl⟩)
    dsimp only
    rw [AList.lookup_insert_ne other]
    exact visiting.present entry (List.mem_cons_of_mem _ member)
  distinct := (List.nodup_cons.mp visiting.distinct).2
  enough := (Nat.le_succ _).trans visiting.enough
  entriesFit := visiting.entriesFit
  sound := by
    intro other member
    have entry := mem_ownOffers.mp (visiting.owned (key, offer) List.mem_cons_self)
    rcases List.mem_append.mp member with earlier | last
    · exact visiting.sound other earlier
    · rw [List.mem_singleton.mp last]
      exact (sound.offers key offer entry.1).adjust
  summed := summed
  room := by
    intro side asset foreign within
    have room := visiting.room side asset foreign within
    have entry := mem_ownOffers.mp (visiting.owned (key, offer) List.mem_cons_self)
    have soundOffer := sound.offers key offer entry.1
    have same := amount_adjusted side version soundOffer ((survives_iff soundOffer).mp stays).2
    have sameAsset : side.asset (adjustedOffer offer) = side.asset offer := by
      cases side <;> rfl
    rw [List.map_cons, sumOf_cons] at room
    dsimp only at room
    rw [sumOf_concat, sameAsset, same.1]
    omega

end Visiting

theorem updateOffers_visits (version : 10 ≤ ledger.header.ledgerVersion)
    (sound : SoundLedger ledger) {recordedAccount : AccountEntry}
    (found : ledger.accounts.lookup accountID = some recordedAccount) {measure : Measure}
    (measures : Measures ledger accountID recordedAccount measure)
    (entries : List (OfferKey × OfferEntry)) (kept : List OfferEntry)
    (liabilities : Map Asset Liabilities) (now : Ledger) (account : AccountEntry)
    (visiting : Visiting ledger accountID account entries kept liabilities now) :
    ∃ updated after, updateOffers measure (entries.map Prod.fst) liabilities now =
        .ok updated after ∧
      Summed accountID ledger.header (fun _ => kept ++ entries.filterMap (remaining ledger))
        updated ∧
      Visited ledger accountID entries now after := by
  induction entries generalizing kept liabilities now account with
  | nil =>
      refine ⟨liabilities, now, rfl, ?_, Visited.nil ledger accountID now⟩
      rw [List.filterMap_nil, List.append_nil]
      exact visiting.summed
  | cons entry rest ih =>
      obtain ⟨key, offer⟩ := entry
      have owned := visiting.owned (key, offer) List.mem_cons_self
      have seller := (mem_ownOffers.mp owned).2
      have soundOffer := sound.offers key offer (mem_ownOffers.mp owned).1
      have present := visiting.present (key, offer) List.mem_cons_self
      have fresh := (List.nodup_cons.mp visiting.distinct).1
      have versionNow : 10 ≤ now.header.ledgerVersion := by
        rw [visiting.header]
        exact version
      rw [List.map_cons]
      unfold updateOffers
      by_cases stays : Survives ledger key offer
      · have nonzero := ((survives_iff soundOffer).mp stays).2
        have fits : ∀ side : Side, (side.asset (adjustedOffer offer)).issuer? ≠ some accountID →
            sumOf side ledger.header (side.asset (adjustedOffer offer)) kept +
              side.amount ledger.header (adjustedOffer offer) ≤ INT64_MAX := by
          intro side foreign
          have within : ¬ OverCommitted side ledger accountID (side.asset offer) := by
            change key.sellerID = accountID at seller
            rw [← seller]
            cases side with
            | buying => exact stays.bought
            | selling => exact stays.sold
          have sameAsset : side.asset (adjustedOffer offer) = side.asset offer := by
            cases side <;> rfl
          rw [sameAsset] at foreign ⊢
          have room := visiting.room side _ foreign within
          have same := amount_adjusted side version soundOffer nonzero
          have restSound : ∀ other ∈ rest.map Prod.snd, SoundOffer other := by
            intro other member
            obtain ⟨entry, listed', rfl⟩ := List.mem_map.mp member
            have entryOwned := visiting.owned entry (List.mem_cons_of_mem _ listed')
            exact sound.offers entry.1 entry.2 (mem_ownOffers.mp entryOwned).1
          have nonneg := sumOf_nonneg side (side.asset offer) version restSound
          rw [List.map_cons, sumOf_cons, if_pos rfl] at room
          dsimp only at room
          rw [same.1]
          omega
        obtain ⟨updated, keptOk, summed⟩ := keepOffer_summed version visiting.sound visiting.summed
          soundOffer.adjust fits
        rw [← visiting.header] at keptOk
        obtain ⟨result, notGone, ran⟩ := updateOffer_keeps sound found measures visiting.trustLines
          owned present stays keptOk
        obtain ⟨final, after, looped, finalSummed, visited⟩ :=
          ih _ _ _ _ (visiting.keep version sound stays summed)
        refine ⟨final, after, ?_, ?_, visited.keep seller fresh present stays⟩
        · rw [bind_of_ok ran]
          dsimp only
          rw [if_neg notGone]
          exact looped
        · have kept' : remaining ledger (key, offer) = some (adjustedOffer offer) := if_pos stays
          rw [List.filterMap_cons, kept']
          rw [List.append_assoc] at finalSummed
          exact finalSummed
      · obtain ⟨result, gone, ran⟩ := updateOffer_erases liabilities sound found measures
          visiting.trustLines owned present stays
        have one' : 1 ≤ account.numSubEntries := le_trans (by simp) visiting.enough
        obtain ⟨outcome, droppedOk⟩ := addNumEntriesOf_drop
          { now with offers := now.offers.erase key } versionNow visiting.found one'
          visiting.entriesFit
        obtain ⟨final, after, looped, finalSummed, visited⟩ :=
          ih _ _ _ _ (visiting.erase version sound)
        refine ⟨final, after, ?_, ?_, visited.erase seller fresh present stays visiting.found⟩
        · rw [bind_of_ok ran]
          dsimp only
          rw [if_pos gone]
          change key.sellerID = accountID at seller
          rw [seller, bind_of_ok droppedOk]
          exact looped
        · have gone' : remaining ledger (key, offer) = none := if_neg stays
          rw [List.filterMap_cons, gone']
          exact finalSummed

end Measuring

end ViiCore.Herder
