import ViiCore.Herder.PrepareLiabilities

/-!
The ledger after an upgrade that prepares liabilities.

Each account with offers is prepared on its own: its offers, its recorded liabilities and its
count of sub-entries follow from what the ledger held when the upgrade began, and no other account
is touched. Preparing an account gets stuck exactly when the account ends below its reserve, still
has selling liabilities recorded in the native asset, and one of its surviving offers mentions the
native asset.
-/

namespace ViiCore.Herder

open ViiCore.Ledger ViiCore.FiniteMap ViiCore.Execution ViiCore.Transactions

def Mentioned (ledger : Ledger) (accountID : AccountID) (asset : Asset) : Prop :=
  ∃ key offer, ledger.offers.lookup key = some offer ∧ key.sellerID = accountID ∧
    Survives ledger key offer ∧ (offer.buying = asset ∨ offer.selling = asset)

def keptOffers (ledger : Ledger) (accountID : AccountID) : List OfferEntry :=
  (ownOffers (listed ledger) accountID).filterMap (remaining ledger)

def lostOffers (ledger : Ledger) (accountID : AccountID) : Nat :=
  dropped ledger (ownOffers (listed ledger) accountID)

/-- The account ends below its reserve and would have to change its selling liabilities. -/
structure Stuck (ledger : Ledger) (accountID : AccountID) (account : AccountEntry) : Prop where
  below : account.balance <
    getMinBalance ledger.header (account.numSubEntries - lostOffers ledger accountID)
  sold : (recorded account.ext).selling ≠ 0
  mentioned : Mentioned ledger accountID .native

section Kept

variable {ledger : Ledger} {accountID : AccountID} {account : AccountEntry} {asset : Asset}

theorem mem_keptOffers {offer : OfferEntry} :
    offer ∈ keptOffers ledger accountID ↔
      ∃ key original, ledger.offers.lookup key = some original ∧ key.sellerID = accountID ∧
        Survives ledger key original ∧ offer = adjustedOffer original := by
  unfold keptOffers
  rw [List.mem_filterMap]
  constructor
  · intro ⟨entry, owned, left⟩
    unfold remaining at left
    split at left
    · rename_i survives
      have facts := mem_ownOffers.mp owned
      exact ⟨entry.1, entry.2, facts.1, facts.2, survives, (Option.some.inj left).symm⟩
    · cases left
  · intro ⟨key, original, found, seller, survives, same⟩
    refine ⟨(key, original), mem_ownOffers.mpr ⟨found, seller⟩, ?_⟩
    rw [same]
    exact if_pos survives

theorem asset_adjusted (side : Side) (offer : OfferEntry) :
    side.asset (adjustedOffer offer) = side.asset offer := by
  cases side <;> rfl

theorem counted_iff :
    Counted accountID (fun _ => keptOffers ledger accountID) asset ↔
      asset.issuer? ≠ some accountID ∧ Mentioned ledger accountID asset := by
  constructor
  · intro ⟨foreign, side, offer, member, same⟩
    obtain ⟨key, original, found, seller, survives, rfl⟩ := mem_keptOffers.mp member
    rw [asset_adjusted] at same
    refine ⟨foreign, key, original, found, seller, survives, ?_⟩
    cases side with
    | buying => exact Or.inl same
    | selling => exact Or.inr same
  · intro ⟨foreign, key, original, found, seller, survives, mention⟩
    have member := mem_keptOffers.mpr ⟨key, original, found, seller, survives, rfl⟩
    rcases mention with bought | sold
    · exact ⟨foreign, .buying, adjustedOffer original, member, bought⟩
    · exact ⟨foreign, .selling, adjustedOffer original, member, sold⟩

theorem keptOffers_sound (accountID : AccountID) (sound : SoundLedger ledger) :
    ∀ offer ∈ keptOffers ledger accountID, SoundOffer offer := by
  intro offer member
  obtain ⟨key, original, found, _, _, rfl⟩ := mem_keptOffers.mp member
  exact (sound.offers key original found).adjust

theorem sumOf_remaining_le (version : 10 ≤ ledger.header.ledgerVersion) (side : Side)
    (asset : Asset) (entries : List (OfferKey × OfferEntry)) (sound : ∀ entry ∈ entries, SoundOffer entry.2) :
    sumOf side ledger.header asset (entries.filterMap (remaining ledger)) ≤
      sumOf side ledger.header asset (entries.map Prod.snd) := by
  induction entries with
  | nil => exact le_rfl
  | cons entry rest ih =>
      have soundEntry := sound entry List.mem_cons_self
      have nonneg := amount_nonneg side version soundEntry
      have later := ih fun other member => sound other (List.mem_cons_of_mem _ member)
      rw [List.filterMap_cons, List.map_cons, sumOf_cons]
      by_cases survives : Survives ledger entry.1 entry.2
      · have kept : remaining ledger entry = some (adjustedOffer entry.2) := if_pos survives
        have same := amount_adjusted side version soundEntry ((survives_iff soundEntry).mp survives).2
        rw [kept]
        dsimp only
        rw [sumOf_cons, asset_adjusted, same.1]
        omega
      · have gone : remaining ledger entry = none := if_neg survives
        rw [gone]
        dsimp only
        split <;> omega

theorem kept_le_capacity (version : 10 ≤ ledger.header.ledgerVersion) (sound : SoundLedger ledger)
    (side : Side) (foreign : asset.issuer? ≠ some accountID) :
    sumOf side ledger.header asset (keptOffers ledger accountID) = 0 ∨
      sumOf side ledger.header asset (keptOffers ledger accountID) ≤
        capacity side ledger accountID asset := by
  by_cases present : ∃ offer ∈ keptOffers ledger accountID, side.asset offer = asset
  · obtain ⟨offer, member, same⟩ := present
    obtain ⟨key, original, found, seller, survives, rfl⟩ := mem_keptOffers.mp member
    rw [asset_adjusted] at same
    have within : ¬ OverCommitted side ledger accountID asset := by
      rw [← seller, ← same]
      cases side with
      | buying => exact survives.bought
      | selling => exact survives.sold
    have fits : offered side ledger accountID asset ≤ capacity side ledger accountID asset := by
      by_contra exceeded
      exact within ⟨foreign, not_le.mp exceeded⟩
    have fewer := sumOf_remaining_le version side asset (ownOffers (listed ledger) accountID)
      fun entry owned => sound.offers entry.1 entry.2 (mem_ownOffers.mp owned).1
    rw [← offered_eq_sumOf] at fewer
    exact Or.inr (fewer.trans fits)
  · apply Or.inl
    apply sumOf_absent
    intro offer member same
    exact present ⟨offer, member, same⟩

theorem capacity_pos (version : 10 ≤ ledger.header.ledgerVersion) (sound : SoundLedger ledger)
    (side : Side) (foreign : asset.issuer? ≠ some accountID) {key : OfferKey} {offer : OfferEntry}
    (found : ledger.offers.lookup key = some offer) (seller : key.sellerID = accountID)
    (survives : Survives ledger key offer) (same : side.asset offer = asset) :
    0 < capacity side ledger accountID asset := by
  have soundOffer := sound.offers key offer found
  have positive := (amount_adjusted side version soundOffer ((survives_iff soundOffer).mp survives).2).2
  have within : ¬ OverCommitted side ledger accountID asset := by
    rw [← seller, ← same]
    cases side with
    | buying => exact survives.bought
    | selling => exact survives.sold
  have part : side.amount ledger.header offer ≤ offered side ledger accountID asset := by
    have share := share_le_total (fun key offer => if key.sellerID = accountID ∧
      side.asset offer = asset then side.amount ledger.header offer else 0) ledger.offers key (by
        intro other value present
        split
        · exact amount_nonneg side version (sound.offers other value present)
        · exact le_rfl)
    rw [share_of_lookup found, if_pos ⟨seller, same⟩] at share
    exact share
  by_contra empty
  exact within ⟨foreign, by omega⟩

theorem getMinBalance_mono {header : LedgerHeader} (version : 10 ≤ header.ledgerVersion)
    {fewer more : Nat} (le : fewer ≤ more) (fits : (more : Int) ≤ INT32_MAX) :
    getMinBalance header fewer ≤ getMinBalance header more := by
  have late : ¬ header.ledgerVersion ≤ 8 := by omega
  unfold INT32_MAX at fits
  have fewerFits : (2 + fewer) % 2 ^ 32 = 2 + fewer := Nat.mod_eq_of_lt (by omega)
  have moreFits : (2 + more) % 2 ^ 32 = 2 + more := Nat.mod_eq_of_lt (by omega)
  unfold getMinBalance
  rw [if_neg late, if_neg late, fewerFits, moreFits]
  apply mul_le_mul_of_nonneg_right
  · omega
  · omega

end Kept

/-! ### Preparing one account -/

structure SameFor (accountID : AccountID) (before after : Ledger) : Prop where
  account : after.accounts.lookup accountID = before.accounts.lookup accountID
  lines : ∀ asset, after.trustLines.lookup ⟨accountID, asset⟩ =
    before.trustLines.lookup ⟨accountID, asset⟩
  offers : ∀ key : OfferKey, key.sellerID = accountID →
    after.offers.lookup key = before.offers.lookup key
  amounts : ∀ side asset, offered side after accountID asset = offered side before accountID asset

theorem SameFor.refl (accountID : AccountID) (ledger : Ledger) : SameFor accountID ledger ledger :=
  ⟨rfl, fun _ => rfl, fun _ _ => rfl, fun _ _ => rfl⟩

theorem SameFor.trans {accountID : AccountID} {first second third : Ledger}
    (early : SameFor accountID first second) (late : SameFor accountID second third) :
    SameFor accountID first third where
  account := late.account.trans early.account
  lines := fun asset => (late.lines asset).trans (early.lines asset)
  offers := fun key seller => (late.offers key seller).trans (early.offers key seller)
  amounts := fun side asset => (late.amounts side asset).trans (early.amounts side asset)

theorem SameFor.recordedIn {accountID : AccountID} {before after : Ledger}
    (same : SameFor accountID before after) (asset : Asset) :
    recordedIn after accountID asset = recordedIn before accountID asset := by
  unfold Herder.recordedIn
  rw [same.account, same.lines]

structure Settled (ledger : Ledger) (accountID : AccountID) (after : Ledger) : Prop where
  account : ∀ account, ledger.accounts.lookup accountID = some account →
    ∃ ext, after.accounts.lookup accountID = some
      { account with numSubEntries := account.numSubEntries - lostOffers ledger accountID, ext }
  lines : ∀ asset, (after.trustLines.lookup ⟨accountID, asset⟩).map bareLine =
    (ledger.trustLines.lookup ⟨accountID, asset⟩).map bareLine
  offers : ∀ key : OfferKey, key.sellerID = accountID → after.offers.lookup key =
    (ledger.offers.lookup key).bind fun offer => remaining ledger (key, offer)
  amounts : ∀ side asset, offered side after accountID asset =
    sumOf side ledger.header asset (keptOffers ledger accountID)
  mentioned : ∀ asset, asset.issuer? ≠ some accountID → Mentioned ledger accountID asset →
    ∀ side : Side, side.of (recordedIn after accountID asset) = offered side after accountID asset
  unmentioned : ∀ asset, asset.issuer? ≠ some accountID → ¬ Mentioned ledger accountID asset →
    recordedIn after accountID asset = recordedIn ledger accountID asset

theorem Settled.same {ledger : Ledger} {accountID : AccountID} {before after : Ledger}
    (settled : Settled ledger accountID before) (same : SameFor accountID before after) :
    Settled ledger accountID after where
  account := by
    rw [same.account]
    exact settled.account
  lines := by
    intro asset
    rw [same.lines]
    exact settled.lines asset
  offers := by
    intro key seller
    rw [same.offers key seller]
    exact settled.offers key seller
  amounts := by
    intro side asset
    rw [same.amounts]
    exact settled.amounts side asset
  mentioned := by
    intro asset foreign mentioned side
    rw [same.recordedIn, same.amounts]
    exact settled.mentioned asset foreign mentioned side
  unmentioned := by
    intro asset foreign unmentioned
    rw [same.recordedIn]
    exact settled.unmentioned asset foreign unmentioned

section Prepare

variable {ledger start : Ledger} {accountID : AccountID} {account : AccountEntry}

theorem visiting_start (sound : SoundLedger ledger)
    (found : ledger.accounts.lookup accountID = some account)
    (header : start.header = ledger.header) (same : SameFor accountID ledger start) :
    Visiting ledger accountID account (ownOffers (listed ledger) accountID) [] ∅ start where
  header := header
  trustLines := same.lines
  found := same.account.trans found
  owned := fun _ member => member
  present := by
    intro entry member
    have facts := mem_ownOffers.mp member
    rw [same.offers entry.1 facts.2]
    exact facts.1
  distinct := ownOffers_nodup ledger accountID
  enough := ownOffers_le_entries sound found
  entriesFit := sound.entriesFit accountID account found
  sound := fun _ member => by cases member
  summed := summed_nil accountID ledger.header
  room := by
    intro side asset foreign within
    have fits : offered side ledger accountID asset ≤ capacity side ledger accountID asset := by
      by_contra exceeded
      exact within ⟨foreign, not_le.mp exceeded⟩
    have nothing : sumOf side ledger.header asset [] = 0 := rfl
    rw [nothing, zero_add, ← offered_eq_sumOf]
    exact fits.trans (capacity_le sound found side asset)

theorem recordable_middle (version : 10 ≤ ledger.header.ledgerVersion) (sound : SoundLedger ledger)
    (found : ledger.accounts.lookup accountID = some account)
    (nonneg : ∀ (side : Side) asset, asset.issuer? ≠ some accountID →
      0 ≤ side.of (recordedIn ledger accountID asset))
    {middle : Ledger} (header : middle.header = ledger.header)
    (lines : ∀ asset, middle.trustLines.lookup ⟨accountID, asset⟩ =
      ledger.trustLines.lookup ⟨accountID, asset⟩)
    (counted : middle.accounts.lookup accountID = some
      { account with numSubEntries := account.numSubEntries - lostOffers ledger accountID })
    {asset : Asset} (foreign : asset.issuer? ≠ some accountID)
    (mentioned : Mentioned ledger accountID asset) :
    Recordable middle accountID asset
      (sums ledger.header (fun _ => keptOffers ledger accountID) asset) where
  foreign := foreign
  account := by
    intro native
    subst native
    have oldBuying := nonneg .buying .native foreign
    have oldSelling := nonneg .selling .native foreign
    unfold recordedIn at oldBuying oldSelling
    rw [found] at oldBuying oldSelling
    have balance := sound.balances accountID account found
    have fewer := getMinBalance_mono version
      (Nat.sub_le account.numSubEntries (lostOffers ledger accountID))
      (sound.entriesFit accountID account found)
    have buying := kept_le_capacity version sound .buying foreign
    have selling := kept_le_capacity version sound .selling foreign
    unfold capacity at buying selling
    rw [if_pos rfl, found] at buying selling
    refine ⟨_, counted, ?_⟩
    constructor
    · exact oldBuying
    · exact oldSelling
    · exact sumOf_nonneg .buying _ version (keptOffers_sound accountID sound)
    · exact sumOf_nonneg .selling _ version (keptOffers_sound accountID sound)
    · change sumOf .buying ledger.header .native (keptOffers ledger accountID) ≤ _
      dsimp only at buying ⊢
      omega
    · rw [header]
      intro room
      change sumOf .selling ledger.header .native (keptOffers ledger accountID) ≤ _
      dsimp only at selling room ⊢
      omega
  line := by
    intro credit
    have oldBuying := nonneg .buying asset foreign
    have oldSelling := nonneg .selling asset foreign
    unfold recordedIn at oldBuying oldSelling
    have buying := kept_le_capacity version sound .buying foreign
    have selling := kept_le_capacity version sound .selling foreign
    have positive : ∃ side : Side, 0 < capacity side ledger accountID asset := by
      obtain ⟨key, offer, present, seller, survives, mention⟩ := mentioned
      rcases mention with bought | sold
      · exact ⟨.buying, capacity_pos version sound .buying foreign present seller survives bought⟩
      · exact ⟨.selling, capacity_pos version sound .selling foreign present seller survives sold⟩
    obtain ⟨side, positive⟩ := positive
    unfold capacity at buying selling positive
    rw [if_neg credit] at buying selling positive oldBuying oldSelling
    cases line : ledger.trustLines.lookup ⟨accountID, asset⟩ with
    | none =>
        rw [line] at positive
        cases side <;> exact absurd positive (lt_irrefl 0)
    | some held =>
        rw [line] at buying selling positive oldBuying oldSelling
        have bounds := sound.lines _ _ line
        have authorized : isAuthorized held = true := by
          by_contra refused
          cases side <;> dsimp only at positive <;> rw [if_neg refused] at positive <;>
            exact absurd positive (lt_irrefl 0)
        dsimp only at buying selling
        rw [if_pos authorized] at buying selling
        refine ⟨held, (lines asset).trans line, ?_⟩
        constructor
        · exact authorized
        · exact oldBuying
        · exact oldSelling
        · exact sumOf_nonneg .buying _ version (keptOffers_sound accountID sound)
        · exact sumOf_nonneg .selling _ version (keptOffers_sound accountID sound)
        · change sumOf .buying ledger.header asset (keptOffers ledger accountID) ≤ _
          omega
        · change sumOf .selling ledger.header asset (keptOffers ledger accountID) ≤ _
          omega

theorem sold_below (version : 10 ≤ ledger.header.ledgerVersion) (sound : SoundLedger ledger)
    (found : ledger.accounts.lookup accountID = some account)
    (below : account.balance <
      getMinBalance ledger.header (account.numSubEntries - lostOffers ledger accountID)) :
    sumOf .selling ledger.header .native (keptOffers ledger accountID) = 0 := by
  have fewer := getMinBalance_mono version
    (Nat.sub_le account.numSubEntries (lostOffers ledger accountID))
    (sound.entriesFit accountID account found)
  have foreign : Asset.native.issuer? ≠ some accountID := by
    intro impossible
    cases impossible
  have nonneg := sumOf_nonneg .selling .native version (keptOffers_sound accountID sound)
  have fits := kept_le_capacity version sound .selling foreign
  unfold capacity at fits
  rw [if_pos rfl, found] at fits
  dsimp only at fits
  omega

theorem jammedIn_iff (version : 10 ≤ ledger.header.ledgerVersion) (sound : SoundLedger ledger)
    (found : ledger.accounts.lookup accountID = some account) {middle : Ledger}
    (header : middle.header = ledger.header)
    (counted : middle.accounts.lookup accountID = some
      { account with numSubEntries := account.numSubEntries - lostOffers ledger accountID })
    (mentioned : Mentioned ledger accountID .native) :
    JammedIn middle accountID .native
        (sums ledger.header (fun _ => keptOffers ledger accountID) .native) ↔
      Stuck ledger accountID account := by
  constructor
  · intro ⟨_, stored, present, jammed⟩
    rw [counted] at present
    cases present
    unfold Jammed at jammed
    rw [header] at jammed
    dsimp only at jammed
    have nothing := sold_below version sound found jammed.1
    refine ⟨jammed.1, ?_, mentioned⟩
    rw [← nothing]
    exact jammed.2
  · intro stuck
    have nothing := sold_below version sound found stuck.below
    refine ⟨rfl, _, counted, ?_, ?_⟩
    · rw [header]
      exact stuck.below
    · change (recorded account.ext).selling ≠
        sumOf .selling ledger.header .native (keptOffers ledger accountID)
      rw [nothing]
      exact stuck.sold

theorem offered_congr {before after : Ledger} (header : after.header = before.header)
    (offers : after.offers = before.offers) (side : Side) (other : AccountID) (asset : Asset) :
    offered side after other asset = offered side before other asset := by
  unfold offered
  rw [header, offers]

theorem recordedIn_middle {middle : Ledger}
    (found : ledger.accounts.lookup accountID = some account)
    (lines : ∀ asset, middle.trustLines.lookup ⟨accountID, asset⟩ =
      ledger.trustLines.lookup ⟨accountID, asset⟩)
    (counted : middle.accounts.lookup accountID = some
      { account with numSubEntries := account.numSubEntries - lostOffers ledger accountID })
    (asset : Asset) : recordedIn middle accountID asset = recordedIn ledger accountID asset := by
  unfold recordedIn
  rw [counted, found, lines]
  rfl

theorem settled_of_rerecorded (found : ledger.accounts.lookup accountID = some account)
    (header : start.header = ledger.header) (same : SameFor accountID ledger start)
    {liabilities : Map Asset Liabilities} {middle after : Ledger}
    (summed : Summed accountID ledger.header (fun _ => keptOffers ledger accountID) liabilities)
    (visited : Visited ledger accountID (ownOffers (listed ledger) accountID) start middle)
    (rerecorded : Rerecorded accountID (fun asset => liabilities.lookup asset) middle after) :
    Settled ledger accountID after := by
  have linesMiddle : ∀ asset, middle.trustLines.lookup ⟨accountID, asset⟩ =
      ledger.trustLines.lookup ⟨accountID, asset⟩ := by
    intro asset
    rw [visited.trustLines]
    exact same.lines asset
  have countedMiddle := visited.account account (same.account.trans found)
  have amounts : ∀ (side : Side) (asset : Asset), offered side after accountID asset =
      sumOf side ledger.header asset (keptOffers ledger accountID) := by
    intro side asset
    rw [offered_congr rerecorded.header rerecorded.offers, visited.amounts, if_pos rfl, header,
      same.amounts, offered_eq_sumOf]
    unfold keptOffers
    omega
  constructor
  · intro account' found'
    have same' : account' = account := Option.some.inj (found'.symm.trans found)
    subst same'
    have bare := rerecorded.accounts accountID
    rw [countedMiddle] at bare
    cases stored : after.accounts.lookup accountID with
    | none =>
        rw [stored] at bare
        cases bare
    | some updated =>
        rw [stored] at bare
        refine ⟨updated.ext, ?_⟩
        rw [bareAccount_eq (Option.some.inj bare)]
        rfl
  · intro asset
    rw [rerecorded.lines, linesMiddle]
  · intro key seller
    rw [rerecorded.offers]
    cases present : ledger.offers.lookup key with
    | none =>
        have absent : key ∉ (ownOffers (listed ledger) accountID).map Prod.fst := by
          intro member
          obtain ⟨entry, owned, rfl⟩ := List.mem_map.mp member
          rw [(mem_ownOffers.mp owned).1] at present
          cases present
        rw [visited.others key absent, same.offers key seller, present]
        rfl
    | some offer => exact visited.visited (key, offer) (mem_ownOffers.mpr ⟨present, seller⟩)
  · exact amounts
  · intro asset foreign mentioned side
    rw [rerecorded.liabilities, if_pos rfl,
      summed.present asset (counted_iff.mpr ⟨foreign, mentioned⟩)]
    rw [Option.getD_some, of_sums, amounts]
  · intro asset foreign unmentioned
    rw [rerecorded.liabilities, if_pos rfl,
      summed.absent asset fun counted => unmentioned (counted_iff.mp counted).2]
    exact recordedIn_middle found linesMiddle countedMiddle asset

theorem sameFor_others {liabilities : Asset → Option Liabilities} {middle after : Ledger}
    (visited : Visited ledger accountID (ownOffers (listed ledger) accountID) start middle)
    (rerecorded : Rerecorded accountID liabilities middle after) {other : AccountID}
    (different : other ≠ accountID) : SameFor other start after where
  account := (rerecorded.otherAccounts other different).trans (visited.accounts other different)
  lines := by
    intro asset
    rw [rerecorded.otherLines ⟨other, asset⟩ different, visited.trustLines]
  offers := by
    intro key seller
    have absent : key ∉ (ownOffers (listed ledger) accountID).map Prod.fst := by
      intro member
      obtain ⟨entry, owned, rfl⟩ := List.mem_map.mp member
      exact different (seller.symm.trans (mem_ownOffers.mp owned).2)
    rw [rerecorded.offers, visited.others key absent]
  amounts := by
    intro side asset
    rw [offered_congr rerecorded.header rerecorded.offers, visited.amounts, if_neg different,
      sub_zero]

theorem prepareAccount_outcome (version : 10 ≤ ledger.header.ledgerVersion)
    (sound : SoundLedger ledger) (found : ledger.accounts.lookup accountID = some account)
    (nonneg : ∀ (side : Side) asset, asset.issuer? ≠ some accountID →
      0 ≤ side.of (recordedIn ledger accountID asset))
    (header : start.header = ledger.header) (same : SameFor accountID ledger start) :
    wp (prepareAccount (listed ledger) accountID)
      (fun _ after => after.header = ledger.header ∧ Settled ledger accountID after ∧
        (∀ other, other ≠ accountID → SameFor other start after) ∧ ¬ Stuck ledger accountID account)
      (fun _ _ => Stuck ledger accountID account) start := by
  have soundOwn : ∀ offer ∈ (ownOffers (listed ledger) accountID).map Prod.snd, SoundOffer offer := by
    intro offer member
    obtain ⟨entry, owned, rfl⟩ := List.mem_map.mp member
    exact sound.offers entry.1 entry.2 (mem_ownOffers.mp owned).1
  obtain ⟨initial, initialOk, bought, sold⟩ := initialLiabilities_tallied version _ soundOwn
    (fun _ member => by cases member) (tallied_nil accountID .buying ledger.header)
    (tallied_nil accountID .selling ledger.header)
  rw [List.nil_append] at bought sold
  have measures : Measures ledger accountID account
      { balance := account.balance
        balanceAboveReserve := account.balance - getMinBalance ledger.header account.numSubEntries
        initialBuyingLiabilities := initial.1
        initialSellingLiabilities := initial.2 } := ⟨rfl, rfl, bought, sold⟩
  obtain ⟨liabilities, middle, looped, summed, visited⟩ := updateOffers_visits version sound found
    measures _ _ _ _ _ (visiting_start sound found header same)
  rw [List.nil_append] at summed
  have headerMiddle : middle.header = ledger.header := visited.header.trans header
  have linesMiddle : ∀ asset, middle.trustLines.lookup ⟨accountID, asset⟩ =
      ledger.trustLines.lookup ⟨accountID, asset⟩ := by
    intro asset
    rw [visited.trustLines]
    exact same.lines asset
  have countedMiddle := visited.account account (same.account.trans found)
  have versionMiddle : 10 ≤ middle.header.ledgerVersion := by
    rw [headerMiddle]
    exact version
  -- The map of sums holds exactly the assets that surviving offers mention.
  have entry_iff : ∀ entry ∈ liabilities.entries,
      entry.1.issuer? ≠ some accountID ∧ Mentioned ledger accountID entry.1 ∧
        entry.2 = sums ledger.header (fun _ => keptOffers ledger accountID) entry.1 := by
    intro entry member
    have known : liabilities.lookup entry.1 = some entry.2 := AList.mem_lookup_iff.mpr member
    by_cases counted : Counted accountID (fun _ => keptOffers ledger accountID) entry.1
    · have facts := counted_iff.mp counted
      have sum := summed.present entry.1 counted
      rw [known] at sum
      exact ⟨facts.1, facts.2, Option.some.inj sum⟩
    · have absent := summed.absent entry.1 counted
      rw [known] at absent
      cases absent
  have recordable : ∀ entry ∈ liabilities.entries, Recordable middle accountID entry.1 entry.2 := by
    intro entry member
    have facts := entry_iff entry member
    rw [facts.2.2]
    exact recordable_middle version sound found nonneg headerMiddle linesMiddle countedMiddle facts.1
      facts.2.1
  have recording := recordAll_outcome liabilities.entries liabilities.nodupKeys versionMiddle
    recordable
  have ran : prepareAccount (listed ledger) accountID start =
      (liabilities.entries.forM fun entry => recordLiabilities accountID entry.1 entry.2) middle := by
    have headerStart : loadHeader start = .ok ledger.header start := by
      rw [← header]
      rfl
    have initialStart : computed (initialLiabilities ledger.header accountID
        ((ownOffers (listed ledger) accountID).map Prod.snd) (∅, ∅)) start = .ok initial start := by
      rw [initialOk]
      rfl
    have accountStart : accountTable.load accountID start = .ok (some account) start := by
      change EStateM.Result.ok (start.accounts.lookup accountID) start = _
      rw [same.account, found]
    unfold prepareAccount
    rw [bind_of_ok headerStart]
    change (computed (initialLiabilities ledger.header accountID
      ((ownOffers (listed ledger) accountID).map Prod.snd) (∅, ∅)) >>= _) start = _
    rw [bind_of_ok initialStart]
    change (accountTable.load accountID >>= _) start = _
    rw [bind_of_ok accountStart]
    change (updateOffers _ ((ownOffers (listed ledger) accountID).map Prod.fst) ∅ >>= _) start = _
    rw [bind_of_ok looped]
  rw [wp_of_eq ran]
  apply wp_mono recording
  · intro _ after ⟨rerecorded, free⟩
    refine ⟨rerecorded.header.trans headerMiddle,
      settled_of_rerecorded found header same summed visited rerecorded,
      fun other different => sameFor_others visited rerecorded different, ?_⟩
    intro stuck
    have foreign : Asset.native.issuer? ≠ some accountID := by
      intro impossible
      cases impossible
    have known := summed.present .native (counted_iff.mpr ⟨foreign, stuck.mentioned⟩)
    exact free _ (AList.mem_lookup_iff.mp known)
      ((jammedIn_iff version sound found headerMiddle countedMiddle stuck.mentioned).mpr stuck)
  · intro _ after ⟨entry, member, jammed⟩
    have facts := entry_iff entry member
    obtain ⟨asset, liab⟩ := entry
    have native : asset = .native := jammed.1
    subst native
    have sum : liab = sums ledger.header (fun _ => keptOffers ledger accountID) .native := facts.2.2
    subst sum
    exact (jammedIn_iff version sound found headerMiddle countedMiddle facts.2.1).mp jammed

/-! ### Preparing all accounts -/

theorem prepareAll_outcome (version : 10 ≤ ledger.header.ledgerVersion)
    (sound : SoundLedger ledger)
    (nonneg : ∀ (side : Side) other asset, asset.issuer? ≠ some other →
      0 ≤ side.of (recordedIn ledger other asset))
    (sellers : List AccountID) (distinct : sellers.Nodup)
    (exist : ∀ seller ∈ sellers, ∃ account, ledger.accounts.lookup seller = some account)
    (header : start.header = ledger.header)
    (same : ∀ seller ∈ sellers, SameFor seller ledger start) :
    wp (sellers.forM (prepareAccount (listed ledger)))
      (fun _ after => after.header = ledger.header ∧
        (∀ seller ∈ sellers, Settled ledger seller after ∧
          ∀ account, ledger.accounts.lookup seller = some account → ¬ Stuck ledger seller account) ∧
        ∀ other, other ∉ sellers → SameFor other start after)
      (fun _ _ => ∃ seller ∈ sellers, ∃ account, ledger.accounts.lookup seller = some account ∧
        Stuck ledger seller account) start := by
  induction sellers generalizing start with
  | nil =>
      refine ⟨header, ?_, fun other _ => SameFor.refl other start⟩
      intro _ member
      cases member
  | cons seller rest ih =>
      have parts := List.nodup_cons.mp distinct
      obtain ⟨account, found⟩ := exist seller List.mem_cons_self
      have first := prepareAccount_outcome version sound found (nonneg · seller) header
        (same seller List.mem_cons_self)
      change wp (prepareAccount (listed ledger) seller >>= fun _ =>
        rest.forM (prepareAccount (listed ledger))) _ _ start
      rw [wp_bind]
      apply wp_mono first
      · intro _ middle ⟨headerMiddle, settled, others, free⟩
        have sameRest : ∀ other ∈ rest, SameFor other ledger middle := by
          intro other member
          have different : other ≠ seller := fun equal => parts.1 (equal ▸ member)
          exact (same other (List.mem_cons_of_mem _ member)).trans (others other different)
        apply wp_mono (ih parts.2 (fun other member => exist other (List.mem_cons_of_mem _ member))
          headerMiddle sameRest)
        · intro _ after ⟨headerAfter, settledRest, untouched⟩
          refine ⟨headerAfter, ?_, ?_⟩
          · intro other member
            rcases List.mem_cons.mp member with here | later
            · subst here
              refine ⟨settled.same (untouched other parts.1), ?_⟩
              intro account' found'
              rw [found] at found'
              cases found'
              exact free
            · exact settledRest other later
          · intro other absent
            rw [List.mem_cons, not_or] at absent
            exact (others other absent.1).trans (untouched other absent.2)
        · intro _ after ⟨other, member, stuck⟩
          exact ⟨other, List.mem_cons_of_mem _ member, stuck⟩
      · intro _ after stuck
        exact ⟨seller, List.mem_cons_self, account, found, stuck⟩

def sellersOf (ledger : Ledger) : List AccountID :=
  ((listed ledger).map fun offer => offer.1.sellerID).dedup.insertionSort
    fun left right => left.toNat ≤ right.toNat

theorem mem_sellersOf {seller : AccountID} :
    seller ∈ sellersOf ledger ↔
      ∃ key offer, ledger.offers.lookup key = some offer ∧ key.sellerID = seller := by
  unfold sellersOf
  rw [List.mem_insertionSort, List.mem_dedup, List.mem_map]
  constructor
  · intro ⟨entry, member, same⟩
    exact ⟨entry.1, entry.2, mem_listed.mp member, same⟩
  · intro ⟨key, offer, found, same⟩
    exact ⟨(key, offer), mem_listed.mpr found, same⟩

theorem sellersOf_nodup (ledger : Ledger) : (sellersOf ledger).Nodup :=
  (List.perm_insertionSort _ _).nodup_iff.mpr (List.nodup_dedup _)

theorem prepareLiabilities_outcome (version : 10 ≤ ledger.header.ledgerVersion)
    (sound : SoundLedger ledger)
    (nonneg : ∀ (side : Side) other asset, asset.issuer? ≠ some other →
      0 ≤ side.of (recordedIn ledger other asset)) :
    wp prepareLiabilities
      (fun _ after => after.header = ledger.header ∧
        (∀ seller ∈ sellersOf ledger, Settled ledger seller after ∧
          ∀ account, ledger.accounts.lookup seller = some account → ¬ Stuck ledger seller account) ∧
        ∀ other, other ∉ sellersOf ledger → SameFor other ledger after)
      (fun _ _ => ∃ seller ∈ sellersOf ledger, ∃ account,
        ledger.accounts.lookup seller = some account ∧ Stuck ledger seller account) ledger := by
  unfold prepareLiabilities
  rw [wp_bind, wp_get]
  apply prepareAll_outcome version sound nonneg (sellersOf ledger) (sellersOf_nodup ledger)
  · intro seller member
    obtain ⟨key, offer, found, rfl⟩ := mem_sellersOf.mp member
    exact sound.sellers key offer found
  · rfl
  · exact fun seller _ => SameFor.refl seller ledger

end Prepare

/-! ### What an upgrade should leave behind -/

/-- The liabilities of a ledger are those of its offers, the offers need no adjustment, and the
liabilities are covered. -/
structure LiabilitiesInOrder (ledger : Ledger) : Prop where
  offers : LiabilitiesMatchOffers ledger
  adjusted : ∀ key offer, ledger.offers.lookup key = some offer →
    adjustOfferAmount offer.price offer.amount INT64_MAX = .ok offer.amount
  accounts : ∀ accountID account, ledger.accounts.lookup accountID = some account →
    (recorded account.ext).buying ≤ INT64_MAX - account.balance ∧
    ((recorded account.ext).selling = 0 ∨ (recorded account.ext).selling ≤
      account.balance - getMinBalance ledger.header account.numSubEntries)
  lines : ∀ accountID asset line, asset ≠ .native → asset.issuer? ≠ some accountID →
    ledger.trustLines.lookup ⟨accountID, asset⟩ = some line →
    (recorded line.ext).buying ≤ line.limit - line.balance ∧
    (recorded line.ext).selling ≤ line.balance

def LeavesInOrder (upgrade : Apply Unit) (ledger : Ledger) : Prop :=
  ∃ after, upgrade ledger = .ok () after ∧ LiabilitiesInOrder after

/-- No recorded liabilities are left behind by the offers they are for, and none have to change on
an account below its reserve. -/
structure NothingStranded (ledger : Ledger) : Prop where
  mentioned : ∀ accountID asset, asset.issuer? ≠ some accountID →
    recordedIn ledger accountID asset ≠ ⟨0, 0⟩ → Mentioned ledger accountID asset
  reserve : ∀ accountID account, ledger.accounts.lookup accountID = some account →
    ¬ Stuck ledger accountID account

section InOrder

variable {ledger after : Ledger}

theorem offered_unmentioned
    (settled : ∀ seller ∈ sellersOf ledger, Settled ledger seller after)
    (untouched : ∀ other, other ∉ sellersOf ledger → SameFor other ledger after)
    {accountID : AccountID} {asset : Asset} (unmentioned : ¬ Mentioned ledger accountID asset)
    (side : Side) : offered side after accountID asset = 0 := by
  by_cases seller : accountID ∈ sellersOf ledger
  · rw [(settled accountID seller).amounts]
    apply sumOf_absent
    intro offer member same
    obtain ⟨key, original, found, sellerIs, survives, rfl⟩ := mem_keptOffers.mp member
    rw [asset_adjusted] at same
    apply unmentioned
    refine ⟨key, original, found, sellerIs, survives, ?_⟩
    cases side with
    | buying => exact Or.inl same
    | selling => exact Or.inr same
  · rw [(untouched accountID seller).amounts, offered_eq_sumOf]
    apply sumOf_absent
    intro offer member
    obtain ⟨entry, owned, rfl⟩ := List.mem_map.mp member
    have facts := mem_ownOffers.mp owned
    exact absurd (mem_sellersOf.mpr ⟨entry.1, entry.2, facts.1, facts.2⟩) seller

theorem recordedIn_unmentioned
    (settled : ∀ seller ∈ sellersOf ledger, Settled ledger seller after)
    (untouched : ∀ other, other ∉ sellersOf ledger → SameFor other ledger after)
    {accountID : AccountID} {asset : Asset} (foreign : asset.issuer? ≠ some accountID)
    (unmentioned : ¬ Mentioned ledger accountID asset) :
    recordedIn after accountID asset = recordedIn ledger accountID asset := by
  by_cases seller : accountID ∈ sellersOf ledger
  · exact (settled accountID seller).unmentioned asset foreign unmentioned
  · exact (untouched accountID seller).recordedIn asset

theorem mentioned_seller {accountID : AccountID} {asset : Asset}
    (mentioned : Mentioned ledger accountID asset) : accountID ∈ sellersOf ledger := by
  obtain ⟨key, offer, found, sellerIs, _, _⟩ := mentioned
  exact mem_sellersOf.mpr ⟨key, offer, found, sellerIs⟩

theorem recordedIn_cases
    (settled : ∀ seller ∈ sellersOf ledger, Settled ledger seller after)
    (untouched : ∀ other, other ∉ sellersOf ledger → SameFor other ledger after)
    (nothing : NothingStranded ledger) {accountID : AccountID} {asset : Asset}
    (foreign : asset.issuer? ≠ some accountID) (side : Side) :
    side.of (recordedIn after accountID asset) = offered side after accountID asset ∧
      (side.of (recordedIn after accountID asset) = 0 ∨
        (accountID ∈ sellersOf ledger ∧ side.of (recordedIn after accountID asset) =
          sumOf side ledger.header asset (keptOffers ledger accountID))) := by
  by_cases mentioned : Mentioned ledger accountID asset
  · have seller := mentioned_seller mentioned
    have same := (settled accountID seller).mentioned asset foreign mentioned side
    refine ⟨same, Or.inr ⟨seller, ?_⟩⟩
    rw [same, (settled accountID seller).amounts]
  · have zero : recordedIn ledger accountID asset = ⟨0, 0⟩ := by
      by_contra nonzero
      exact mentioned (nothing.mentioned accountID asset foreign nonzero)
    rw [recordedIn_unmentioned settled untouched foreign mentioned, zero,
      offered_unmentioned settled untouched mentioned]
    cases side <;> exact ⟨rfl, Or.inl rfl⟩

theorem liabilitiesInOrder_of_settled (version : 10 ≤ ledger.header.ledgerVersion)
    (sound : SoundLedger ledger) (header : after.header = ledger.header)
    (settled : ∀ seller ∈ sellersOf ledger, Settled ledger seller after)
    (untouched : ∀ other, other ∉ sellersOf ledger → SameFor other ledger after)
    (nothing : NothingStranded ledger) : LiabilitiesInOrder after where
  offers := by
    intro side accountID asset foreign
    exact (recordedIn_cases settled untouched nothing foreign side).1
  adjusted := by
    intro key offer found
    by_cases seller : key.sellerID ∈ sellersOf ledger
    · rw [(settled _ seller).offers key rfl] at found
      obtain ⟨original, present, left⟩ := Option.bind_eq_some_iff.mp found
      unfold remaining at left
      split at left
      · rename_i survives
        cases left
        have soundOffer := sound.offers key original present
        have nonzero := ((survives_iff soundOffer).mp survives).2
        have soundLeft := soundOffer.adjust
        rw [adjustOfferAmount_eq soundLeft.price soundLeft.nonneg soundLeft.fits]
        exact congrArg Except.ok (adjusted_fixed soundOffer.price soundOffer.fits nonzero)
      · cases left
    · rw [(untouched _ seller).offers key rfl] at found
      exact absurd (mem_sellersOf.mpr ⟨key, offer, found, rfl⟩) seller
  accounts := by
    intro accountID updated stored
    have foreign : Asset.native.issuer? ≠ some accountID := by
      intro impossible
      cases impossible
    have buying := (recordedIn_cases settled untouched nothing foreign .buying).2
    have selling := (recordedIn_cases settled untouched nothing foreign .selling).2
    unfold recordedIn at buying selling
    rw [if_pos rfl, stored] at buying selling
    change (recorded updated.ext).buying = 0 ∨ (_ ∧ (recorded updated.ext).buying = _) at buying
    change (recorded updated.ext).selling = 0 ∨ (_ ∧ (recorded updated.ext).selling = _) at selling
    by_cases seller : accountID ∈ sellersOf ledger
    · obtain ⟨key, offer, present, sellerIs⟩ := mem_sellersOf.mp seller
      obtain ⟨account, found⟩ := sound.sellers key offer present
      rw [sellerIs] at found
      obtain ⟨ext, stored'⟩ := (settled accountID seller).account account found
      have boughtSum := buying.imp_right And.right
      have soldSum := selling.imp_right And.right
      rw [stored] at stored'
      cases stored'
      have balance := sound.balances accountID account found
      have fewer := getMinBalance_mono version
        (Nat.sub_le account.numSubEntries (lostOffers ledger accountID))
        (sound.entriesFit accountID account found)
      have buyingFits := kept_le_capacity version sound .buying foreign
      have sellingFits := kept_le_capacity version sound .selling foreign
      unfold capacity at buyingFits sellingFits
      rw [if_pos rfl, found] at buyingFits sellingFits
      rw [header]
      dsimp only at boughtSum soldSum buyingFits sellingFits ⊢
      omega
    · have same := (untouched accountID seller).account
      rw [stored] at same
      have balance := sound.balances accountID updated same.symm
      have noBuying : (recorded updated.ext).buying = 0 :=
        buying.resolve_right fun either => seller either.1
      have noSelling : (recorded updated.ext).selling = 0 :=
        selling.resolve_right fun either => seller either.1
      omega
  lines := by
    intro accountID asset updated credit foreign stored
    have buying := (recordedIn_cases settled untouched nothing foreign .buying).2
    have selling := (recordedIn_cases settled untouched nothing foreign .selling).2
    unfold recordedIn at buying selling
    rw [if_neg credit, stored] at buying selling
    change (recorded updated.ext).buying = 0 ∨ (_ ∧ (recorded updated.ext).buying = _) at buying
    change (recorded updated.ext).selling = 0 ∨ (_ ∧ (recorded updated.ext).selling = _) at selling
    by_cases seller : accountID ∈ sellersOf ledger
    · have bare := (settled accountID seller).lines asset
      have boughtSum := buying.imp_right And.right
      have soldSum := selling.imp_right And.right
      have buyingFits := kept_le_capacity version sound .buying foreign
      have sellingFits := kept_le_capacity version sound .selling foreign
      unfold capacity at buyingFits sellingFits
      rw [if_neg credit] at buyingFits sellingFits
      rw [stored] at bare
      cases present : ledger.trustLines.lookup ⟨accountID, asset⟩ with
      | none =>
          rw [present] at bare
          cases bare
      | some line =>
          rw [present] at bare buyingFits sellingFits
          have bounds := sound.lines _ _ present
          have extended := bareLine_eq (Option.some.inj bare)
          have balances : updated.balance = line.balance ∧ updated.limit = line.limit := by
            rw [extended]
            exact ⟨rfl, rfl⟩
          have buyingFits' : sumOf .buying ledger.header asset (keptOffers ledger accountID) ≤
              line.limit - line.balance := by
            dsimp only at buyingFits
            split at buyingFits <;> omega
          have sellingFits' : sumOf .selling ledger.header asset (keptOffers ledger accountID) ≤
              line.balance := by
            dsimp only at sellingFits
            split at sellingFits <;> omega
          omega
    · have same := (untouched accountID seller).lines asset
      rw [stored] at same
      have bounds := sound.lines _ _ same.symm
      have noBuying : (recorded updated.ext).buying = 0 :=
        buying.resolve_right fun either => seller either.1
      have noSelling : (recorded updated.ext).selling = 0 :=
        selling.resolve_right fun either => seller either.1
      omega

theorem nothingStranded_of_inOrder
    (settled : ∀ seller ∈ sellersOf ledger, Settled ledger seller after ∧
      ∀ account, ledger.accounts.lookup seller = some account → ¬ Stuck ledger seller account)
    (untouched : ∀ other, other ∉ sellersOf ledger → SameFor other ledger after)
    (inOrder : LiabilitiesInOrder after) : NothingStranded ledger where
  mentioned := by
    intro accountID asset foreign nonzero
    by_contra unmentioned
    have kept := recordedIn_unmentioned (fun seller member => (settled seller member).1) untouched
      foreign unmentioned
    have zero (side : Side) : side.of (recordedIn ledger accountID asset) = 0 := by
      rw [← kept, inOrder.offers side accountID asset foreign]
      exact offered_unmentioned (fun seller member => (settled seller member).1) untouched
        unmentioned side
    apply nonzero
    have buying := zero .buying
    have selling := zero .selling
    dsimp only [Side.of] at buying selling
    cases both : recordedIn ledger accountID asset with
    | mk bought sold =>
        rw [both] at buying selling
        dsimp only at buying selling
        rw [buying, selling]
  reserve := by
    intro accountID account found stuck
    exact (settled accountID (mentioned_seller stuck.mentioned)).2 account found stuck

theorem prepareLiabilities_inOrder (version : 10 ≤ ledger.header.ledgerVersion)
    (sound : SoundLedger ledger)
    (nonneg : ∀ (side : Side) other asset, asset.issuer? ≠ some other →
      0 ≤ side.of (recordedIn ledger other asset)) :
    LeavesInOrder prepareLiabilities ledger ↔ NothingStranded ledger := by
  have outcome := prepareLiabilities_outcome version sound nonneg
  unfold LeavesInOrder
  unfold wp at outcome
  cases ran : prepareLiabilities ledger with
  | ok _ after =>
      rw [ran] at outcome
      obtain ⟨header, settled, untouched⟩ := outcome
      constructor
      · rintro ⟨_, same, inOrder⟩
        cases same
        exact nothingStranded_of_inOrder settled untouched inOrder
      · intro nothing
        exact ⟨after, rfl, liabilitiesInOrder_of_settled version sound header
          (fun seller member => (settled seller member).1) untouched nothing⟩
  | error fault after =>
      rw [ran] at outcome
      obtain ⟨seller, _, account, found, stuck⟩ := outcome
      constructor
      · rintro ⟨_, impossible, _⟩
        cases impossible
      · intro nothing
        exact absurd stuck (nothing.reserve seller account found)

end InOrder

/-! ### Upgrades -/

theorem SoundLedger.withHeader {ledger : Ledger} (sound : SoundLedger ledger)
    (header : LedgerHeader) : SoundLedger { ledger with header } :=
  ⟨sound.offers, sound.sellers, sound.balances, sound.lines, sound.entries, sound.entriesFit⟩

theorem nothingStranded_of_unrecorded {ledger : Ledger}
    (zero : ∀ accountID asset, recordedIn ledger accountID asset = ⟨0, 0⟩) :
    NothingStranded ledger where
  mentioned := fun accountID asset _ nonzero => absurd (zero accountID asset) nonzero
  reserve := by
    intro accountID account found stuck
    have native := zero accountID .native
    unfold recordedIn at native
    rw [if_pos rfl, found] at native
    apply stuck.sold
    exact congrArg Liabilities.selling native

theorem side_of_zero (side : Side) : side.of ⟨0, 0⟩ = 0 := by
  cases side <;> rfl

theorem applyVersionUpgrade_prepares {ledger : Ledger} {newVersion : Nat}
    (before : ledger.header.ledgerVersion < 10) (after : 10 ≤ newVersion) :
    applyVersionUpgrade newVersion ledger =
      prepareLiabilities { ledger with header := { ledger.header with ledgerVersion := newVersion } } := by
  have condition : newVersion ≥ 10 ∧ ledger.header.ledgerVersion < 10 := ⟨after, before⟩
  change (if newVersion ≥ 10 ∧ ledger.header.ledgerVersion < 10 then prepareLiabilities
    else pure ()) _ = _
  rw [if_pos condition]

theorem applyReserveUpgrade_prepares {ledger : Ledger} {newReserve : Nat}
    (version : 10 ≤ ledger.header.ledgerVersion) (more : ledger.header.baseReserve < newReserve) :
    applyReserveUpgrade newReserve ledger =
      prepareLiabilities { ledger with header := { ledger.header with baseReserve := newReserve } } := by
  have condition : ledger.header.ledgerVersion ≥ 10 ∧ newReserve > ledger.header.baseReserve :=
    ⟨version, more⟩
  change (if ledger.header.ledgerVersion ≥ 10 ∧ newReserve > ledger.header.baseReserve
    then prepareLiabilities else pure ()) _ = _
  rw [if_pos condition]

/-- The upgrade to version 10 always leaves the liabilities in order. A higher reserve does so
exactly when, under the new reserve, nothing is stranded. -/
theorem upgrade_leavesInOrder (ledger : Ledger) (sound : SoundLedger ledger) :
    (∀ newVersion, ledger.header.ledgerVersion < 10 → 10 ≤ newVersion →
      (∀ accountID asset, recordedIn ledger accountID asset = ⟨0, 0⟩) →
      LeavesInOrder (applyVersionUpgrade newVersion) ledger) ∧
    (∀ newReserve, 10 ≤ ledger.header.ledgerVersion → ledger.header.baseReserve < newReserve →
      LiabilitiesMatchOffers ledger →
      (LeavesInOrder (applyReserveUpgrade newReserve) ledger ↔
        NothingStranded
          { ledger with header := { ledger.header with baseReserve := newReserve } })) := by
  constructor
  · intro newVersion before after zero
    unfold LeavesInOrder
    rw [applyVersionUpgrade_prepares before after]
    apply (prepareLiabilities_inOrder after (sound.withHeader _) ?_).mpr
    · exact nothingStranded_of_unrecorded zero
    · intro side accountID asset _
      exact le_of_eq ((congrArg side.of (zero accountID asset)).trans (side_of_zero side)).symm
  · intro newReserve version more matching
    unfold LeavesInOrder
    rw [applyReserveUpgrade_prepares version more]
    have soundNow := sound.withHeader { ledger.header with baseReserve := newReserve }
    refine prepareLiabilities_inOrder ?_ soundNow ?_
    · exact version
    intro side accountID asset foreign
    have nonneg := offered_nonneg version sound side accountID asset
    rw [← matching side accountID asset foreign] at nonneg
    exact nonneg

/-- Account 1 sells 10 of the native asset for an asset that account 2 issues. -/
def dollar : Asset := .alphaNum4 (Vector.replicate 4 85) 2

def sellerAccount (balance : Int) (ext : Option Liabilities) : AccountEntry :=
  { balance, seqNum := 3, numSubEntries := 2, inflationDest := none, flags := 0, homeDomain := [],
    thresholds := ⟨1, 0, 0, 0⟩, signers := [], ext }

def sellerLine (ext : Option Liabilities) : TrustLineEntry :=
  { balance := 0, limit := 100, flags := AUTHORIZED_FLAG, ext }

def sellerOffer : OfferEntry :=
  { selling := .native, buying := dollar, amount := 10, price := ⟨1, 1⟩, flags := 0 }

def sellerLedger (ledgerVersion : Nat) (balance : Int) (onAccount onLine : Option Liabilities) :
    Ledger where
  header := { ledgerVersion, closeTime := 0, ledgerSeq := 5, totalCoins := 1000,
              feePool := 0, inflationSeq := 0, idPool := 1, baseFee := 100, baseReserve := 10,
              maxTxSetSize := 50 }
  accounts := (∅ : Map AccountID AccountEntry).insert 1 (sellerAccount balance onAccount)
  trustLines := (∅ : Map TrustLineKey TrustLineEntry).insert ⟨1, dollar⟩ (sellerLine onLine)
  offers := (∅ : Map OfferKey OfferEntry).insert ⟨1, 1⟩ sellerOffer
  data := ∅

def recordedLedger (balance : Int) : Ledger :=
  sellerLedger 10 balance (some ⟨0, 10⟩) (some ⟨10, 0⟩)

section SellerLedger

variable {ledgerVersion : Nat} {balance : Int} {onAccount onLine : Option Liabilities}

theorem sellerLedger_accounts {accountID : AccountID} {account : AccountEntry}
    (found : (sellerLedger ledgerVersion balance onAccount onLine).accounts.lookup accountID = some account) :
    accountID = 1 ∧ account = sellerAccount balance onAccount := by
  have stored := AList.mem_lookup_iff.mp found
  change _ ∈ [_] at stored
  rw [List.mem_singleton] at stored
  cases stored
  exact ⟨rfl, rfl⟩

theorem sellerLedger_lines {key : TrustLineKey} {line : TrustLineEntry}
    (found : (sellerLedger ledgerVersion balance onAccount onLine).trustLines.lookup key = some line) :
    key = ⟨1, dollar⟩ ∧ line = sellerLine onLine := by
  have stored := AList.mem_lookup_iff.mp found
  change _ ∈ [_] at stored
  rw [List.mem_singleton] at stored
  cases stored
  exact ⟨rfl, rfl⟩

theorem sellerLedger_offers {key : OfferKey} {offer : OfferEntry}
    (found : (sellerLedger ledgerVersion balance onAccount onLine).offers.lookup key = some offer) :
    key = ⟨1, 1⟩ ∧ offer = sellerOffer := by
  have stored := AList.mem_lookup_iff.mp found
  change _ ∈ [_] at stored
  rw [List.mem_singleton] at stored
  cases stored
  exact ⟨rfl, rfl⟩

theorem sellerLedger_sound (nonneg : 0 ≤ balance) (fits : balance ≤ INT64_MAX) :
    SoundLedger (sellerLedger ledgerVersion balance onAccount onLine) where
  offers := by
    intro key offer found
    obtain ⟨rfl, rfl⟩ := sellerLedger_offers found
    exact ⟨⟨by decide, by decide, by decide, by decide⟩, by decide, by decide⟩
  sellers := by
    intro key offer found
    obtain ⟨rfl, rfl⟩ := sellerLedger_offers found
    exact ⟨sellerAccount balance onAccount, rfl⟩
  balances := by
    intro accountID account found
    obtain ⟨rfl, rfl⟩ := sellerLedger_accounts found
    exact ⟨nonneg, fits⟩
  lines := by
    intro key line found
    obtain ⟨rfl, rfl⟩ := sellerLedger_lines found
    change (0 : Int) ≤ 0 ∧ (0 : Int) ≤ 100 ∧ (100 : Int) ≤ INT64_MAX
    decide
  entries := by
    intro accountID
    by_cases seller : accountID = 1
    · subst seller
      exact le_of_eq rfl
    · have absent : (sellerLedger ledgerVersion balance onAccount onLine).accounts.lookup accountID = none :=
        AList.lookup_insert_ne seller
      have noLine : one ((1 : AccountID) = accountID) = 0 := if_neg fun same => seller same.symm
      unfold surplus
      rw [absent]
      change (0 : Int) ≤ 0 - (one ((1 : AccountID) = accountID) + 0 +
        (one ((1 : AccountID) = accountID) + 0) + 0)
      rw [noLine]
      decide
  entriesFit := by
    intro accountID account found
    obtain ⟨rfl, rfl⟩ := sellerLedger_accounts found
    change (2 : Int) ≤ INT32_MAX
    decide

theorem recordedLedger_matches (balance : Int) : LiabilitiesMatchOffers (recordedLedger balance) := by
  intro side accountID asset foreign
  by_cases owned : accountID = 1 ∧ side.asset sellerOffer = asset
  · obtain ⟨rfl, rfl⟩ := owned
    cases side <;> rfl
  · have nothing : offered side (recordedLedger balance) accountID asset = 0 := by
      change (if (1 : AccountID) = accountID ∧ side.asset sellerOffer = asset then _
        else (0 : Int)) + 0 = 0
      rw [if_neg fun same => owned ⟨same.1.symm, same.2⟩, add_zero]
    rw [nothing]
    unfold recordedIn
    split
    · rename_i native
      subst native
      cases found : (recordedLedger balance).accounts.lookup accountID with
      | none => cases side <;> rfl
      | some account =>
          obtain ⟨rfl, rfl⟩ := sellerLedger_accounts found
          cases side with
          | buying => rfl
          | selling => exact absurd ⟨rfl, rfl⟩ owned
    · cases found : (recordedLedger balance).trustLines.lookup ⟨accountID, asset⟩ with
      | none => cases side <;> rfl
      | some line =>
          obtain ⟨same, rfl⟩ := sellerLedger_lines found
          cases same
          cases side with
          | buying => exact absurd ⟨rfl, rfl⟩ owned
          | selling => rfl

end SellerLedger

/-- With a balance of 50 the offer goes when the reserve goes up, and its liabilities stay. -/
theorem upgrade_strands_liabilities :
    SoundLedger (recordedLedger 50) ∧ LiabilitiesMatchOffers (recordedLedger 50) ∧
      ∃ after, applyReserveUpgrade 11 (recordedLedger 50) = .ok () after ∧
        offered .selling after 1 .native = 0 ∧ recordedIn after 1 .native = ⟨0, 10⟩ ∧
        offered .buying after 1 dollar = 0 ∧ recordedIn after 1 dollar = ⟨10, 0⟩ ∧
        ¬ LiabilitiesInOrder after := by
  have sound : SoundLedger (recordedLedger 50) := sellerLedger_sound (by decide) (by decide)
  refine ⟨sound, recordedLedger_matches 50, _, rfl, rfl, rfl, rfl, rfl, ?_⟩
  intro inOrder
  have sold := inOrder.offers .selling 1 .native (by decide)
  revert sold
  decide

def marketAccount (balance : Int) (ext : Option Liabilities) : AccountEntry :=
  { sellerAccount balance ext with numSubEntries := 3 }

def marketLine (balance : Int) (ext : Option Liabilities) : TrustLineEntry :=
  { sellerLine ext with balance }

/-- Account 1 trades both ways, and account 4 asks two thirds for 7 and for 5. -/
def marketLedger (ledgerVersion : Nat) (balance : Int)
    (ext : Liabilities → Option Liabilities) : Ledger :=
  { sellerLedger ledgerVersion balance none none with
    accounts := (∅ : Map AccountID AccountEntry).insert 1 (marketAccount balance (ext ⟨8, 10⟩))
      |>.insert 4 (marketAccount 1000 (ext ⟨7, 0⟩))
    trustLines := (∅ : Map TrustLineKey TrustLineEntry).insert ⟨1, dollar⟩
        (marketLine 20 (ext ⟨10, 8⟩))
      |>.insert ⟨4, dollar⟩ (marketLine 30 (ext ⟨0, 11⟩))
    offers := (∅ : Map OfferKey OfferEntry).insert ⟨1, 1⟩ sellerOffer
      |>.insert ⟨1, 2⟩ { selling := dollar, buying := .native, amount := 8, price := ⟨1, 1⟩,
                         flags := 0 }
      |>.insert ⟨4, 3⟩ { selling := dollar, buying := .native, amount := 7, price := ⟨2, 3⟩,
                         flags := 0 }
      |>.insert ⟨4, 4⟩ { selling := dollar, buying := .native, amount := 5, price := ⟨2, 3⟩,
                         flags := 0 } }

section MarketLedger

variable {ledgerVersion : Nat} {balance : Int} {ext : Liabilities → Option Liabilities}

theorem marketLedger_accounts {accountID : AccountID} {account : AccountEntry}
    (found : (marketLedger ledgerVersion balance ext).accounts.lookup accountID = some account) :
    accountID = 4 ∧ account = marketAccount 1000 (ext ⟨7, 0⟩) ∨
      accountID = 1 ∧ account = marketAccount balance (ext ⟨8, 10⟩) := by
  have stored := AList.mem_lookup_iff.mp found
  change _ ∈ [_, _] at stored
  simp only [List.mem_cons, List.not_mem_nil, or_false] at stored
  rcases stored with same | same
  · cases same
    exact Or.inl ⟨rfl, rfl⟩
  · cases same
    exact Or.inr ⟨rfl, rfl⟩

theorem marketLedger_lines {key : TrustLineKey} {line : TrustLineEntry}
    (found : (marketLedger ledgerVersion balance ext).trustLines.lookup key = some line) :
    key = ⟨4, dollar⟩ ∧ line = marketLine 30 (ext ⟨0, 11⟩) ∨
      key = ⟨1, dollar⟩ ∧ line = marketLine 20 (ext ⟨10, 8⟩) := by
  have stored := AList.mem_lookup_iff.mp found
  change _ ∈ [_, _] at stored
  simp only [List.mem_cons, List.not_mem_nil, or_false] at stored
  rcases stored with same | same
  · cases same
    exact Or.inl ⟨rfl, rfl⟩
  · cases same
    exact Or.inr ⟨rfl, rfl⟩

theorem marketLedger_offers {key : OfferKey} {offer : OfferEntry}
    (found : (marketLedger ledgerVersion balance ext).offers.lookup key = some offer) :
    SoundOffer offer ∧ (key.sellerID = 1 ∨ key.sellerID = 4) ∧
      ∀ side : Side, side.asset offer = .native ∨ side.asset offer = dollar := by
  have stored := AList.mem_lookup_iff.mp found
  change _ ∈ [_, _, _, _] at stored
  simp only [List.mem_cons, List.not_mem_nil, or_false] at stored
  rcases stored with same | same | same | same
  all_goals
    cases same
    refine ⟨⟨⟨by decide, by decide, by decide, by decide⟩, by decide, by decide⟩, by decide, ?_⟩
    rintro (_ | _) <;> decide

theorem marketLedger_sound (nonneg : 0 ≤ balance) (fits : balance ≤ INT64_MAX) :
    SoundLedger (marketLedger ledgerVersion balance ext) where
  offers _ _ found := (marketLedger_offers found).1
  sellers := by
    intro key offer found
    rcases (marketLedger_offers found).2.1 with seller | seller
    · rw [seller]
      exact ⟨_, rfl⟩
    · rw [seller]
      exact ⟨_, rfl⟩
  balances := by
    intro accountID account found
    rcases marketLedger_accounts found with ⟨_, rfl⟩ | ⟨_, rfl⟩
    · change (0 : Int) ≤ 1000 ∧ (1000 : Int) ≤ INT64_MAX
      decide
    · exact ⟨nonneg, fits⟩
  lines := by
    intro key line found
    rcases marketLedger_lines found with ⟨_, rfl⟩ | ⟨_, rfl⟩
    · change (0 : Int) ≤ 30 ∧ (30 : Int) ≤ 100 ∧ (100 : Int) ≤ INT64_MAX
      decide
    · change (0 : Int) ≤ 20 ∧ (20 : Int) ≤ 100 ∧ (100 : Int) ≤ INT64_MAX
      decide
  entries := by
    intro accountID
    by_cases first : accountID = 1
    · subst first
      exact le_of_eq rfl
    by_cases second : accountID = 4
    · subst second
      exact le_of_eq rfl
    have absent : (marketLedger ledgerVersion balance ext).accounts.lookup accountID = none :=
      (AList.lookup_insert_ne second).trans (AList.lookup_insert_ne first)
    have notFirst : one ((1 : AccountID) = accountID) = 0 := if_neg fun same => first same.symm
    have notSecond : one ((4 : AccountID) = accountID) = 0 := if_neg fun same => second same.symm
    unfold surplus
    rw [absent]
    change (0 : Int) ≤ 0 - (one ((4 : AccountID) = accountID) +
      (one ((1 : AccountID) = accountID) + 0) + (one ((4 : AccountID) = accountID) +
      (one ((4 : AccountID) = accountID) + (one ((1 : AccountID) = accountID) +
      (one ((1 : AccountID) = accountID) + 0)))) + 0)
    rw [notFirst, notSecond]
    decide
  entriesFit := by
    intro accountID account found
    rcases marketLedger_accounts found with ⟨_, rfl⟩ | ⟨_, rfl⟩
    · change (3 : Int) ≤ INT32_MAX
      decide
    · change (3 : Int) ≤ INT32_MAX
      decide

theorem marketLedger_unrecorded (accountID : AccountID) (asset : Asset) :
    recordedIn (marketLedger ledgerVersion balance fun _ => none) accountID asset = ⟨0, 0⟩ := by
  unfold recordedIn
  split
  · cases found : (marketLedger ledgerVersion balance fun _ => none).accounts.lookup accountID with
    | none => rfl
    | some account => rcases marketLedger_accounts found with ⟨_, rfl⟩ | ⟨_, rfl⟩ <;> rfl
  · cases found : (marketLedger ledgerVersion balance fun _ => none).trustLines.lookup
      ⟨accountID, asset⟩ with
    | none => rfl
    | some line => rcases marketLedger_lines found with ⟨_, rfl⟩ | ⟨_, rfl⟩ <;> rfl

theorem marketLedger_elsewhere {accountID : AccountID} {asset : Asset}
    (elsewhere : ¬ ((accountID = 1 ∨ accountID = 4) ∧ (asset = .native ∨ asset = dollar)))
    (side : Side) :
    recordedIn (marketLedger ledgerVersion balance ext) accountID asset = ⟨0, 0⟩ ∧
      offered side (marketLedger ledgerVersion balance ext) accountID asset = 0 := by
  constructor
  · unfold recordedIn
    split
    · rename_i native
      cases found : (marketLedger ledgerVersion balance ext).accounts.lookup accountID with
      | none => rfl
      | some account =>
          rcases marketLedger_accounts found with ⟨same, _⟩ | ⟨same, _⟩
          · exact absurd ⟨Or.inr same, Or.inl native⟩ elsewhere
          · exact absurd ⟨Or.inl same, Or.inl native⟩ elsewhere
    · cases found : (marketLedger ledgerVersion balance ext).trustLines.lookup
        ⟨accountID, asset⟩ with
      | none => rfl
      | some line =>
          rcases marketLedger_lines found with ⟨same, _⟩ | ⟨same, _⟩
          · cases same
            exact absurd ⟨Or.inr rfl, Or.inr rfl⟩ elsewhere
          · cases same
            exact absurd ⟨Or.inl rfl, Or.inr rfl⟩ elsewhere
  · unfold offered total
    apply List.sum_eq_zero
    intro amount member
    obtain ⟨entry, stored, rfl⟩ := List.mem_map.mp member
    apply if_neg
    rintro ⟨rfl, rfl⟩
    obtain ⟨_, seller, trades⟩ := marketLedger_offers (AList.mem_lookup_iff.mpr stored)
    exact elsewhere ⟨seller, trades side⟩

theorem marketLedger_matches :
    LiabilitiesMatchOffers (marketLedger 10 balance some) := by
  intro side accountID asset foreign
  by_cases inside : (accountID = 1 ∨ accountID = 4) ∧ (asset = .native ∨ asset = dollar)
  · obtain ⟨rfl | rfl, rfl | rfl⟩ := inside
    all_goals
      cases side <;> rfl
  · obtain ⟨nothing, unoffered⟩ :
        recordedIn (marketLedger 10 balance some) accountID asset = ⟨0, 0⟩ ∧
          offered side (marketLedger 10 balance some) accountID asset = 0 :=
      marketLedger_elsewhere inside side
    rw [nothing, unoffered]
    cases side <;> rfl

end MarketLedger

theorem marketLedger_settled :
    NothingStranded { marketLedger 10 62 some with
      header := { (marketLedger 10 62 some).header with baseReserve := 11 } } where
  mentioned := by
    intro accountID asset _ nonzero
    have held : recordedIn (marketLedger 10 62 some) accountID asset ≠ ⟨0, 0⟩ := nonzero
    by_cases inside : (accountID = 1 ∨ accountID = 4) ∧ (asset = .native ∨ asset = dollar)
    · obtain ⟨rfl | rfl, traded⟩ := inside
      · refine ⟨⟨1, 2⟩, _, rfl, rfl, by decide, ?_⟩
        exact traded.imp Eq.symm Eq.symm
      · refine ⟨⟨4, 3⟩, _, rfl, rfl, by decide, ?_⟩
        exact traded.imp Eq.symm Eq.symm
    · exact absurd (marketLedger_elsewhere inside .buying).1 held
  reserve := by
    intro accountID account found stuck
    have below := stuck.below
    have present : (marketLedger 10 62 some).accounts.lookup accountID = some account := found
    revert below
    rcases marketLedger_accounts present with ⟨rfl, rfl⟩ | ⟨rfl, rfl⟩
    · decide
    · decide

/-- Both upgrades erase one offer, adjust one, and adjust one to zero, which goes as well. -/
theorem upgrade_leavesInOrder_market :
    (∃ after, applyVersionUpgrade 10 (marketLedger 9 58 fun _ => none) = .ok () after ∧
      after.offers.entries.map (fun entry => (entry.1.offerID, entry.2.amount)) =
        [(3, 6), (2, 8)] ∧ LiabilitiesInOrder after) ∧
      ∃ after, applyReserveUpgrade 11 (marketLedger 10 62 some) = .ok () after ∧
        after.offers.entries.map (fun entry => (entry.1.offerID, entry.2.amount)) =
          [(3, 6), (2, 8)] ∧ LiabilitiesInOrder after := by
  have soundOld : SoundLedger (marketLedger 9 58 fun _ => none) :=
    marketLedger_sound (by decide) (by decide)
  have sound : SoundLedger (marketLedger 10 62 some) := marketLedger_sound (by decide) (by decide)
  constructor
  · obtain ⟨after, ran, inOrder⟩ := (upgrade_leavesInOrder _ soundOld).1 10 (by decide) (by decide)
      marketLedger_unrecorded
    have left : (finalState (applyVersionUpgrade 10) (marketLedger 9 58 fun _ => none)).offers.entries.map
        (fun entry => (entry.1.offerID, entry.2.amount)) = [(3, 6), (2, 8)] := by
      decide +kernel
    unfold finalState at left
    rw [ran] at left
    exact ⟨after, ran, left, inOrder⟩
  · obtain ⟨after, ran, inOrder⟩ := ((upgrade_leavesInOrder _ sound).2 11 (by decide) (by decide)
      marketLedger_matches).mpr marketLedger_settled
    have left : (finalState (applyReserveUpgrade 11) (marketLedger 10 62 some)).offers.entries.map
        (fun entry => (entry.1.offerID, entry.2.amount)) = [(3, 6), (2, 8)] := by
      decide +kernel
    unfold finalState at left
    rw [ran] at left
    exact ⟨after, ran, left, inOrder⟩

end ViiCore.Herder
