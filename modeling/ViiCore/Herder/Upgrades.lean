import ViiCore.Transactions.EntryEffects

/-!
Ledger upgrades (`herder/Upgrades.cpp`) and what they do to the books.

`prepareLiabilities` visits the offers of one account after the other. The maps of
liabilities it builds for an account are finite maps here, visited in the order of their
insertion; each of their assets is handled on its own.
-/

namespace ViiCore.Herder

open ViiCore.Ledger ViiCore.FiniteMap ViiCore.Execution ViiCore.Transactions

inductive LedgerUpgrade where
  | LEDGER_UPGRADE_VERSION (newLedgerVersion : Nat)
  | LEDGER_UPGRADE_BASE_FEE (newBaseFee : Nat)
  | LEDGER_UPGRADE_MAX_TX_SET_SIZE (newMaxTxSetSize : Nat)
  | LEDGER_UPGRADE_BASE_RESERVE (newBaseReserve : Nat)
  deriving DecidableEq

/-- The values of an upgrade that can be decoded at all. -/
def isValidForApply (upgrade : LedgerUpgrade) (header : LedgerHeader) (maxLedgerVersion : Nat) :
    Bool :=
  match upgrade with
  | .LEDGER_UPGRADE_VERSION newVersion =>
      newVersion ≤ maxLedgerVersion ∧ newVersion > header.ledgerVersion
  | .LEDGER_UPGRADE_BASE_FEE newBaseFee => newBaseFee ≠ 0
  | .LEDGER_UPGRADE_MAX_TX_SET_SIZE newMaxTxSetSize => newMaxTxSetSize ≠ 0
  | .LEDGER_UPGRADE_BASE_RESERVE newBaseReserve => newBaseReserve ≠ 0

/-! ### Preparing the liabilities of one account -/

/-- A sum of liabilities that has overflowed is `none`. -/
abbrev InitialLiabilities := Map Asset (Option Int)

def addLiabilities (liabilities : InitialLiabilities) (accountID : AccountID) (asset : Asset)
    (delta : Int) : Except Fault InitialLiabilities :=
  let sum := (liabilities.lookup asset).getD (some 0)
  if asset.issuer? = some accountID then return liabilities.insert asset sum
  else
    match sum with
    | none => return liabilities.insert asset none
    | some value => return liabilities.insert asset (← addToBalance value delta INT64_MAX)

def getAvailableBalanceExcludingLiabilities (accountID : AccountID) (asset : Asset)
    (balanceAboveReserve : Int) : Apply Int :=
  match asset with
  | .native => return balanceAboveReserve
  | _ => do
      match ← loadTrustLine accountID asset with
      | some line => return if line.isAuthorized then line.getBalance else 0
      | none => return 0

def getAvailableLimitExcludingLiabilities (accountID : AccountID) (asset : Asset) (balance : Int) :
    Apply Int :=
  match asset with
  | .native => return INT64_MAX - balance
  | _ => do
      match ← loadTrustLine accountID asset with
      | some .issuer => return INT64_MAX
      | some (.nonIssuer line) => return if isAuthorized line then line.limit - line.balance else 0
      | none => return 0

def shouldDeleteOffer (asset : Asset) (liabilities : InitialLiabilities) (getCap : Apply Int) :
    Apply Bool :=
  match liabilities.lookup asset with
  | none => throw (.runtimeError "liabilities were not calculated")
  | some none => return true
  | some (some value) => return value > (← getCap)

inductive UpdateOfferResult where
  | Unchanged
  | Adjusted
  | AdjustedToZero
  | Erased
  deriving DecidableEq

structure Measure where
  balance : Int
  balanceAboveReserve : Int
  initialBuyingLiabilities : InitialLiabilities
  initialSellingLiabilities : InitialLiabilities

def addSide (liabilities : Map Asset Liabilities) (sellerID : AccountID) (asset : Asset)
    (old : Liabilities → Int) (update : Liabilities → Int → Liabilities) (delta : Int)
    (what : String) : Except Fault (Map Asset Liabilities) :=
  if asset.issuer? = some sellerID then return liabilities
  else do
    let current := (liabilities.lookup asset).getD ⟨0, 0⟩
    match ← addToBalance (old current) delta INT64_MAX with
    | none => throw (.runtimeError what)
    | some sum => return liabilities.insert asset (update current sum)

def keepOffer (header : LedgerHeader) (sellerID : AccountID) (offer : OfferEntry)
    (liabilities : Map Asset Liabilities) : Except Fault (Map Asset Liabilities) := do
  let bought ← addSide liabilities sellerID offer.buying Liabilities.buying
    (fun current buying => { current with buying }) (← getOfferBuyingLiabilities header offer)
    "could not add buying liabilities"
  addSide bought sellerID offer.selling Liabilities.selling
    (fun current selling => { current with selling }) (← getOfferSellingLiabilities header offer)
    "could not add selling liabilities"

/-- Whether the initial liabilities in one of the two assets are over what the account has. -/
def isOverCommitted (measure : Measure) (key : OfferKey) (offer : OfferEntry) : Apply Bool := do
  if ← shouldDeleteOffer offer.selling measure.initialSellingLiabilities
      (getAvailableBalanceExcludingLiabilities key.sellerID offer.selling
        measure.balanceAboveReserve) then
    return true
  else
    shouldDeleteOffer offer.buying measure.initialBuyingLiabilities
      (getAvailableLimitExcludingLiabilities key.sellerID offer.buying measure.balance)

def updateOffer (measure : Measure) (key : OfferKey) (liabilities : Map Asset Liabilities) :
    Apply (UpdateOfferResult × Map Asset Liabilities) := do
  let header ← loadHeader
  let offer ← offerTable.current key
  if ← isOverCommitted measure key offer then
    offerTable.erase key
    return (.Erased, liabilities)
  else
    let adjAmount ← computed (adjustOfferAmount offer.price offer.amount INT64_MAX)
    if adjAmount = 0 then
      offerTable.erase key
      return (.AdjustedToZero, liabilities)
    else
      let adjusted := { offer with amount := adjAmount }
      offerTable.store key adjusted
      let liabilities ← computed (keepOffer header key.sellerID adjusted liabilities)
      return (if adjAmount ≠ offer.amount then .Adjusted else .Unchanged, liabilities)

def updateOffers (measure : Measure) :
    List OfferKey → Map Asset Liabilities → Apply (Map Asset Liabilities)
  | [], liabilities => return liabilities
  | key :: rest, liabilities => do
      let (result, liabilities) ← updateOffer measure key liabilities
      if result = .AdjustedToZero ∨ result = .Erased then
        let _ ← addNumEntriesOf key.sellerID (-1)
        updateOffers measure rest liabilities
      else
        updateOffers measure rest liabilities

def initialLiabilities (header : LedgerHeader) (sellerID : AccountID) :
    List OfferEntry → InitialLiabilities × InitialLiabilities →
      Except Fault (InitialLiabilities × InitialLiabilities)
  | [], sums => return sums
  | offer :: rest, (buying, selling) => do
      let buying ← addLiabilities buying sellerID offer.buying
        (← getOfferBuyingLiabilities header offer)
      let selling ← addLiabilities selling sellerID offer.selling
        (← getOfferSellingLiabilities header offer)
      initialLiabilities header sellerID rest (buying, selling)

def recordLiabilities (sellerID : AccountID) (asset : Asset) (liab : Liabilities) : Apply Unit := do
  let header ← loadHeader
  match asset with
  | .native =>
      let account ← accountTable.current sellerID
      let deltaSelling := liab.selling - (← computed (getSellingLiabilities header account.ext))
      let deltaBuying := liab.buying - (← computed (getBuyingLiabilities header account.ext))
      orThrow (updateAccount sellerID (addSellingLiabilitiesToAccount · · deltaSelling))
        "invalid selling liabilities during upgrade"
      orThrow (updateAccount sellerID (addBuyingLiabilitiesToAccount · · deltaBuying))
        "invalid buying liabilities during upgrade"
  | _ =>
      match ← loadTrustLine sellerID asset with
      | none => throw (.runtimeError "TrustLineWrapper not active")
      | some .issuer => return ()
      | some (.nonIssuer line) =>
          let deltaSelling := liab.selling - (← computed (getSellingLiabilities header line.ext))
          let deltaBuying := liab.buying - (← computed (getBuyingLiabilities header line.ext))
          orThrow (updateTrustLine sellerID asset (addSellingLiabilitiesToTrustLine · · deltaSelling))
            "invalid selling liabilities during upgrade"
          orThrow (updateTrustLine sellerID asset (addBuyingLiabilitiesToTrustLine · · deltaBuying))
            "invalid buying liabilities during upgrade"

def prepareAccount (offers : List (OfferKey × OfferEntry)) (sellerID : AccountID) : Apply Unit := do
  let header ← loadHeader
  let own := offers.filter fun offer => offer.1.sellerID = sellerID
  let (initialBuyingLiabilities, initialSellingLiabilities) ← computed
    (initialLiabilities header sellerID (own.map Prod.snd) (∅, ∅))
  match ← accountTable.load sellerID with
  | none => throw (.runtimeError "account does not exist")
  | some account =>
      let measure : Measure :=
        { balance := account.balance
          balanceAboveReserve := account.balance - getMinBalance header account.numSubEntries
          initialBuyingLiabilities, initialSellingLiabilities }
      let liabilities ← updateOffers measure (own.map Prod.fst) ∅
      liabilities.entries.forM fun entry => recordLiabilities sellerID entry.1 entry.2

/-- The accounts come in the order of their ids. -/
def prepareLiabilities : Apply Unit := do
  let offers := (← get).offers.entries.map fun entry => (entry.1, entry.2)
  let sellers := (offers.map fun offer => offer.1.sellerID).dedup.insertionSort
    fun left right => left.toNat ≤ right.toNat
  sellers.forM (prepareAccount offers)

/-! ### Applying an upgrade -/

def modifyHeader (change : LedgerHeader → LedgerHeader) : Apply Unit :=
  modify fun ledger => { ledger with header := change ledger.header }

def applyVersionUpgrade (newVersion : Nat) : Apply Unit := do
  let header ← loadHeader
  modifyHeader fun header => { header with ledgerVersion := newVersion }
  if newVersion ≥ 10 ∧ header.ledgerVersion < 10 then prepareLiabilities else return ()

def applyReserveUpgrade (newReserve : Nat) : Apply Unit := do
  let header ← loadHeader
  modifyHeader fun header => { header with baseReserve := newReserve }
  if header.ledgerVersion ≥ 10 ∧ newReserve > header.baseReserve then prepareLiabilities
  else return ()

def applyTo : LedgerUpgrade → Apply Unit
  | .LEDGER_UPGRADE_VERSION newVersion => applyVersionUpgrade newVersion
  | .LEDGER_UPGRADE_BASE_FEE newBaseFee => modifyHeader fun header => { header with baseFee := newBaseFee }
  | .LEDGER_UPGRADE_MAX_TX_SET_SIZE newMaxTxSetSize =>
      modifyHeader fun header => { header with maxTxSetSize := newMaxTxSetSize }
  | .LEDGER_UPGRADE_BASE_RESERVE newReserve => applyReserveUpgrade newReserve

/-! ### Effects -/

variable {ledger : Ledger}

theorem getAvailableBalanceExcludingLiabilities_reads (accountID : AccountID) (asset : Asset)
    (balanceAboveReserve : Int) :
    Ensures (getAvailableBalanceExcludingLiabilities accountID asset balanceAboveReserve) ledger
      fun _ after => after = ledger := by
  unfold getAvailableBalanceExcludingLiabilities
  split
  · rfl
  · apply Ensures.bind (loadTrustLine_reads accountID _)
    rintro line _ rfl
    cases line <;> rfl

theorem getAvailableLimitExcludingLiabilities_reads (accountID : AccountID) (asset : Asset)
    (balance : Int) :
    Ensures (getAvailableLimitExcludingLiabilities accountID asset balance) ledger
      fun _ after => after = ledger := by
  unfold getAvailableLimitExcludingLiabilities
  split
  · rfl
  · apply Ensures.bind (loadTrustLine_reads accountID _)
    rintro line _ rfl
    rcases line with _ | _ | line <;> rfl

theorem shouldDeleteOffer_reads (asset : Asset) (liabilities : InitialLiabilities)
    (getCap : Apply Int) (reads : Ensures getCap ledger fun _ after => after = ledger) :
    Ensures (shouldDeleteOffer asset liabilities getCap) ledger fun _ after => after = ledger := by
  unfold shouldDeleteOffer
  rcases liabilities.lookup asset with _ | _ | value
  · trivial
  · rfl
  · apply Ensures.bind reads
    rintro cap _ rfl
    rfl

theorem isOverCommitted_reads (measure : Measure) (key : OfferKey) (offer : OfferEntry) :
    Ensures (isOverCommitted measure key offer) ledger fun _ after => after = ledger := by
  unfold isOverCommitted
  apply Ensures.bind (shouldDeleteOffer_reads _ _ _
    (getAvailableBalanceExcludingLiabilities_reads _ _ _))
  rintro overSold _ rfl
  cases overSold with
  | true => rfl
  | false => exact shouldDeleteOffer_reads _ _ _ (getAvailableLimitExcludingLiabilities_reads _ _ _)

theorem updateOffer_follows (measure : Measure) (key : OfferKey)
    (liabilities : Map Asset Liabilities) :
    Ensures (updateOffer measure key liabilities) ledger fun result after =>
      Follows [] (if result.1 = .AdjustedToZero ∨ result.1 = .Erased then only key.sellerID 1 else 0)
        ledger after := by
  unfold updateOffer
  simp only [Ensures, wp_bind, wp_loadHeader, wp_current, offerTable_read]
  cases found : ledger.offers.lookup key with
  | none => trivial
  | some offer =>
      apply Ensures.mono (isOverCommitted_reads measure key offer)
      rintro erase start rfl
      simp only [wp_ite, wp_bind, wp_erase, offerTable_read, offerTable_write, found]
      refine ⟨fun _ => follows_eraseOffer found, fun _ => ?_⟩
      apply Ensures.mono (computed_reads _)
      rintro adjAmount _ rfl
      simp only [found]
      refine ⟨fun _ => follows_eraseOffer found, fun _ => ?_⟩
      simp only [wp_store, offerTable_read, offerTable_write]
      apply Ensures.mono (computed_reads _)
      rintro sums _ rfl
      split <;> exact follows_storeOffer found

theorem updateOffers_follows (measure : Measure) (keys : List OfferKey)
    (liabilities : Map Asset Liabilities) :
    Ensures (updateOffers measure keys liabilities) ledger fun _ after =>
      Follows [] 0 ledger after := by
  induction keys generalizing ledger liabilities with
  | nil => exact Follows.refl ledger
  | cons key rest ih =>
      unfold updateOffers
      apply Ensures.bind (updateOffer_follows measure key liabilities)
      rintro ⟨result, sums⟩ middle updated
      simp only at updated ⊢
      split
      · rename_i gone
        rw [if_pos gone] at updated
        apply Ensures.bind (dropEntry_follows key.sellerID)
        intro _ dropped ⟨_, droppedFollows⟩
        apply Ensures.mono (ih sums)
        intro _ after late
        apply ((updated.trans droppedFollows).trans late).congr
        · intro asset
          rfl
        · intro other
          simp only [only, Pi.add_apply, Pi.zero_apply]
          split <;> rfl
      · rename_i stays
        rw [if_neg stays] at updated
        apply Ensures.mono (ih sums)
        intro _ after late
        exact updated.trans late

theorem updateAccountExt_follows (accountID : AccountID)
    (compute : LedgerHeader → AccountEntry → Except Fault (Option AccountEntry))
    (onlyExt : ∀ header account updated, compute header account = .ok (some updated) →
      ∃ ext, updated = { account with ext }) (what : String) :
    Ensures (orThrow (updateAccount accountID compute) what) ledger fun _ after =>
      Follows [] 0 ledger after := by
  apply orThrow_ensures
  apply Ensures.mono (updateAccount_ensures accountID compute)
  intro ok after result
  cases ok with
  | false => exact result
  | true =>
      obtain ⟨account, updated, found, added, rfl⟩ := result
      obtain ⟨ext, rfl⟩ := onlyExt _ _ _ added
      exact follows_accountExt found

theorem updateTrustLineExt_follows (accountID : AccountID) (asset : Asset)
    (compute : LedgerHeader → TrustLineEntry → Except Fault (Option TrustLineEntry))
    (onlyExt : ∀ header line updated, compute header line = .ok (some updated) →
      ∃ ext, updated = { line with ext }) (what : String) :
    Ensures (orThrow (updateTrustLine accountID asset compute) what) ledger fun _ after =>
      Follows [] 0 ledger after := by
  apply orThrow_ensures
  apply Ensures.mono (updateTrustLine_ensures accountID asset compute)
  intro ok after result
  cases ok with
  | false => exact result
  | true =>
      rcases result with ⟨-, rfl⟩ | ⟨line, updated, -, -, found, added, rfl⟩
      · exact Follows.refl after
      · obtain ⟨ext, rfl⟩ := onlyExt _ _ _ added
        exact follows_sameBalance _ found rfl

theorem recordLiabilities_follows (sellerID : AccountID) (asset : Asset) (liab : Liabilities) :
    Ensures (recordLiabilities sellerID asset liab) ledger fun _ after =>
      Follows [] 0 ledger after := by
  unfold recordLiabilities
  simp only [Ensures, wp_bind, wp_loadHeader]
  cases asset with
  | native =>
      simp only [wp_bind, wp_current, accountTable_read]
      cases ledger.accounts.lookup sellerID with
      | none => trivial
      | some account =>
          apply Ensures.mono (computed_reads _)
          rintro selling _ rfl
          apply Ensures.mono (computed_reads _)
          rintro buying _ rfl
          apply Ensures.mono (updateAccountExt_follows sellerID _
            (fun _ _ _ added => (addSellingLiabilitiesToAccount_some added).imp fun _ facts => facts.1) _)
          intro _ middle early
          apply Ensures.mono (updateAccountExt_follows sellerID _
            (fun _ _ _ added => (addBuyingLiabilitiesToAccount_some added).imp fun _ facts => facts.1) _)
          intro _ after late
          exact early.trans late
  | alphaNum4 code issuer => exact onLine _
  | alphaNum12 code issuer => exact onLine _
where
  onLine (asset : Asset) : Ensures (do
      match ← loadTrustLine sellerID asset with
      | none => throw (.runtimeError "TrustLineWrapper not active")
      | some .issuer => return ()
      | some (.nonIssuer line) =>
          let deltaSelling := liab.selling - (← computed (getSellingLiabilities ledger.header line.ext))
          let deltaBuying := liab.buying - (← computed (getBuyingLiabilities ledger.header line.ext))
          orThrow (updateTrustLine sellerID asset (addSellingLiabilitiesToTrustLine · · deltaSelling))
            "invalid selling liabilities during upgrade"
          orThrow (updateTrustLine sellerID asset (addBuyingLiabilitiesToTrustLine · · deltaBuying))
            "invalid buying liabilities during upgrade") ledger
      fun _ after => Follows [] 0 ledger after := by
    apply Ensures.bind (loadTrustLine_reads sellerID asset)
    rintro line _ rfl
    rcases line with _ | _ | line
    · trivial
    · exact Follows.refl _
    · simp only [Ensures, wp_bind]
      apply Ensures.mono (computed_reads _)
      rintro selling _ rfl
      apply Ensures.mono (computed_reads _)
      rintro buying _ rfl
      apply Ensures.mono (updateTrustLineExt_follows sellerID asset _
        (fun _ _ _ added => (addSellingLiabilitiesToTrustLine_some added).imp fun _ facts => facts.1) _)
      intro _ middle early
      apply Ensures.mono (updateTrustLineExt_follows sellerID asset _
        (fun _ _ _ added => (addBuyingLiabilitiesToTrustLine_some added).imp fun _ facts => facts.1) _)
      intro _ after late
      exact early.trans late

theorem prepareAccount_follows (offers : List (OfferKey × OfferEntry)) (sellerID : AccountID)
    (start : Ledger) :
    Ensures (prepareAccount offers sellerID) start fun _ after => Follows [] 0 start after := by
  unfold prepareAccount
  simp only [Ensures, wp_bind, wp_loadHeader]
  apply Ensures.mono (computed_reads _)
  rintro ⟨buying, selling⟩ _ rfl
  simp only [wp_load, accountTable_read]
  split
  · trivial
  · simp only [wp_bind]
    apply Ensures.mono (updateOffers_follows _ _ _)
    intro liabilities middle early
    have recorded := forM_follows liabilities.entries
      (fun entry => recordLiabilities sellerID entry.1 entry.2)
      (fun entry _ => recordLiabilities_follows sellerID entry.1 entry.2) middle
    apply Ensures.mono recorded
    intro _ after late
    exact early.trans late

theorem prepareLiabilities_follows :
    Ensures prepareLiabilities ledger fun _ after => Follows [] 0 ledger after := by
  unfold prepareLiabilities
  simp only [Ensures, wp_bind, wp_get]
  exact forM_follows _ _ (fun sellerID start => prepareAccount_follows _ sellerID start) ledger

end ViiCore.Herder
