import ViiCore.Herder.Upgrades
import ViiCore.Transactions.Conservation

/-!
Which functions can end with the exception "invalid account state".

Only `addNumEntries` throws it, and only when a count would fall below zero. A computation
that `Spares` or `Avoids` it never ends with it; the rules follow the structure of a `do`
block, and one lemma for each function that takes no sub-entry away is derived from them.
-/

namespace ViiCore.Transactions

open ViiCore.Ledger ViiCore.FiniteMap ViiCore.Execution

variable {α β : Type}

abbrev invalidAccountState : Fault := .runtimeError "invalid account state"

/-! ### Rules -/

def Spares (result : Except Fault α) : Prop := result ≠ .error invalidAccountState

@[grind ←] theorem Spares.pure (value : α) : Spares (pure value) := by
  intro same
  cases same

@[grind ←] theorem Spares.throw {fault : Fault} (different : fault ≠ invalidAccountState) :
    Spares (throw fault : Except Fault α) := by
  intro same
  cases same
  exact different rfl

@[grind ←] theorem Spares.bind {x : Except Fault α} {f : α → Except Fault β} (first : Spares x)
    (second : ∀ value, Spares (f value)) : Spares (x >>= f) := by
  cases x with
  | ok value => exact second value
  | error fault =>
      intro same
      cases same
      exact first rfl

/-- From one ledger on, a computation does not end with the exception. -/
def Safe (x : Apply α) (ledger : Ledger) : Prop :=
  wp x (fun _ _ => True) (fun fault _ => fault ≠ invalidAccountState) ledger

def Avoids (x : Apply α) : Prop := ∀ ledger, Safe x ledger

theorem Safe.bind {x : Apply α} {f : α → Apply β} {ledger : Ledger} {post : α → Ledger → Prop}
    (first : Safe x ledger) (ensured : Ensures x ledger post)
    (second : ∀ value after, post value after → Safe (f value) after) :
    Safe (x >>= f) ledger := by
  unfold Safe at first ⊢
  rw [wp_bind]
  unfold Ensures wp at ensured
  unfold wp at first ⊢
  split
  · rename_i value after ran
    rw [ran] at ensured
    exact second value after ensured
  · rename_i fault after ran
    rw [ran] at first
    exact first

@[grind ←] theorem Avoids.pure (value : α) : Avoids (pure value) := by
  intro ledger
  trivial

@[grind ←] theorem Avoids.throw {fault : Fault} (different : fault ≠ invalidAccountState) :
    Avoids (throw fault : Apply α) := by
  intro ledger
  exact different

@[grind ←] theorem Avoids.bind {x : Apply α} {f : α → Apply β} (first : Avoids x)
    (second : ∀ value, Avoids (f value)) : Avoids (x >>= f) := by
  intro ledger
  apply Safe.bind (first ledger) (ensures_true x)
  intro value after _
  exact second value after

theorem Safe.read {x : Apply α} {f : α → Apply β} {ledger : Ledger} (first : Avoids x)
    (reads : Ensures x ledger fun _ after => after = ledger)
    (second : ∀ value, Safe (f value) ledger) : Safe (x >>= f) ledger := by
  apply Safe.bind (first ledger) reads
  rintro value _ rfl
  exact second value

theorem Safe.followed {x : Apply α} {f : α → Apply β} {ledger : Ledger} (first : Safe x ledger)
    (second : ∀ value, Avoids (f value)) : Safe (x >>= f) ledger := by
  apply Safe.bind first (ensures_true x)
  intro value after _
  exact second value after

theorem Safe.load {κ ν : Type} [DecidableEq κ] {table : Table κ ν} {key : κ}
    {f : Option ν → Apply β} {ledger : Ledger}
    (second : Safe (f ((table.read ledger).lookup key)) ledger) :
    Safe (table.load key >>= f) ledger :=
  second

theorem Safe.header {f : LedgerHeader → Apply β} {ledger : Ledger}
    (second : Safe (f ledger.header) ledger) : Safe (loadHeader >>= f) ledger :=
  second

@[grind ←] theorem Avoids.computed {result : Except Fault α} (spares : Spares result) :
    Avoids (computed result) := by
  intro ledger
  rw [Safe, wp_computed]
  cases result with
  | ok value => trivial
  | error fault =>
      intro same
      apply spares
      rw [same]

@[grind ←] theorem Avoids.get : Avoids (get : Apply Ledger) := by
  intro ledger
  trivial

@[grind ←] theorem Avoids.set (after : Ledger) : Avoids (set after : Apply PUnit) := by
  intro ledger
  trivial

@[grind ←] theorem Avoids.loadHeader : Avoids loadHeader := by
  intro ledger
  trivial

section Tables

variable {κ ν : Type} [DecidableEq κ] (table : Table κ ν) (key : κ)

@[grind ←] theorem Avoids.load : Avoids (table.load key) := by
  intro ledger
  trivial

@[grind ←] theorem Avoids.store (entry : ν) : Avoids (table.store key entry) := by
  intro ledger
  trivial

@[grind ←] theorem Avoids.current : Avoids (table.current key) := by
  unfold Table.current
  grind

@[grind ←] theorem Avoids.create (entry : ν) : Avoids (table.create key entry) := by
  unfold Table.create
  grind

@[grind ←] theorem Avoids.erase : Avoids (table.erase key) := by
  intro ledger
  rw [Safe, wp_erase]
  split
  · simp
  · trivial

theorem Safe.erase {table : Table κ ν} {key : κ} {f : Unit → Apply β} {ledger : Ledger}
    (second : ∀ entry, (table.read ledger).lookup key = some entry →
      Safe (f ()) (table.write ((table.read ledger).erase key) ledger)) :
    Safe (table.erase key >>= f) ledger := by
  rw [Safe, wp_bind, wp_erase]
  cases found : (table.read ledger).lookup key with
  | none => simp
  | some entry => exact second entry found

end Tables

@[grind ←] theorem Avoids.rolledBack {body : Apply α} (avoids : Avoids body) :
    Avoids (rolledBack body) := by
  unfold Ledger.rolledBack
  grind

@[grind ←] theorem Avoids.andThen {step : Apply (Except OperationFailure α)}
    {next : α → Apply (Except OperationFailure β)} (first : Avoids step)
    (second : ∀ value, Avoids (next value)) : Avoids (andThen step next) := by
  unfold Transactions.andThen
  grind

/-! ### Arithmetic -/

@[grind ←] theorem assertThat_spares (holds : Bool) (what : String) :
    Spares (assertThat holds what) := by
  unfold assertThat
  grind

@[grind ←] theorem bigDivide_spares (a b c : Int) (rounding : Rounding) :
    Spares (bigDivide a b c rounding) := by
  unfold bigDivide
  grind

@[grind ←] theorem bigDivideOrThrow_spares (a b c : Int) (rounding : Rounding) :
    Spares (bigDivideOrThrow a b c rounding) := by
  unfold bigDivideOrThrow
  grind

@[grind ←] theorem bigDivide128_spares (a : Nat) (b : Int) (rounding : Rounding) :
    Spares (bigDivide128 a b rounding) := by
  unfold bigDivide128
  grind

@[grind ←] theorem bigDivide128OrThrow_spares (a : Nat) (b : Int) (rounding : Rounding) :
    Spares (bigDivide128OrThrow a b rounding) := by
  unfold bigDivide128OrThrow
  grind

@[grind ←] theorem bigMultiply_spares (a b : Int) :
    Spares (bigMultiply a b) := by
  unfold bigMultiply
  grind

@[grind ←] theorem addToBalance_spares (balance delta maxBalance : Int) :
    Spares (addToBalance balance delta maxBalance) := by
  unfold addToBalance
  grind

@[grind ←] theorem exchangeV2_spares (wheat : Int) (price : Price) (maxWheat maxSheep : Int) :
    Spares (exchangeV2 wheat price maxWheat maxSheep) := by
  unfold exchangeV2
  grind

@[grind ←] theorem exchangeV3_spares (wheat : Int) (price : Price) (maxWheat maxSheep : Int) :
    Spares (exchangeV3 wheat price maxWheat maxSheep) := by
  unfold exchangeV3
  grind

@[grind ←] theorem checkPriceErrorBound_spares (price : Price) (wheat sheep : Int) (favor : Bool) :
    Spares (checkPriceErrorBound price wheat sheep favor) := by
  unfold checkPriceErrorBound
  grind

@[grind ←] theorem calculateOfferValue_spares (priceN priceD maxSend maxReceive : Int) :
    Spares (calculateOfferValue priceN priceD maxSend maxReceive) := by
  unfold calculateOfferValue
  grind

@[grind ←] theorem exchangeAmounts_spares (price : Price) (wheatValue sheepValue : Nat) (isPath : Bool) :
    Spares (exchangeAmounts price wheatValue sheepValue isPath) := by
  unfold exchangeAmounts
  grind

@[grind ←] theorem exchangeWithout_spares (price : Price) (a b c d : Int) (isPath : Bool) :
    Spares (exchangeV10WithoutPriceErrorThresholds price a b c d isPath) := by
  unfold exchangeV10WithoutPriceErrorThresholds
  grind

@[grind ←] theorem applyPriceErrorThresholds_spares (price : Price) (wheat sheep : Int) (stays isPath : Bool) :
    Spares (applyPriceErrorThresholds price wheat sheep stays isPath) := by
  unfold applyPriceErrorThresholds
  grind

@[grind ←] theorem exchangeV10_spares (price : Price) (a b c d : Int) (isPath : Bool) :
    Spares (exchangeV10 price a b c d isPath) := by
  unfold exchangeV10
  grind

@[grind ←] theorem adjustOfferAmount_spares (price : Price) (maxWheat maxSheep : Int) :
    Spares (adjustOfferAmount price maxWheat maxSheep) := by
  unfold adjustOfferAmount
  grind

/-! ### Entries -/

section Entries

variable (header : LedgerHeader) (account : AccountEntry) (line : TrustLineEntry) (delta : Int)

@[grind ←] theorem unsignedToSigned_spares (value : Nat) :
    Spares (unsignedToSigned value) := by
  unfold unsignedToSigned
  grind

@[grind ←] theorem getLiabilities_spares (ext : Option Liabilities) :
    Spares (getLiabilities header ext) := by
  unfold getLiabilities
  grind

@[grind ←] theorem getBuyingLiabilities_spares (ext : Option Liabilities) :
    Spares (getBuyingLiabilities header ext) := by
  unfold getBuyingLiabilities
  grind

@[grind ←] theorem getSellingLiabilities_spares (ext : Option Liabilities) :
    Spares (getSellingLiabilities header ext) := by
  unfold getSellingLiabilities
  grind

@[grind ←] theorem getReservedBalance_spares (ext : Option Liabilities) :
    Spares (getReservedBalance header ext) := by
  unfold getReservedBalance
  grind

@[grind ←] theorem getReservedLimit_spares (ext : Option Liabilities) :
    Spares (getReservedLimit header ext) := by
  unfold getReservedLimit
  grind

@[grind ←] theorem addBalanceToAccount_spares :
    Spares (addBalanceToAccount header account delta) := by
  unfold addBalanceToAccount
  grind

@[grind ←] theorem addBuyingLiabilitiesToAccount_spares :
    Spares (addBuyingLiabilitiesToAccount header account delta) := by
  unfold addBuyingLiabilitiesToAccount
  grind

@[grind ←] theorem addSellingLiabilitiesToAccount_spares :
    Spares (addSellingLiabilitiesToAccount header account delta) := by
  unfold addSellingLiabilitiesToAccount
  grind

@[grind ←] theorem getAvailableBalanceOfAccount_spares :
    Spares (getAvailableBalanceOfAccount header account) := by
  unfold getAvailableBalanceOfAccount
  grind

@[grind ←] theorem getMaxAmountReceiveOfAccount_spares :
    Spares (getMaxAmountReceiveOfAccount header account) := by
  unfold getMaxAmountReceiveOfAccount
  grind

@[grind ←] theorem addBalanceToTrustLine_spares :
    Spares (addBalanceToTrustLine header line delta) := by
  unfold addBalanceToTrustLine
  grind

@[grind ←] theorem addBuyingLiabilitiesToTrustLine_spares :
    Spares (addBuyingLiabilitiesToTrustLine header line delta) := by
  unfold addBuyingLiabilitiesToTrustLine
  grind

@[grind ←] theorem addSellingLiabilitiesToTrustLine_spares :
    Spares (addSellingLiabilitiesToTrustLine header line delta) := by
  unfold addSellingLiabilitiesToTrustLine
  grind

@[grind ←] theorem getAvailableBalanceOfTrustLine_spares :
    Spares (getAvailableBalanceOfTrustLine header line) := by
  unfold getAvailableBalanceOfTrustLine
  grind

@[grind ←] theorem getMaxAmountReceiveOfTrustLine_spares :
    Spares (getMaxAmountReceiveOfTrustLine header line) := by
  unfold getMaxAmountReceiveOfTrustLine
  grind

@[grind ←] theorem getMinimumLimit_spares :
    Spares (getMinimumLimit header line) := by
  unfold getMinimumLimit
  grind

@[grind ←] theorem getAvailableBalance_spares (wrapper : TrustLineWrapper) :
    Spares (wrapper.getAvailableBalance header) := by
  unfold TrustLineWrapper.getAvailableBalance
  grind

@[grind ←] theorem getMaxAmountReceive_spares (wrapper : TrustLineWrapper) :
    Spares (wrapper.getMaxAmountReceive header) := by
  unfold TrustLineWrapper.getMaxAmountReceive
  grind

@[grind ←] theorem offerLiabilities_spares (price : Price) (amount : Int) :
    Spares (offerLiabilities price amount) := by
  unfold offerLiabilities
  grind

@[grind ←] theorem getOfferBuyingLiabilities_spares (offer : OfferEntry) :
    Spares (getOfferBuyingLiabilities header offer) := by
  unfold getOfferBuyingLiabilities
  grind

@[grind ←] theorem getOfferSellingLiabilities_spares (offer : OfferEntry) :
    Spares (getOfferSellingLiabilities header offer) := by
  unfold getOfferSellingLiabilities
  grind

@[grind ←] theorem addNumEntries_spares {count : Int}
    (stays : 0 ≤ (account.numSubEntries : Int) + count) :
    Spares (addNumEntries header account count) := by
  unfold addNumEntries
  cases signed : unsignedToSigned account.numSubEntries with
  | error fault =>
      have spares := unsignedToSigned_spares account.numSubEntries
      rw [signed] at spares
      intro same
      cases same
      exact spares rfl
  | ok value =>
      have same : value = account.numSubEntries := by
        unfold unsignedToSigned at signed
        split at signed
        · cases signed
        · cases signed
          rfl
      have nonneg : ¬ value + count < 0 := by omega
      change Spares (if _ then _ else if value + count < 0 then _ else _)
      rw [if_neg nonneg]
      grind

end Entries

/-! ### Stored entries -/

@[grind ←] theorem loadTrustLine_avoids (accountID : AccountID) (asset : Asset) :
    Avoids (loadTrustLine accountID asset) := by
  unfold loadTrustLine
  grind

@[grind ←] theorem loadTrustLineIfNotNative_avoids (accountID : AccountID) (asset : Asset) :
    Avoids (loadTrustLineIfNotNative accountID asset) := by
  unfold loadTrustLineIfNotNative
  grind

@[grind ←] theorem updateAccount_avoids (accountID : AccountID)
    {compute : LedgerHeader → AccountEntry → Except Fault (Option AccountEntry)}
    (spares : ∀ header account, Spares (compute header account)) :
    Avoids (updateAccount accountID compute) := by
  unfold updateAccount
  grind

@[grind ←] theorem updateTrustLine_avoids (accountID : AccountID) (asset : Asset)
    {compute : LedgerHeader → TrustLineEntry → Except Fault (Option TrustLineEntry)}
    (spares : ∀ header line, Spares (compute header line)) :
    Avoids (updateTrustLine accountID asset compute) := by
  unfold updateTrustLine
  apply Avoids.bind Avoids.loadHeader
  intro header
  apply Avoids.bind (loadTrustLine_avoids accountID asset)
  intro wrapper
  rcases wrapper with _ | _ | line
  · grind
  · grind
  · grind

@[grind ←] theorem addBalance_avoids (accountID : AccountID) (asset : Asset) (delta : Int) :
    Avoids (addBalance accountID asset delta) := by
  unfold addBalance
  grind

@[grind ←] theorem addNumEntriesOf_avoids (accountID : AccountID) {count : Int}
    (grows : 0 ≤ count) : Avoids (addNumEntriesOf accountID count) := by
  unfold addNumEntriesOf
  grind

@[grind ←] theorem generateID_avoids : Avoids generateID := by
  unfold generateID
  grind

@[grind ←] theorem addLiabilitiesOf_avoids (sellerID : AccountID) (asset : Asset)
    {native : LedgerHeader → AccountEntry → Except Fault (Option AccountEntry)}
    {credit : LedgerHeader → TrustLineEntry → Except Fault (Option TrustLineEntry)}
    (nativeSpares : ∀ header account, Spares (native header account))
    (creditSpares : ∀ header line, Spares (credit header line)) :
    Avoids (addLiabilitiesOf sellerID asset native credit) := by
  unfold addLiabilitiesOf
  grind

@[grind ←] theorem orThrow_avoids {action : Apply Bool} {what : String} (avoids : Avoids action)
    (different : what ≠ "invalid account state") : Avoids (orThrow action what) := by
  unfold orThrow
  grind

@[grind ←] theorem acquireOrReleaseLiabilities_avoids (sellerID : AccountID) (offer : OfferEntry)
    (isAcquire : Bool) : Avoids (acquireOrReleaseLiabilities sellerID offer isAcquire) := by
  unfold acquireOrReleaseLiabilities
  grind

@[grind ←] theorem acquireLiabilities_avoids (sellerID : AccountID) (offer : OfferEntry) :
    Avoids (acquireLiabilities sellerID offer) :=
  acquireOrReleaseLiabilities_avoids sellerID offer true

@[grind ←] theorem releaseLiabilities_avoids (sellerID : AccountID) (offer : OfferEntry) :
    Avoids (releaseLiabilities sellerID offer) :=
  acquireOrReleaseLiabilities_avoids sellerID offer false

/-! ### Crossing offers -/

@[grind ←] theorem canSellAtMostBasedOnSheep_spares (header : LedgerHeader) (sheep : Asset)
    (line : Option TrustLineWrapper) (price : Price) :
    Spares (canSellAtMostBasedOnSheep header sheep line price) := by
  unfold canSellAtMostBasedOnSheep
  cases line with
  | none => grind
  | some wrapper => grind

@[grind ←] theorem activeAccount_spares (account : Option AccountEntry) :
    Spares (activeAccount account) := by
  unfold activeAccount
  grind

@[grind ←] theorem canSellAtMost_spares (header : LedgerHeader) (account : Option AccountEntry)
    (asset : Asset) (line : Option TrustLineWrapper) :
    Spares (canSellAtMost header account asset line) := by
  unfold canSellAtMost
  grind

@[grind ←] theorem canBuyAtMost_spares (header : LedgerHeader) (account : Option AccountEntry)
    (asset : Asset) (line : Option TrustLineWrapper) :
    Spares (canBuyAtMost header account asset line) := by
  unfold canBuyAtMost
  grind

@[grind ←] theorem tradeLimits_avoids (accountID : AccountID) (selling buying : Asset) :
    Avoids (tradeLimits accountID selling buying) := by
  unfold tradeLimits
  grind

@[grind ←] theorem adjustOffer_avoids (sellerID : AccountID) (offer : OfferEntry) :
    Avoids (adjustOffer sellerID offer) := by
  unfold adjustOffer
  grind

@[grind ←] theorem performExchange_spares (header : LedgerHeader) (offer : OfferEntry)
    (account : AccountEntry) (wheatLine sheepLine : Option TrustLineWrapper) (maxWheat maxSheep : Int) :
    Spares (performExchange header offer account wheatLine sheepLine maxWheat maxSheep) := by
  unfold performExchange
  grind

@[grind ←] theorem addBalanceUnlessZero_avoids (accountID : AccountID) (asset : Asset) (delta : Int) :
    Avoids (addBalanceUnlessZero accountID asset delta) := by
  unfold addBalanceUnlessZero
  grind

@[grind ←] theorem remainingAmount_avoids (key : OfferKey) (offer : OfferEntry) (exchange : ExchangeResultV10) :
    Avoids (remainingAmount key offer exchange) := by
  unfold remainingAmount
  grind

@[grind ←] theorem checkBounds_spares (crossing : Crossing) (progress : ConvertProgress) :
    Spares (crossing.checkBounds progress) := by
  unfold Crossing.checkBounds
  grind

/-! ### Taking sub-entries away -/

/-- No account has fewer sub-entries on record than it owns. -/
def Covered (ledger : Ledger) : Prop := ∀ accountID, 0 ≤ surplus accountID ledger

theorem Covered.follow {before after : Ledger} {moves : List Movement} {entries : AccountID → Int}
    (covered : Covered before) (follows : Follows moves entries before after)
    (grows : ∀ accountID, 0 ≤ entries accountID) : Covered after := by
  intro accountID
  rw [follows.counted]
  exact Int.add_nonneg (covered accountID) (grows accountID)

theorem Safe.andThen {step : Apply (Except OperationFailure α)}
    {next : α → Apply (Except OperationFailure β)} {ledger : Ledger} {mid : α → Ledger → Prop}
    (first : Safe step ledger) (ensured : Succeeds step ledger mid)
    (second : ∀ value after, mid value after → Safe (next value) after) :
    Safe (andThen step next) ledger := by
  unfold Transactions.andThen
  apply Safe.bind first ensured
  intro result after reached
  cases result with
  | error code => trivial
  | ok value => exact second value after (reached value rfl)

theorem Safe.nested {body : Apply (Except OperationFailure α)} {ledger : Ledger}
    (safe : Safe body ledger) : Safe (nested body) ledger := by
  unfold Transactions.nested
  have reads : Ensures (get : Apply Ledger) ledger fun _ after => after = ledger := rfl
  apply Safe.read Avoids.get reads
  intro before
  apply Safe.followed safe
  grind

section Counting

variable {κ ν : Type} [DecidableEq κ] (owns : κ → Prop) [DecidablePred owns] (map : Map κ ν)

theorem one_le_count {key : κ} {value : ν} (found : map.lookup key = some value)
    (owned : owns key) : 1 ≤ total (fun key _ => one (owns key)) map := by
  have part := share_le_total (fun key _ => one (owns key)) map key
    (fun other _ _ => one_nonneg (owns other))
  rw [share_of_lookup found, one, if_pos owned] at part
  exact part

end Counting

structure OwnsNothing (accountID : AccountID) (ledger : Ledger) : Prop where
  trustLines : ∀ key, key.accountID = accountID → ledger.trustLines.lookup key = none
  offers : ∀ key, key.sellerID = accountID → ledger.offers.lookup key = none
  data : ∀ key, key.accountID = accountID → ledger.data.lookup key = none

section Owned

variable (accountID : AccountID) (ledger : Ledger)

theorem ownsNothing_iff : ownedEntries accountID ledger = 0 ↔ OwnsNothing accountID ledger := by
  have lines := count_nonneg (fun key : TrustLineKey => key.accountID = accountID) ledger.trustLines
  have offers := count_nonneg (fun key : OfferKey => key.sellerID = accountID) ledger.offers
  have data := count_nonneg (fun key : DataKey => key.accountID = accountID) ledger.data
  unfold ownedEntries
  constructor
  · intro zero
    constructor
    · intro key owned
      by_contra present
      obtain ⟨line, found⟩ := Option.ne_none_iff_exists'.mp present
      have counted := one_le_count (fun key : TrustLineKey => key.accountID = accountID) _ found owned
      omega
    · intro key owned
      by_contra present
      obtain ⟨offer, found⟩ := Option.ne_none_iff_exists'.mp present
      have counted := one_le_count (fun key : OfferKey => key.sellerID = accountID) _ found owned
      omega
    · intro key owned
      by_contra present
      obtain ⟨value, found⟩ := Option.ne_none_iff_exists'.mp present
      have counted := one_le_count (fun key : DataKey => key.accountID = accountID) _ found owned
      omega
  · intro nothing
    have unowned : ∀ {κ ν : Type} [DecidableEq κ] (owns : κ → Prop) [DecidablePred owns]
        (map : Map κ ν), (∀ key, owns key → map.lookup key = none) →
        total (fun key _ => one (owns key)) map = 0 := by
      intro κ ν _ owns _ map absent
      apply total_zero
      intro key value found
      unfold one
      rw [if_neg]
      intro owned
      rw [absent key owned] at found
      cases found
    rw [unowned _ ledger.trustLines nothing.trustLines, unowned _ ledger.offers nothing.offers,
      unowned _ ledger.data nothing.data]
    rfl

end Owned

theorem dropEntry_safe {ledger : Ledger} (accountID : AccountID)
    (positive : 0 < surplus accountID ledger + ownedEntries accountID ledger) :
    Safe (addNumEntriesOf accountID (-1)) ledger := by
  unfold addNumEntriesOf
  simp only [Safe, wp_bind, wp_loadHeader, wp_current, accountTable_read]
  cases found : ledger.accounts.lookup accountID with
  | none => simp
  | some account =>
      have counted : 0 < account.numSubEntries := by
        simp only [surplus, found, Option.map_some, Option.getD_some] at positive
        omega
      have spares : Spares (addNumEntries ledger.header account (-1)) :=
        addNumEntries_spares _ _ (by omega)
      simp only [wp_computed]
      cases ran : addNumEntries ledger.header account (-1) with
      | ok result => trivial
      | error fault =>
          rw [ran] at spares
          intro same
          apply spares
          rw [same]

theorem dropSpareEntry_safe {ledger : Ledger} (accountID : AccountID)
    (spare : 0 < surplus accountID ledger) : Safe (addNumEntriesOf accountID (-1)) ledger := by
  apply dropEntry_safe
  have owned := ownedEntries_nonneg accountID ledger
  omega

theorem Covered.spare {before after : Ledger} {moves : List Movement} {accountID : AccountID}
    (covered : Covered before) (erased : Follows moves (only accountID 1) before after) :
    Safe (addNumEntriesOf accountID (-1)) after := by
  apply dropSpareEntry_safe
  rw [erased.counted]
  have counted := covered accountID
  simp only [only, if_true]
  omega

/-! ### Crossing -/

section Crossing

variable {ledger : Ledger}

theorem eraseOffer_safe (covered : Covered ledger) (key : OfferKey) :
    Safe (eraseOffer key) ledger := by
  unfold eraseOffer
  apply Safe.erase
  intro offer found
  exact (covered.spare (follows_eraseOffer found)).followed (by grind)

theorem settleOffer_safe (covered : Covered ledger) (key : OfferKey) (offer : OfferEntry) :
    Safe (settleOffer key offer) ledger := by
  unfold settleOffer
  split
  · exact eraseOffer_safe covered key
  · exact Avoids.store offerTable key offer ledger

theorem settleOfferV10_safe (covered : Covered ledger) (key : OfferKey) (offer : OfferEntry) :
    Safe (settleOfferV10 key offer) ledger := by
  unfold settleOfferV10
  split
  · exact eraseOffer_safe covered key
  · have stored : Avoids (do
        offerTable.store key offer
        acquireLiabilities key.sellerID offer) := by
      grind
    exact stored ledger

theorem crossOffer_safe (covered : Covered ledger) {key : OfferKey} {offer : OfferEntry}
    (maxWheatReceived maxSheepSend : Int) :
    Safe (crossOffer key offer maxWheatReceived maxSheepSend) ledger := by
  unfold crossOffer
  apply Safe.read (by grind) (computed_reads _)
  intro _
  apply Safe.read (by grind) (computed_reads _)
  intro _
  apply Safe.load
  cases (accountTable.read ledger).lookup key.sellerID with
  | none => exact Avoids.throw (by simp) ledger
  | some accountB =>
      apply Safe.header
      apply Safe.read (by grind) (loadTrustLineIfNotNative_reads _ _)
      intro sheepLine
      apply Safe.read (by grind) (loadTrustLineIfNotNative_reads _ _)
      intro wheatLine
      apply Safe.read (by grind) (computed_reads _)
      intro exchange
      dsimp only
      split
      · trivial
      · apply Safe.followed (settleOffer_safe covered key _)
        grind

theorem crossOfferV10_safe (covered : Covered ledger) {key : OfferKey} {offer : OfferEntry}
    (maxWheatReceived maxSheepSend : Int) (isPathPayment : Bool) :
    Safe (crossOfferV10 key offer maxWheatReceived maxSheepSend isPathPayment) ledger := by
  unfold crossOfferV10
  apply Safe.read (by grind) (computed_reads _)
  intro _
  apply Safe.read (by grind) (computed_reads _)
  intro _
  apply Safe.load
  cases (accountTable.read ledger).lookup key.sellerID with
  | none => exact Avoids.throw (by simp) ledger
  | some accountB =>
      apply Safe.bind (releaseLiabilities_avoids key.sellerID offer ledger)
        (acquireOrReleaseLiabilities_follows key.sellerID offer false)
      intro _ released ⟨releasedFollows, _⟩
      apply Safe.read (by grind) (adjustOffer_reads _ _)
      intro adjustedAmount
      apply Safe.read (by grind) (tradeLimits_reads _ _ _)
      intro limits
      apply Safe.read (by grind) (computed_reads _)
      intro exchange
      apply Safe.bind (orThrow_avoids (addBalanceUnlessZero_avoids _ _ _) (by simp) released)
        (orThrow_ensures (addBalanceUnlessZero_follows _ _ _))
      intro _ receivedLedger ⟨received, _⟩
      apply Safe.bind (orThrow_avoids (addBalanceUnlessZero_avoids _ _ _) (by simp) receivedLedger)
        (orThrow_ensures (addBalanceUnlessZero_follows _ _ _))
      intro _ sentLedger ⟨sent, _⟩
      apply Safe.read (by grind) (remainingAmount_reads _ _ _)
      intro remaining
      have still : Covered sentLedger :=
        covered.follow (releasedFollows.trans (received.trans sent)) (fun _ => le_rfl)
      apply Safe.followed (settleOfferV10_safe still key _)
      grind

theorem crossBestOffer_safe (covered : Covered ledger) (conversion : Conversion)
    (progress : ConvertProgress) (key : OfferKey) (offer : OfferEntry) :
    Safe (crossBestOffer conversion progress key offer) ledger := by
  unfold crossBestOffer
  apply Safe.header
  split
  · exact crossOfferV10_safe covered _ _ _
  · exact crossOffer_safe covered _ _

theorem convertStep_safe (covered : Covered ledger) (conversion : Conversion)
    (progress : ConvertProgress) (filters : ∀ key offer, Spares (conversion.filter key offer)) :
    Safe (convertStep conversion progress) ledger := by
  unfold convertStep
  apply Safe.header
  have reads : Ensures (conversion.book.loadBestOffer conversion.sheep conversion.wheat) ledger
      fun _ after => after = ledger := rfl
  apply Safe.read (by unfold OrderBook.loadBestOffer; grind) reads
  intro best
  rcases best with _ | ⟨key, offer⟩
  · trivial
  · apply Safe.read (Avoids.computed (filters key offer)) (computed_reads _)
    intro verdict
    cases verdict with
    | eStop crossSelf => trivial
    | eKeep =>
        dsimp only
        split
        · trivial
        · have reads : Ensures (get : Apply Ledger) ledger fun _ after => after = ledger := rfl
          apply Safe.read Avoids.get reads
          intro before
          apply Safe.followed (crossBestOffer_safe covered conversion progress key offer)
          grind

theorem convertLoop_safe (covered : Covered ledger) (conversion : Conversion)
    (filters : ∀ key offer, Spares (conversion.filter key offer)) (start : Ledger) (fuel : Nat)
    (progress : ConvertProgress)
    (underway : Underway conversion start progress.offerTrail progress.sheepSend
      progress.wheatReceived ledger) (coveredStart : Covered start) :
    Safe (convertLoop conversion fuel progress) ledger := by
  induction fuel generalizing progress ledger with
  | zero => exact Avoids.throw (by simp) ledger
  | succ fuel ih =>
      unfold convertLoop
      apply Safe.bind (convertStep_safe covered conversion progress filters)
        (convertStep_underway conversion start progress underway)
      intro outcome after reached
      cases outcome with
      | inl converted => trivial
      | inr next =>
          have still : Covered after := coveredStart.follow reached.follows (fun _ => le_rfl)
          exact ih still next reached

theorem convertWithOffers_safe (covered : Covered ledger) (conversion : Conversion)
    (filters : ∀ key offer, Spares (conversion.filter key offer))
    (maxSheepSend maxWheatReceive : Int) :
    Safe (convertWithOffers conversion maxSheepSend maxWheatReceive) ledger := by
  unfold convertWithOffers
  have initial : Underway conversion ledger [] 0 0 ledger :=
    ⟨Follows.refl ledger, Claimed.nil conversion⟩
  dsimp only
  split
  · have reads : Ensures (get : Apply Ledger) ledger fun _ after => after = ledger := rfl
    apply Safe.read Avoids.get reads
    intro before
    exact convertLoop_safe covered conversion filters ledger _ _ initial covered
  · trivial

end Crossing

/-! ### Offer operations -/

section Offers

variable {ledger : Ledger}

structure FrameSpares (frame : ManageOfferOpFrame) : Prop where
  buying : Spares frame.getOfferBuyingLiabilities
  selling : Spares frame.getOfferSellingLiabilities
  parameters : ∀ maxSheepSend maxWheatReceive,
    Spares (frame.getExchangeParametersBeforeV10 maxSheepSend maxWheatReceive)

theorem manageSellOfferFrame_spares (sourceID : AccountID) (op : ManageSellOfferOp)
    (passive : Bool) : FrameSpares (manageSellOfferFrame sourceID op passive) where
  buying := by
    unfold manageSellOfferFrame
    grind
  selling := by
    unfold manageSellOfferFrame
    grind
  parameters maxSheepSend maxWheatReceive := by
    unfold manageSellOfferFrame
    grind

theorem manageBuyOfferFrame_spares (sourceID : AccountID) (op : ManageBuyOfferOp) :
    FrameSpares (manageBuyOfferFrame sourceID op) where
  buying := by
    unfold manageBuyOfferFrame buyOfferLiabilities
    grind
  selling := by
    unfold manageBuyOfferFrame buyOfferLiabilities
    grind
  parameters maxSheepSend maxWheatReceive := by
    unfold manageBuyOfferFrame
    grind

namespace ManageOfferOpFrame

variable (frame : ManageOfferOpFrame)

@[grind ←] theorem checkSheepLine_avoids : Avoids frame.checkSheepLine := by
  unfold checkSheepLine
  grind

@[grind ←] theorem checkWheatLine_avoids : Avoids frame.checkWheatLine := by
  unfold checkWheatLine
  grind

@[grind ←] theorem checkOfferValid_avoids : Avoids frame.checkOfferValid := by
  unfold checkOfferValid
  grind

@[grind ←] theorem addOfferEntry_avoids : Avoids frame.addOfferEntry := by
  unfold addOfferEntry
  grind

@[grind ←] theorem availableOf_spares (line : Option TrustLineWrapper)
    (source : Option AccountEntry) {native : AccountEntry → Except Fault Int}
    {credit : TrustLineWrapper → Except Fault Int} (nativeSpares : ∀ account, Spares (native account))
    (creditSpares : ∀ wrapper, Spares (credit wrapper)) (asset : Asset) :
    Spares (checkLiabilities.availableOf line source native credit asset) := by
  unfold checkLiabilities.availableOf
  grind

@[grind ←] theorem checkLiabilities_avoids (spares : FrameSpares frame) :
    Avoids frame.checkLiabilities := by
  have buying := spares.buying
  have selling := spares.selling
  unfold checkLiabilities
  apply Avoids.bind Avoids.loadHeader
  intro header
  apply Avoids.bind (Avoids.load _ _)
  intro source
  apply Avoids.bind (loadTrustLineIfNotNative_avoids _ _)
  intro sheepLine
  apply Avoids.bind (loadTrustLineIfNotNative_avoids _ _)
  intro wheatLine
  apply Avoids.bind (Avoids.computed (availableOf_spares wheatLine source
    (getMaxAmountReceiveOfAccount_spares header) (getMaxAmountReceive_spares header) frame.wheat))
  intro availableLimit
  apply Avoids.bind (Avoids.computed buying)
  intro buyingLiabilities
  split
  · exact Avoids.pure _
  · apply Avoids.bind (Avoids.computed (availableOf_spares sheepLine source
      (getAvailableBalanceOfAccount_spares header) (getAvailableBalance_spares header) frame.sheep))
    grind

@[grind ←] theorem exchangeParameters_avoids (spares : FrameSpares frame) :
    Avoids frame.exchangeParameters := by
  have parameters := spares.parameters
  unfold exchangeParameters
  grind

@[grind ←] theorem computeOfferExchangeParameters_avoids (spares : FrameSpares frame)
    (creatingNewOffer : Bool) :
    Avoids (frame.computeOfferExchangeParameters creatingNewOffer) := by
  unfold computeOfferExchangeParameters
  grind

@[grind ←] theorem filter_spares (passive : Bool) (key : OfferKey) (offer : OfferEntry) :
    Spares (frame.filter passive key offer) := by
  unfold filter
  grind

@[grind ←] theorem takeOldOffer_avoids : Avoids frame.takeOldOffer := by
  unfold takeOldOffer takeOldOffer.releaseFrom
  grind

@[grind ←] theorem settleSource_avoids (converted : Converted) :
    Avoids (frame.settleSource converted) := by
  unfold settleSource
  grind

@[grind ←] theorem amountLeft_avoids (maxSheepSend : Int) (sheepStays : Bool)
    (converted : Converted) : Avoids (frame.amountLeft maxSheepSend sheepStays converted) := by
  unfold amountLeft
  grind

@[grind ←] theorem storeOffer_avoids (key : OfferKey) (offer : OfferEntry) :
    Avoids (storeOffer key offer) := by
  unfold storeOffer
  grind

theorem crossBook_safe (covered : Covered ledger) (book : OrderBook) (passive : Bool)
    (maxSheepSend maxWheatReceive : Int) :
    Safe (frame.crossBook book passive maxSheepSend maxWheatReceive) ledger := by
  unfold crossBook
  apply Safe.header
  dsimp only
  apply Safe.followed (convertWithOffers_safe covered _ (frame.filter_spares passive) _ _)
  grind

theorem tradeOffer_safe (covered : Covered ledger) (spares : FrameSpares frame) (book : OrderBook)
    (creatingNewOffer passive : Bool) :
    Safe (frame.tradeOffer book creatingNewOffer passive) ledger := by
  unfold tradeOffer
  split
  · trivial
  · apply Safe.andThen (frame.computeOfferExchangeParameters_avoids spares creatingNewOffer ledger)
      (Succeeds.rolledBack _)
    rintro parameters _ rfl
    split
    · trivial
    · exact frame.crossBook_safe covered book passive _ _

theorem placeOffer_safe (creatingNewOffer : Bool) (flags : BitVec 32) (amount : Int)
    (spare : creatingNewOffer = false → 0 < surplus frame.sourceID ledger) :
    Safe (frame.placeOffer creatingNewOffer flags amount) ledger := by
  cases creatingNewOffer with
  | true =>
      have avoids : Avoids (frame.placeOffer true flags amount) := by
        unfold placeOffer
        grind
      exact avoids ledger
  | false =>
      unfold placeOffer
      simp only [Bool.false_eq_true, if_false]
      split
      · have avoids : Avoids (do
            storeOffer ⟨frame.sourceID, frame.offerID⟩ (frame.buildOffer amount flags)
            return Except.ok (.UPDATED ⟨frame.sourceID, frame.offerID⟩
              (frame.buildOffer amount flags)) : Apply (Except OperationFailure ManageOfferEffect)) := by
          grind
        exact avoids ledger
      · apply Safe.followed (dropSpareEntry_safe frame.sourceID (spare rfl))
        grind

theorem doApply_safe (covered : Covered ledger) (spares : FrameSpares frame) (book : OrderBook) :
    Safe (frame.doApply book) ledger := by
  unfold doApply
  apply Safe.nested
  apply Safe.andThen (frame.checkOfferValid_avoids ledger) (Succeeds.rolledBack _)
  rintro _ _ rfl
  apply Safe.andThen (frame.takeOldOffer_avoids _) (takeOldOffer_follows frame)
  rintro ⟨creatingNewOffer, flags⟩ taken takenFollows
  have coveredTaken : Covered taken := by
    apply covered.follow takenFollows
    intro accountID
    cases creatingNewOffer with
    | true => exact le_rfl
    | false =>
        simp only [Bool.false_eq_true, if_false, only]
        split <;> omega
  apply Safe.andThen (frame.tradeOffer_safe coveredTaken spares book _ _)
    (tradeOffer_follows frame book _ _)
  rintro ⟨amount, offersClaimed⟩ traded ⟨tradedFollows, _⟩
  have placed : Safe (frame.placeOffer creatingNewOffer flags amount) traded := by
    apply frame.placeOffer_safe
    rintro rfl
    rw [tradedFollows.counted, takenFollows.counted]
    have before := covered frame.sourceID
    simp only [Bool.false_eq_true, if_false, only, if_true, Pi.zero_apply]
    omega
  apply Safe.andThen placed (placeOffer_follows frame creatingNewOffer flags amount)
  intro _ _ _
  trivial

end ManageOfferOpFrame

end Offers

end ViiCore.Transactions
