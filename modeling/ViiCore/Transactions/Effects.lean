import ViiCore.Transactions.Operations

/-!
What the functions under an operation do to the books of the ledger.

`Follows moves entries before after` says that a computation moved balances exactly as
the list `moves` says, changed the count of sub-entries of each account against the
sub-entries it owns by `entries`, and let no account fall back below a sequence number it
had. The relation composes, so each function is described once from the functions it
calls.
-/

namespace ViiCore.Transactions

open ViiCore.Ledger ViiCore.FiniteMap ViiCore.Execution

/-! ### Movements of assets -/

/-- A positive amount is received by the party, a negative one is sent. -/
structure Movement where
  party : AccountID
  asset : Asset
  amount : Int

/-- What a movement changes in the balances the ledger stores for an asset: the issuer's
own side of a movement is not stored anywhere. -/
def Movement.stored (asset : Asset) (move : Movement) : Int :=
  if move.asset = asset ∧ asset.issuer? ≠ some move.party then move.amount else 0

def storedSum (asset : Asset) (moves : List Movement) : Int :=
  (moves.map (Movement.stored asset)).sum

@[simp] theorem storedSum_nil (asset : Asset) : storedSum asset [] = 0 := rfl

@[simp] theorem storedSum_cons (asset : Asset) (move : Movement) (moves : List Movement) :
    storedSum asset (move :: moves) = move.stored asset + storedSum asset moves := by
  simp [storedSum]

@[simp] theorem storedSum_append (asset : Asset) (first second : List Movement) :
    storedSum asset (first ++ second) = storedSum asset first + storedSum asset second := by
  simp [storedSum]

def ClaimOfferAtom.movements (claim : ClaimOfferAtom) : List Movement :=
  [⟨claim.sellerID, claim.assetBought, claim.amountBought⟩,
   ⟨claim.sellerID, claim.assetSold, -claim.amountSold⟩]

def claimMovements (claims : List ClaimOfferAtom) : List Movement :=
  claims.flatMap ClaimOfferAtom.movements

@[simp] theorem claimMovements_append (first second : List ClaimOfferAtom) :
    claimMovements (first ++ second) = claimMovements first ++ claimMovements second := by
  simp [claimMovements]

/-- The amount of an asset that movements leave over, whoever holds it. -/
def netSum (asset : Asset) (moves : List Movement) : Int :=
  (moves.map fun move => if move.asset = asset then move.amount else 0).sum

theorem netSum_append (asset : Asset) (first second : List Movement) :
    netSum asset (first ++ second) = netSum asset first + netSum asset second := by
  simp [netSum]

theorem netSum_nil (asset : Asset) : netSum asset [] = 0 := rfl

theorem netSum_cons (asset : Asset) (move : Movement) (moves : List Movement) :
    netSum asset (move :: moves) =
      (if move.asset = asset then move.amount else 0) + netSum asset moves := by
  simp [netSum]

theorem netSum_claims (asset sheep wheat : Asset) (claims : List ClaimOfferAtom)
    (assets : ∀ claim ∈ claims, claim.assetSold = wheat ∧ claim.assetBought = sheep) :
    netSum asset (claimMovements claims) =
      (if sheep = asset then (claims.map ClaimOfferAtom.amountBought).sum else 0) -
      (if wheat = asset then (claims.map ClaimOfferAtom.amountSold).sum else 0) := by
  induction claims with
  | nil => simp [claimMovements, netSum]
  | cons head tail ih =>
      have headAssets := assets head List.mem_cons_self
      have tailSum := ih fun claim member => assets claim (List.mem_cons_of_mem head member)
      have split : claimMovements (head :: tail) = head.movements ++ claimMovements tail := rfl
      rw [split, netSum_append, tailSum]
      simp only [ClaimOfferAtom.movements, netSum_cons, netSum_nil, headAssets.1, headAssets.2,
        List.map_cons, List.sum_cons]
      split_ifs <;> omega

/-! ### The books -/

def holdings (asset : Asset) (ledger : Ledger) : Int :=
  match asset with
  | .native => total (fun _ account => account.balance) ledger.accounts
  | _ => total (fun key line => if key.asset = asset then line.balance else 0) ledger.trustLines

def one (holds : Prop) [Decidable holds] : Int := if holds then 1 else 0

def ownedEntries (accountID : AccountID) (ledger : Ledger) : Int :=
  total (fun key _ => one (key.accountID = accountID)) ledger.trustLines +
  total (fun key _ => one (key.sellerID = accountID)) ledger.offers +
  total (fun key _ => one (key.accountID = accountID)) ledger.data

theorem one_nonneg (holds : Prop) [Decidable holds] : 0 ≤ one holds := by
  unfold one
  split <;> decide

theorem count_nonneg {κ ν : Type} [DecidableEq κ] (owns : κ → Prop) [DecidablePred owns]
    (map : Map κ ν) : 0 ≤ total (fun key _ => one (owns key)) map :=
  total_nonneg _ map fun key _ _ => one_nonneg (owns key)

theorem ownedEntries_nonneg (accountID : AccountID) (ledger : Ledger) :
    0 ≤ ownedEntries accountID ledger := by
  unfold ownedEntries
  have lines := count_nonneg (fun key : TrustLineKey => key.accountID = accountID) ledger.trustLines
  have offers := count_nonneg (fun key : OfferKey => key.sellerID = accountID) ledger.offers
  have data := count_nonneg (fun key : DataKey => key.accountID = accountID) ledger.data
  omega

/-- How far the recorded number of sub-entries is above the real one. -/
def surplus (accountID : AccountID) (ledger : Ledger) : Int :=
  ((ledger.accounts.lookup accountID).map fun account =>
    (account.numSubEntries : Int) - account.signers.length).getD 0 - ownedEntries accountID ledger

/-- The number every later sequence number of an account is above. An account that does
not exist would start from the number its creation in this ledger gives it. -/
def sequenceFloor (accountID : AccountID) (ledger : Ledger) : SequenceNumber :=
  ((ledger.accounts.lookup accountID).map AccountEntry.seqNum).getD
    (toSigned64 (getStartingSequenceNumber ledger.header) - 1)

def SubEntriesFit (ledger : Ledger) : Prop :=
  ∀ accountID account, ledger.accounts.lookup accountID = some account →
    (account.numSubEntries : Int) ≤ INT32_MAX

structure Follows (moves : List Movement) (entries : AccountID → Int) (before after : Ledger) :
    Prop where
  header : after.header = { before.header with idPool := after.header.idPool }
  floors : 10 ≤ before.header.ledgerVersion →
    ∀ accountID, sequenceFloor accountID before ≤ sequenceFloor accountID after
  moved : ∀ asset, holdings asset after = holdings asset before + storedSum asset moves
  counted : ∀ accountID, surplus accountID after = surplus accountID before + entries accountID
  fits : SubEntriesFit before → SubEntriesFit after

def only (accountID : AccountID) (count : Int) : AccountID → Int :=
  fun other => if other = accountID then count else 0

theorem Follows.refl (ledger : Ledger) : Follows [] 0 ledger ledger where
  header := rfl
  floors _ _ := le_rfl
  moved _ := by simp
  counted _ := by simp
  fits fit := fit

theorem Follows.trans {moves moves' : List Movement} {entries entries' : AccountID → Int}
    {first second third : Ledger} (early : Follows moves entries first second)
    (late : Follows moves' entries' second third) :
    Follows (moves ++ moves') (entries + entries') first third where
  header := by rw [late.header, early.header]
  floors version accountID :=
    (early.floors version accountID).trans (late.floors (by rw [early.header]; exact version) accountID)
  moved asset := by
    rw [late.moved, early.moved, storedSum_append]
    omega
  counted accountID := by
    rw [late.counted, early.counted, Pi.add_apply]
    omega
  fits fit := late.fits (early.fits fit)

theorem Follows.congr {moves moves' : List Movement} {entries entries' : AccountID → Int}
    {before after : Ledger} (follows : Follows moves entries before after)
    (sameMoves : ∀ asset, storedSum asset moves = storedSum asset moves')
    (sameEntries : ∀ accountID, entries accountID = entries' accountID) :
    Follows moves' entries' before after where
  header := follows.header
  floors := follows.floors
  moved asset := by rw [follows.moved, sameMoves]
  counted accountID := by rw [follows.counted, sameEntries]
  fits := follows.fits

/-! ### Single updates -/

theorem floor_insert {accountID : AccountID} {account updated : AccountEntry} (ledger : Ledger)
    (found : ledger.accounts.lookup accountID = some account)
    (later : account.seqNum ≤ updated.seqNum) (other : AccountID) :
    sequenceFloor other ledger ≤
      sequenceFloor other { ledger with accounts := ledger.accounts.insert accountID updated } := by
  unfold sequenceFloor
  by_cases equal : other = accountID
  · subst equal
    simpa [found] using later
  · simp [AList.lookup_insert_ne equal]

theorem follows_storeAccount {ledger : Ledger} {accountID : AccountID} {account : AccountEntry}
    (updated : AccountEntry) (delta count : Int)
    (found : ledger.accounts.lookup accountID = some account)
    (later : account.seqNum ≤ updated.seqNum)
    (balance : updated.balance = account.balance + delta)
    (counted : (updated.numSubEntries : Int) - updated.signers.length =
      account.numSubEntries - account.signers.length + count)
    (fits : (account.numSubEntries : Int) ≤ INT32_MAX → (updated.numSubEntries : Int) ≤ INT32_MAX) :
    Follows [⟨accountID, .native, delta⟩] (only accountID count) ledger
      { ledger with accounts := ledger.accounts.insert accountID updated } where
  header := rfl
  floors _ := floor_insert ledger found later
  moved asset := by
    cases asset with
    | native =>
        simp only [holdings, total_insert, share_of_lookup found, balance, storedSum_cons,
          storedSum_nil, Movement.stored, Asset.issuer?]
        simp only [ne_eq, reduceCtorEq, not_false_eq_true, and_self, if_true]
        omega
    | alphaNum4 code issuer => simp [holdings, Movement.stored]
    | alphaNum12 code issuer => simp [holdings, Movement.stored]
  counted other := by
    unfold surplus only
    by_cases equal : other = accountID
    · subst equal
      simp only [AList.lookup_insert, found, Option.map_some, Option.getD_some, if_true, counted,
        ownedEntries]
      omega
    · simp only [AList.lookup_insert_ne equal, if_neg equal, ownedEntries]
      omega
  fits fit other entry stored := by
    by_cases equal : other = accountID
    · subst equal
      rw [AList.lookup_insert] at stored
      cases stored
      exact fits (fit other account found)
    · rw [AList.lookup_insert_ne equal] at stored
      exact fit other entry stored

theorem follows_storeTrustLine {ledger : Ledger} {line : TrustLineEntry} (key : TrustLineKey)
    (updated : TrustLineEntry) (delta : Int)
    (found : ledger.trustLines.lookup key = some line)
    (credit : key.asset.issuer? ≠ some key.accountID) (notNative : key.asset ≠ .native)
    (balance : updated.balance = line.balance + delta) :
    Follows [⟨key.accountID, key.asset, delta⟩] 0 ledger
      { ledger with trustLines := ledger.trustLines.insert key updated } where
  header := rfl
  floors _ _ := le_rfl
  moved asset := by
    have credited : ∀ other : Asset, other ≠ .native →
        total (fun lineKey line => if lineKey.asset = other then line.balance else 0)
          (ledger.trustLines.insert key updated) =
        total (fun lineKey line => if lineKey.asset = other then line.balance else 0)
          ledger.trustLines + Movement.stored other ⟨key.accountID, key.asset, delta⟩ := by
      intro other _
      rw [total_insert, share_of_lookup found]
      by_cases same : key.asset = other
      · subst same
        simp [Movement.stored, credit, balance]
        omega
      · simp [Movement.stored, same]
    cases asset with
    | native => simp [holdings, Movement.stored, notNative]
    | alphaNum4 code issuer => simpa [holdings] using credited (.alphaNum4 code issuer) (by simp)
    | alphaNum12 code issuer => simpa [holdings] using credited (.alphaNum12 code issuer) (by simp)
  counted accountID := by
    simp only [surplus, ownedEntries, total_insert, share_of_lookup found, Pi.zero_apply]
    omega
  fits fit := fit

theorem follows_issuer (ledger : Ledger) (accountID : AccountID) (asset : Asset) (delta : Int)
    (issuer : asset.issuer? = some accountID) : Follows [⟨accountID, asset, delta⟩] 0 ledger ledger :=
  (Follows.refl ledger).congr (by
    intro other
    by_cases same : asset = other
    · subst same
      simp [Movement.stored, issuer]
    · simp [Movement.stored, same]) (fun _ => rfl)

theorem holdings_offers (asset : Asset) (ledger : Ledger) (offers : Map OfferKey OfferEntry) :
    holdings asset { ledger with offers } = holdings asset ledger := by
  cases asset <;> rfl

theorem follows_storeOffer {ledger : Ledger} {key : OfferKey} {offer updated : OfferEntry}
    (found : ledger.offers.lookup key = some offer) :
    Follows [] 0 ledger { ledger with offers := ledger.offers.insert key updated } where
  header := rfl
  floors _ _ := le_rfl
  moved asset := by simp [holdings_offers]
  counted accountID := by
    simp only [surplus, ownedEntries, total_insert, share_of_lookup found, Pi.zero_apply]
    omega
  fits fit := fit

theorem follows_createOffer {ledger : Ledger} {key : OfferKey} {offer : OfferEntry}
    (absent : ledger.offers.lookup key = none) :
    Follows [] (only key.sellerID (-1)) ledger
      { ledger with offers := ledger.offers.insert key offer } where
  header := rfl
  floors _ _ := le_rfl
  moved asset := by simp [holdings_offers]
  counted accountID := by
    simp only [surplus, ownedEntries, total_insert, share_of_absent absent, only, one,
      eq_comm (a := accountID)]
    split <;> omega
  fits fit := fit

theorem follows_eraseOffer {ledger : Ledger} {key : OfferKey} {offer : OfferEntry}
    (found : ledger.offers.lookup key = some offer) :
    Follows [] (only key.sellerID 1) ledger
      { ledger with offers := ledger.offers.erase key } where
  header := rfl
  floors _ _ := le_rfl
  moved asset := by simp [holdings_offers]
  counted accountID := by
    simp only [surplus, ownedEntries, total_erase, share_of_lookup found, only, one,
      eq_comm (a := accountID)]
    split <;> omega
  fits fit := fit

theorem follows_sameBalance {ledger : Ledger} {key : TrustLineKey} {line : TrustLineEntry}
    (updated : TrustLineEntry) (found : ledger.trustLines.lookup key = some line)
    (balance : updated.balance = line.balance) :
    Follows [] 0 ledger { ledger with trustLines := ledger.trustLines.insert key updated } where
  header := rfl
  floors _ _ := le_rfl
  moved asset := by
    have kept : ∀ other : Asset,
        total (fun lineKey line => if lineKey.asset = other then line.balance else 0)
          (ledger.trustLines.insert key updated) =
        total (fun lineKey line => if lineKey.asset = other then line.balance else 0)
          ledger.trustLines := by
      intro other
      rw [total_insert, share_of_lookup found, balance]
      omega
    cases asset <;> simp [holdings, kept]
  counted accountID := by
    simp only [surplus, ownedEntries, total_insert, share_of_lookup found, Pi.zero_apply]
    omega
  fits fit := fit

theorem follows_createTrustLine {ledger : Ledger} {key : TrustLineKey} (line : TrustLineEntry)
    (absent : ledger.trustLines.lookup key = none) (empty : line.balance = 0) :
    Follows [] (only key.accountID (-1)) ledger
      { ledger with trustLines := ledger.trustLines.insert key line } where
  header := rfl
  floors _ _ := le_rfl
  moved asset := by
    have kept : ∀ other : Asset,
        total (fun lineKey line => if lineKey.asset = other then line.balance else 0)
          (ledger.trustLines.insert key line) =
        total (fun lineKey line => if lineKey.asset = other then line.balance else 0)
          ledger.trustLines := by
      intro other
      rw [total_insert, share_of_absent absent, empty]
      simp
    cases asset <;> simp [holdings, kept]
  counted accountID := by
    simp only [surplus, ownedEntries, total_insert, share_of_absent absent, only, one,
      eq_comm (a := accountID)]
    split <;> omega
  fits fit := fit

theorem follows_eraseTrustLine {ledger : Ledger} {key : TrustLineKey} {line : TrustLineEntry}
    (found : ledger.trustLines.lookup key = some line)
    (credit : key.asset.issuer? ≠ some key.accountID) (notNative : key.asset ≠ .native) :
    Follows [⟨key.accountID, key.asset, -line.balance⟩] (only key.accountID 1) ledger
      { ledger with trustLines := ledger.trustLines.erase key } where
  header := rfl
  floors _ _ := le_rfl
  moved asset := by
    have lost : ∀ other : Asset,
        total (fun lineKey line => if lineKey.asset = other then line.balance else 0)
          (ledger.trustLines.erase key) =
        total (fun lineKey line => if lineKey.asset = other then line.balance else 0)
          ledger.trustLines + Movement.stored other ⟨key.accountID, key.asset, -line.balance⟩ := by
      intro other
      rw [total_erase, share_of_lookup found]
      by_cases same : key.asset = other
      · subst same
        simp [Movement.stored, credit]
        omega
      · simp [Movement.stored, same]
    cases asset with
    | native => simp [holdings, Movement.stored, notNative]
    | alphaNum4 code issuer => simpa [holdings] using lost (.alphaNum4 code issuer)
    | alphaNum12 code issuer => simpa [holdings] using lost (.alphaNum12 code issuer)
  counted accountID := by
    simp only [surplus, ownedEntries, total_erase, share_of_lookup found, only, one,
      eq_comm (a := accountID)]
    split <;> omega
  fits fit := fit

theorem holdings_data (asset : Asset) (ledger : Ledger) (data : Map DataKey (List UInt8)) :
    holdings asset { ledger with data } = holdings asset ledger := by
  cases asset <;> rfl

theorem follows_storeData {ledger : Ledger} {key : DataKey} {value : List UInt8}
    (updated : List UInt8) (found : ledger.data.lookup key = some value) :
    Follows [] 0 ledger { ledger with data := ledger.data.insert key updated } where
  header := rfl
  floors _ _ := le_rfl
  moved asset := by simp [holdings_data]
  counted accountID := by
    simp only [surplus, ownedEntries, total_insert, share_of_lookup found, Pi.zero_apply]
    omega
  fits fit := fit

theorem follows_createData {ledger : Ledger} {key : DataKey} (value : List UInt8)
    (absent : ledger.data.lookup key = none) :
    Follows [] (only key.accountID (-1)) ledger
      { ledger with data := ledger.data.insert key value } where
  header := rfl
  floors _ _ := le_rfl
  moved asset := by simp [holdings_data]
  counted accountID := by
    simp only [surplus, ownedEntries, total_insert, share_of_absent absent, only, one,
      eq_comm (a := accountID)]
    split <;> omega
  fits fit := fit

theorem follows_eraseData {ledger : Ledger} {key : DataKey} {value : List UInt8}
    (found : ledger.data.lookup key = some value) :
    Follows [] (only key.accountID 1) ledger
      { ledger with data := ledger.data.erase key } where
  header := rfl
  floors _ _ := le_rfl
  moved asset := by simp [holdings_data]
  counted accountID := by
    simp only [surplus, ownedEntries, total_erase, share_of_lookup found, only, one,
      eq_comm (a := accountID)]
    split <;> omega
  fits fit := fit

/-! ### Balances -/

theorem addToBalance_some {balance delta maxBalance updated : Int}
    (added : addToBalance balance delta maxBalance = .ok (some updated)) :
    updated = balance + delta ∧ 0 ≤ balance ∧ 0 ≤ maxBalance ∧
      (delta ≠ 0 → 0 ≤ updated ∧ updated ≤ maxBalance) := by
  unfold addToBalance at added
  obtain ⟨balanceNonneg, added⟩ := assertThat_bind_ok.mp added
  obtain ⟨maxNonneg, added⟩ := assertThat_bind_ok.mp added
  simp only [decide_eq_true_eq] at balanceNonneg maxNonneg
  split at added
  · cases added
    omega
  split at added
  · cases added
  split at added
  · cases added
  · cases added
    omega

theorem addBalanceToAccount_some {header : LedgerHeader} {account updated : AccountEntry}
    {delta : Int} (added : addBalanceToAccount header account delta = .ok (some updated)) :
    updated = { account with balance := account.balance + delta } := by
  unfold addBalanceToAccount at added
  split at added
  · rename_i zero
    cases added
    simp [zero]
  · obtain ⟨newBalance, computed, added⟩ := except_bind_ok.mp added
    cases newBalance with
    | none => cases added
    | some newBalance =>
        have sum := (addToBalance_some computed).1
        subst sum
        simp only at added
        split at added
        · obtain ⟨selling, -, added⟩ := except_bind_ok.mp added
          obtain ⟨buying, -, added⟩ := except_bind_ok.mp added
          split at added
          · cases added
          · split at added
            · cases added
            · cases added
              rfl
        · cases added
          rfl

theorem addBalanceToTrustLine_some {header : LedgerHeader} {line updated : TrustLineEntry}
    {delta : Int} (added : addBalanceToTrustLine header line delta = .ok (some updated)) :
    updated = { line with balance := line.balance + delta } := by
  unfold addBalanceToTrustLine at added
  split at added
  · rename_i zero
    cases added
    simp [zero]
  · split at added
    · cases added
    · obtain ⟨newBalance, computed, added⟩ := except_bind_ok.mp added
      cases newBalance with
      | none => cases added
      | some newBalance =>
          have sum := (addToBalance_some computed).1
          subst sum
          simp only at added
          split at added
          · obtain ⟨selling, -, added⟩ := except_bind_ok.mp added
            obtain ⟨buying, -, added⟩ := except_bind_ok.mp added
            split at added
            · cases added
            · split at added
              · cases added
              · cases added
                rfl
          · cases added
            rfl

/-! ### Updates through a handle -/

variable {ledger : Ledger}

theorem computed_reads {α : Type} (value : Except Fault α) :
    Ensures (computed value) ledger fun _ after => after = ledger := by
  cases value <;> first | rfl | trivial

theorem loadTrustLine_reads (accountID : AccountID) (asset : Asset) :
    Ensures (loadTrustLine accountID asset) ledger fun _ after => after = ledger := by
  unfold loadTrustLine
  cases asset.issuer? with
  | none => trivial
  | some issuer =>
      simp only
      split <;> rfl

theorem updateAccount_ensures (accountID : AccountID)
    (compute : LedgerHeader → AccountEntry → Except Fault (Option AccountEntry)) :
    Ensures (updateAccount accountID compute) ledger fun ok after =>
      if ok then
        ∃ account updated, ledger.accounts.lookup accountID = some account ∧
          compute ledger.header account = .ok (some updated) ∧
          after = { ledger with accounts := ledger.accounts.insert accountID updated }
      else after = ledger := by
  unfold updateAccount
  simp only [Ensures, wp_bind, wp_loadHeader, wp_current, accountTable_read]
  cases found : ledger.accounts.lookup accountID with
  | none => trivial
  | some account =>
      simp only [wp_computed]
      cases result : compute ledger.header account with
      | error fault => trivial
      | ok updated =>
          cases updated with
          | none => simp
          | some updated =>
              simp only [wp_bind, wp_store, wp_pure, accountTable_read, accountTable_write, if_true]
              exact ⟨account, updated, rfl, result, rfl⟩

theorem updateTrustLine_ensures (accountID : AccountID) (asset : Asset)
    (compute : LedgerHeader → TrustLineEntry → Except Fault (Option TrustLineEntry)) :
    Ensures (updateTrustLine accountID asset compute) ledger fun ok after =>
      if ok then
        (asset.issuer? = some accountID ∧ after = ledger) ∨
        ∃ line updated, asset ≠ .native ∧ asset.issuer? ≠ some accountID ∧
          ledger.trustLines.lookup ⟨accountID, asset⟩ = some line ∧
          compute ledger.header line = .ok (some updated) ∧
          after = { ledger with trustLines := ledger.trustLines.insert ⟨accountID, asset⟩ updated }
      else after = ledger := by
  unfold updateTrustLine loadTrustLine
  simp only [Ensures, wp_bind, wp_loadHeader]
  cases issued : asset.issuer? with
  | none => trivial
  | some issuer =>
      have notNative : asset ≠ .native := by
        rintro rfl
        cases issued
      by_cases isIssuer : issuer = accountID
      · simp [isIssuer]
      · simp only [isIssuer, if_false, wp_bind, wp_load, wp_pure, trustLineTable_read]
        cases found : ledger.trustLines.lookup ⟨accountID, asset⟩ with
        | none => trivial
        | some line =>
            simp only [Option.map_some, wp_bind, wp_computed]
            cases result : compute ledger.header line with
            | error fault => trivial
            | ok updated =>
                cases updated with
                | none => simp
                | some updated =>
                    simp only [wp_bind, wp_store, wp_pure, trustLineTable_read,
                      trustLineTable_write, if_true]
                    exact .inr ⟨line, updated, notNative, by simpa using isIssuer, rfl, result, rfl⟩

structure KeepsOffers (before after : Ledger) : Prop where
  offers : after.offers = before.offers
  data : after.data = before.data

theorem KeepsOffers.refl (ledger : Ledger) : KeepsOffers ledger ledger := ⟨rfl, rfl⟩

theorem KeepsOffers.trans {first second third : Ledger} (early : KeepsOffers first second)
    (late : KeepsOffers second third) : KeepsOffers first third :=
  ⟨late.offers.trans early.offers, late.data.trans early.data⟩

theorem addBalance_follows (accountID : AccountID) (asset : Asset) (delta : Int) :
    Ensures (addBalance accountID asset delta) ledger fun ok after =>
      if ok then Follows [⟨accountID, asset, delta⟩] 0 ledger after ∧ KeepsOffers ledger after
      else after = ledger := by
  have credit : ∀ asset : Asset, Ensures
      (updateTrustLine accountID asset (addBalanceToTrustLine · · delta)) ledger fun ok after =>
      if ok then Follows [⟨accountID, asset, delta⟩] 0 ledger after ∧ KeepsOffers ledger after
      else after = ledger := by
    intro asset
    apply Ensures.mono (updateTrustLine_ensures accountID asset _)
    intro ok after result
    cases ok with
    | false => exact result
    | true =>
        rcases result with ⟨issuer, rfl⟩ | ⟨line, updated, notNative, notIssuer, found, added, rfl⟩
        · exact ⟨follows_issuer after accountID asset delta issuer, KeepsOffers.refl after⟩
        · have sum := addBalanceToTrustLine_some added
          refine ⟨follows_storeTrustLine ⟨accountID, asset⟩ updated delta found notIssuer notNative ?_,
            ⟨rfl, rfl⟩⟩
          rw [sum]
  cases asset with
  | native =>
      apply Ensures.mono (updateAccount_ensures accountID _)
      intro ok after result
      cases ok with
      | false => exact result
      | true =>
          obtain ⟨account, updated, found, added, rfl⟩ := result
          have sum := addBalanceToAccount_some added
          subst sum
          have stored := follows_storeAccount
            { account with balance := account.balance + delta } delta 0 found le_rfl rfl
            (by simp) id
          exact ⟨stored.congr (fun _ => rfl) (by simp [only]), ⟨rfl, rfl⟩⟩
  | alphaNum4 code issuer => exact credit _
  | alphaNum12 code issuer => exact credit _

theorem addBalanceUnlessZero_follows (accountID : AccountID) (asset : Asset) (delta : Int) :
    Ensures (addBalanceUnlessZero accountID asset delta) ledger fun ok after =>
      if ok then Follows [⟨accountID, asset, delta⟩] 0 ledger after ∧ KeepsOffers ledger after
      else after = ledger := by
  unfold addBalanceUnlessZero
  split
  · rename_i zero
    refine ⟨(Follows.refl ledger).congr ?_ (fun _ => rfl), KeepsOffers.refl ledger⟩
    intro other
    simp [Movement.stored, zero]
  · exact addBalance_follows accountID asset delta

theorem orThrow_ensures {action : Apply Bool} {what : String} {post : Ledger → Prop}
    {rejected : Ledger → Prop}
    (ensured : Ensures action ledger fun ok after => if ok then post after else rejected after) :
    Ensures (orThrow action what) ledger fun _ after => post after := by
  unfold orThrow
  apply Ensures.bind ensured
  intro ok after result
  cases ok with
  | false => trivial
  | true => exact result

/-! ### Liabilities -/

/-- The recorded liabilities, zero where the extension is missing. -/
def recorded (ext : Option Liabilities) : Liabilities := ext.getD ⟨0, 0⟩

theorem getBuyingLiabilities_ok {header : LedgerHeader} {ext : Option Liabilities} {buying : Int}
    (read : getBuyingLiabilities header ext = .ok buying) : buying = (recorded ext).buying := by
  unfold getBuyingLiabilities getLiabilities at read
  split at read
  · cases read
  · cases read
    rfl

theorem getSellingLiabilities_ok {header : LedgerHeader} {ext : Option Liabilities} {selling : Int}
    (read : getSellingLiabilities header ext = .ok selling) : selling = (recorded ext).selling := by
  unfold getSellingLiabilities getLiabilities at read
  split at read
  · cases read
  · cases read
    rfl

theorem addBuyingLiabilitiesToAccount_some {header : LedgerHeader}
    {account updated : AccountEntry} {delta : Int}
    (added : addBuyingLiabilitiesToAccount header account delta = .ok (some updated)) :
    ∃ ext, updated = { account with ext } ∧
      recorded ext = { recorded account.ext with buying := (recorded account.ext).buying + delta } ∧
      (delta ≠ 0 → 0 ≤ (recorded ext).buying ∧ (recorded ext).buying ≤ INT64_MAX - account.balance) := by
  unfold addBuyingLiabilitiesToAccount at added
  obtain ⟨buying, read, added⟩ := except_bind_ok.mp added
  have old := getBuyingLiabilities_ok read
  subst old
  split at added
  · rename_i zero
    cases added
    exact ⟨account.ext, rfl, by simp [zero], fun nonzero => absurd zero nonzero⟩
  · obtain ⟨sum, computed, added⟩ := except_bind_ok.mp added
    cases sum with
    | none => cases added
    | some sum =>
        have facts := addToBalance_some computed
        cases added
        exact ⟨_, rfl, by simp [recorded, facts.1], fun nonzero => facts.2.2.2 nonzero⟩

theorem addSellingLiabilitiesToAccount_some {header : LedgerHeader}
    {account updated : AccountEntry} {delta : Int}
    (added : addSellingLiabilitiesToAccount header account delta = .ok (some updated)) :
    ∃ ext, updated = { account with ext } ∧
      recorded ext = { recorded account.ext with selling := (recorded account.ext).selling + delta } ∧
      (delta ≠ 0 → 0 ≤ (recorded ext).selling ∧
        (recorded ext).selling ≤ account.balance - getMinBalance header account.numSubEntries) := by
  unfold addSellingLiabilitiesToAccount at added
  obtain ⟨selling, read, added⟩ := except_bind_ok.mp added
  have old := getSellingLiabilities_ok read
  subst old
  split at added
  · rename_i zero
    cases added
    exact ⟨account.ext, rfl, by simp [zero], fun nonzero => absurd zero nonzero⟩
  · dsimp only at added
    split at added
    · cases added
    · obtain ⟨sum, computed, added⟩ := except_bind_ok.mp added
      cases sum with
      | none => cases added
      | some sum =>
          have facts := addToBalance_some computed
          cases added
          exact ⟨_, rfl, by simp [recorded, facts.1], fun nonzero => facts.2.2.2 nonzero⟩

theorem addBuyingLiabilitiesToTrustLine_some {header : LedgerHeader}
    {line updated : TrustLineEntry} {delta : Int}
    (added : addBuyingLiabilitiesToTrustLine header line delta = .ok (some updated)) :
    ∃ ext, updated = { line with ext } ∧
      recorded ext = { recorded line.ext with buying := (recorded line.ext).buying + delta } ∧
      (delta ≠ 0 → isAuthorized line = true ∧ 0 ≤ (recorded ext).buying ∧
        (recorded ext).buying ≤ line.limit - line.balance) := by
  unfold addBuyingLiabilitiesToTrustLine at added
  obtain ⟨buying, read, added⟩ := except_bind_ok.mp added
  have old := getBuyingLiabilities_ok read
  subst old
  split at added
  · rename_i zero
    cases added
    exact ⟨line.ext, rfl, by simp [zero], fun nonzero => absurd zero nonzero⟩
  · split at added
    · cases added
    · rename_i authorized
      obtain ⟨sum, computed, added⟩ := except_bind_ok.mp added
      cases sum with
      | none => cases added
      | some sum =>
          have facts := addToBalance_some computed
          cases added
          exact ⟨_, rfl, by simp [recorded, facts.1],
            fun nonzero => ⟨by simpa using authorized, facts.2.2.2 nonzero⟩⟩

theorem addSellingLiabilitiesToTrustLine_some {header : LedgerHeader}
    {line updated : TrustLineEntry} {delta : Int}
    (added : addSellingLiabilitiesToTrustLine header line delta = .ok (some updated)) :
    ∃ ext, updated = { line with ext } ∧
      recorded ext = { recorded line.ext with selling := (recorded line.ext).selling + delta } ∧
      (delta ≠ 0 → isAuthorized line = true ∧ 0 ≤ (recorded ext).selling ∧
        (recorded ext).selling ≤ line.balance) := by
  unfold addSellingLiabilitiesToTrustLine at added
  obtain ⟨selling, read, added⟩ := except_bind_ok.mp added
  have old := getSellingLiabilities_ok read
  subst old
  split at added
  · rename_i zero
    cases added
    exact ⟨line.ext, rfl, by simp [zero], fun nonzero => absurd zero nonzero⟩
  · split at added
    · cases added
    · rename_i authorized
      obtain ⟨sum, computed, added⟩ := except_bind_ok.mp added
      cases sum with
      | none => cases added
      | some sum =>
          have facts := addToBalance_some computed
          cases added
          exact ⟨_, rfl, by simp [recorded, facts.1],
            fun nonzero => ⟨by simpa using authorized, facts.2.2.2 nonzero⟩⟩

theorem follows_accountExt {accountID : AccountID} {account : AccountEntry}
    {ext : Option Liabilities} (found : ledger.accounts.lookup accountID = some account) :
    Follows [] 0 ledger
      { ledger with accounts := ledger.accounts.insert accountID { account with ext } } := by
  have stored := follows_storeAccount { account with ext } 0 0 found le_rfl (by simp) (by simp) id
  apply stored.congr
  · intro asset
    simp [Movement.stored]
  · intro other
    simp [only]

theorem addLiabilitiesOf_follows (sellerID : AccountID) (asset : Asset)
    {native : LedgerHeader → AccountEntry → Except Fault (Option AccountEntry)}
    {credit : LedgerHeader → TrustLineEntry → Except Fault (Option TrustLineEntry)}
    (nativeExt : ∀ header account updated, native header account = .ok (some updated) →
      ∃ ext, updated = { account with ext })
    (creditExt : ∀ header line updated, credit header line = .ok (some updated) →
      ∃ ext, updated = { line with ext }) :
    Ensures (addLiabilitiesOf sellerID asset native credit) ledger fun ok after =>
      if ok then Follows [] 0 ledger after ∧ KeepsOffers ledger after else after = ledger := by
  have onLine : Ensures (updateTrustLine sellerID asset credit) ledger fun ok after =>
      if ok then Follows [] 0 ledger after ∧ KeepsOffers ledger after else after = ledger := by
    apply Ensures.mono (updateTrustLine_ensures sellerID asset credit)
    intro ok after result
    cases ok with
    | false => exact result
    | true =>
        rcases result with ⟨-, rfl⟩ | ⟨line, updated, -, -, found, added, rfl⟩
        · exact ⟨Follows.refl after, KeepsOffers.refl after⟩
        · obtain ⟨ext, rfl⟩ := creditExt _ _ _ added
          exact ⟨follows_sameBalance _ found rfl, ⟨rfl, rfl⟩⟩
  unfold addLiabilitiesOf
  cases asset with
  | native =>
      simp only [Ensures, wp_bind, wp_load, accountTable_read]
      cases ledger.accounts.lookup sellerID with
      | none => trivial
      | some _ =>
          apply Ensures.mono (updateAccount_ensures sellerID native)
          intro ok after result
          cases ok with
          | false => exact result
          | true =>
              obtain ⟨account, updated, found, added, rfl⟩ := result
              obtain ⟨ext, rfl⟩ := nativeExt _ _ _ added
              exact ⟨follows_accountExt found, ⟨rfl, rfl⟩⟩
  | alphaNum4 code issuer | alphaNum12 code issuer =>
      apply Ensures.bind (loadTrustLine_reads sellerID _)
      rintro line _ rfl
      cases line with
      | none => trivial
      | some line => exact onLine

theorem acquireOrReleaseLiabilities_follows (sellerID : AccountID) (offer : OfferEntry)
    (isAcquire : Bool) :
    Ensures (acquireOrReleaseLiabilities sellerID offer isAcquire) ledger fun _ after =>
      Follows [] 0 ledger after ∧ KeepsOffers ledger after := by
  unfold acquireOrReleaseLiabilities
  split
  · trivial
  · simp only [Ensures, wp_bind, wp_loadHeader, wp_computed]
    cases getOfferBuyingLiabilities ledger.header offer with
    | error fault => trivial
    | ok buying =>
        apply Ensures.mono (orThrow_ensures (addLiabilitiesOf_follows sellerID offer.buying
          (fun _ _ _ added => (addBuyingLiabilitiesToAccount_some added).imp fun _ facts => facts.1)
          (fun _ _ _ added => (addBuyingLiabilitiesToTrustLine_some added).imp fun _ facts => facts.1)))
        rintro _ middle ⟨early, earlyKeeps⟩
        cases getOfferSellingLiabilities ledger.header offer with
        | error fault => trivial
        | ok selling =>
            apply Ensures.mono (orThrow_ensures (addLiabilitiesOf_follows sellerID offer.selling
              (fun _ _ _ added => (addSellingLiabilitiesToAccount_some added).imp fun _ facts => facts.1)
              (fun _ _ _ added => (addSellingLiabilitiesToTrustLine_some added).imp
                fun _ facts => facts.1)))
            rintro _ after ⟨late, lateKeeps⟩
            exact ⟨early.trans late, earlyKeeps.trans lateKeeps⟩

/-! ### Sub-entries -/

theorem addNumEntries_ok {header : LedgerHeader} {account updated : AccountEntry} {count : Int}
    {result : AddSubentryResult} (added : addNumEntries header account count = .ok (result, updated)) :
    (result = .SUCCESS ∧ ∃ entries : Nat, updated = { account with numSubEntries := entries } ∧
      (entries : Int) = account.numSubEntries + count ∧ (entries : Int) ≤ INT32_MAX) ∨
    (result ≠ .SUCCESS ∧ updated = account ∧ 0 < count) := by
  unfold addNumEntries at added
  obtain ⟨signed, read, added⟩ := except_bind_ok.mp added
  have same : signed = account.numSubEntries := by
    unfold unsignedToSigned at read
    split at read
    · cases read
    · cases read
      rfl
  subst same
  dsimp only at added
  split at added
  · cases added
  split at added
  · cases added
  split at added
  · rename_i limited
    cases added
    exact .inr ⟨by simp, rfl, limited.2.1⟩
  · obtain ⟨reserved, -, added⟩ := except_bind_ok.mp added
    split at added
    · rename_i low
      cases added
      exact .inr ⟨by simp, rfl, low.1⟩
    · cases added
      refine .inl ⟨rfl, _, rfl, ?_, ?_⟩ <;> omega

theorem addNumEntriesOf_follows (accountID : AccountID) (count : Int) :
    Ensures (addNumEntriesOf accountID count) ledger fun result after =>
      KeepsOffers ledger after ∧
      ((result = .SUCCESS ∧ Follows [] (only accountID count) ledger after) ∨
        (result ≠ .SUCCESS ∧ 0 < count ∧ Follows [] 0 ledger after)) := by
  unfold addNumEntriesOf
  simp only [Ensures, wp_bind, wp_loadHeader, wp_current, accountTable_read]
  cases found : ledger.accounts.lookup accountID with
  | none => trivial
  | some account =>
      simp only [wp_computed]
      cases computed : addNumEntries ledger.header account count with
      | error fault => trivial
      | ok result =>
          obtain ⟨result, updated⟩ := result
          simp only [wp_store, wp_pure, accountTable_read, accountTable_write]
          refine ⟨⟨rfl, rfl⟩, ?_⟩
          rcases addNumEntries_ok computed with
            ⟨success, entries, rfl, counted, fits⟩ | ⟨failure, same, positive⟩
          · have stored := follows_storeAccount
              { account with numSubEntries := entries } 0 count found le_rfl (by simp)
              (by simp only; omega) (fun _ => fits)
            exact .inl ⟨success, stored.congr (by simp [Movement.stored]) (fun _ => rfl)⟩
          · rw [same]
            have stored := follows_storeAccount account 0 0 found le_rfl (by simp) (by simp) id
            exact .inr ⟨failure, positive, stored.congr (by simp [Movement.stored]) (by simp [only])⟩

theorem dropEntry_follows (accountID : AccountID) :
    Ensures (addNumEntriesOf accountID (-1)) ledger fun _ after =>
      KeepsOffers ledger after ∧ Follows [] (only accountID (-1)) ledger after := by
  apply Ensures.mono (addNumEntriesOf_follows accountID (-1))
  intro result after ⟨keeps, outcome⟩
  rcases outcome with ⟨-, follows⟩ | ⟨-, impossible, -⟩
  · exact ⟨keeps, follows⟩
  · omega

end ViiCore.Transactions
