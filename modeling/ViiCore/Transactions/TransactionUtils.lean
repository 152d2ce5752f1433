import ViiCore.Transactions.Exchange

/-!
Balances, liabilities and sub-entry counts of accounts and trust lines
(`TransactionUtils.cpp`, `TrustLineWrapper.cpp`).

A function that writes through an entry handle and returns a `bool` is split in two: the
computation on the entry, which gives the new entry or `none` for false, and the update
of the stored entry.
-/

namespace ViiCore.Transactions

open ViiCore.Ledger

def ACCOUNT_SUBENTRY_LIMIT : Int := 1000

def FIRST_PROTOCOL_SUPPORTING_OPERATION_LIMITS : Nat := 11

def MAX_OFFERS_TO_CROSS : Nat := 1000

def getIssuer (asset : Asset) : Except Fault AccountID :=
  match asset.issuer? with
  | some issuer => return issuer
  | none => throw .wrongUnion

def unsignedToSigned (value : Nat) : Except Fault Int :=
  if (value : Int) > INT32_MAX then throw (.runtimeError "unsigned-to-signed overflow")
  else return value

/-- Up to version 8 the product is computed in 32 bits. -/
def getMinBalance (header : LedgerHeader) (ownerCount : Nat) : Int :=
  if header.ledgerVersion ≤ 8 then
    (((2 + ownerCount) * header.baseReserve % 2 ^ 32 : Nat) : Int)
  else
    (((2 + ownerCount) % 2 ^ 32 : Nat) : Int) * (header.baseReserve : Int)

def getLiabilities (header : LedgerHeader) (ext : Option Liabilities) :
    Except Fault Liabilities :=
  if header.ledgerVersion < 10 then
    throw (.runtimeError "Liabilities accessed before version 10")
  else
    return ext.getD ⟨0, 0⟩

def getBuyingLiabilities (header : LedgerHeader) (ext : Option Liabilities) : Except Fault Int :=
  return (← getLiabilities header ext).buying

def getSellingLiabilities (header : LedgerHeader) (ext : Option Liabilities) : Except Fault Int :=
  return (← getLiabilities header ext).selling

/-- Selling liabilities count against a balance from version 10 on. -/
def getReservedBalance (header : LedgerHeader) (ext : Option Liabilities) : Except Fault Int :=
  if header.ledgerVersion ≥ 10 then getSellingLiabilities header ext else return 0

/-- So do buying liabilities against what can be received. -/
def getReservedLimit (header : LedgerHeader) (ext : Option Liabilities) : Except Fault Int :=
  if header.ledgerVersion ≥ 10 then getBuyingLiabilities header ext else return 0

def isAuthorized (line : TrustLineEntry) : Bool := hasFlag line.flags AUTHORIZED_FLAG

def isAuthRequired (account : AccountEntry) : Bool := hasFlag account.flags AUTH_REQUIRED_FLAG

def isImmutableAuth (account : AccountEntry) : Bool := hasFlag account.flags AUTH_IMMUTABLE_FLAG

def setAuthorized (line : TrustLineEntry) (authorized : Bool) : TrustLineEntry :=
  if authorized then { line with flags := line.flags ||| AUTHORIZED_FLAG }
  else { line with flags := line.flags &&& ~~~AUTHORIZED_FLAG }

def getStartingSequenceNumber (header : LedgerHeader) : Nat := header.ledgerSeq * 2 ^ 32 % 2 ^ 64

/-! ### Accounts -/

def addBalanceToAccount (header : LedgerHeader) (account : AccountEntry) (delta : Int) :
    Except Fault (Option AccountEntry) :=
  if delta = 0 then return some account
  else do
    match ← addToBalance account.balance delta INT64_MAX with
    | none => return none
    | some newBalance =>
        if header.ledgerVersion ≥ 10 then
          let minBalance := getMinBalance header account.numSubEntries
          let selling ← getSellingLiabilities header account.ext
          let buying ← getBuyingLiabilities header account.ext
          if delta < 0 ∧ newBalance - minBalance < selling then return none
          else if newBalance > INT64_MAX - buying then return none
          else return some { account with balance := newBalance }
        else
          return some { account with balance := newBalance }

def addBuyingLiabilitiesToAccount (header : LedgerHeader) (account : AccountEntry) (delta : Int) :
    Except Fault (Option AccountEntry) := do
  let buyingLiab ← getBuyingLiabilities header account.ext
  if delta = 0 then return some account
  else
    match ← addToBalance buyingLiab delta (INT64_MAX - account.balance) with
    | none => return none
    | some buying =>
        return some { account with ext := some { account.ext.getD ⟨0, 0⟩ with buying } }

def addSellingLiabilitiesToAccount (header : LedgerHeader) (account : AccountEntry) (delta : Int) :
    Except Fault (Option AccountEntry) := do
  let sellingLiab ← getSellingLiabilities header account.ext
  if delta = 0 then return some account
  else
    let maxLiabilities := account.balance - getMinBalance header account.numSubEntries
    if maxLiabilities < 0 then return none
    else
      match ← addToBalance sellingLiab delta maxLiabilities with
      | none => return none
      | some selling =>
          return some { account with ext := some { account.ext.getD ⟨0, 0⟩ with selling } }

def getAvailableBalanceOfAccount (header : LedgerHeader) (account : AccountEntry) :
    Except Fault Int :=
  return account.balance - getMinBalance header account.numSubEntries -
    (← getReservedBalance header account.ext)

def getMaxAmountReceiveOfAccount (header : LedgerHeader) (account : AccountEntry) :
    Except Fault Int :=
  if header.ledgerVersion ≥ 10 then
    return INT64_MAX - (account.balance + (← getBuyingLiabilities header account.ext))
  else
    return INT64_MAX

inductive AddSubentryResult where
  | SUCCESS
  | LOW_RESERVE
  | TOO_MANY_SUBENTRIES
  deriving DecidableEq

def addNumEntries (header : LedgerHeader) (account : AccountEntry) (count : Int) :
    Except Fault (AddSubentryResult × AccountEntry) := do
  let newEntriesCount := (← unsignedToSigned account.numSubEntries) + count
  if newEntriesCount > INT32_MAX then throw .signedOverflow
  else if newEntriesCount < 0 then throw (.runtimeError "invalid account state")
  else if header.ledgerVersion ≥ FIRST_PROTOCOL_SUPPORTING_OPERATION_LIMITS ∧ count > 0 ∧
      newEntriesCount > ACCOUNT_SUBENTRY_LIMIT then
    return (.TOO_MANY_SUBENTRIES, account)
  else
    let reserved ← getReservedBalance header account.ext
    let effMinBalance := getMinBalance header newEntriesCount.toNat + reserved
    if count > 0 ∧ account.balance < effMinBalance then return (.LOW_RESERVE, account)
    else return (.SUCCESS, { account with numSubEntries := newEntriesCount.toNat })

/-! ### Trust lines -/

def addBalanceToTrustLine (header : LedgerHeader) (line : TrustLineEntry) (delta : Int) :
    Except Fault (Option TrustLineEntry) :=
  if delta = 0 then return some line
  else if ¬ isAuthorized line then return none
  else do
    match ← addToBalance line.balance delta line.limit with
    | none => return none
    | some newBalance =>
        if header.ledgerVersion ≥ 10 then
          let selling ← getSellingLiabilities header line.ext
          let buying ← getBuyingLiabilities header line.ext
          if newBalance < selling then return none
          else if newBalance > line.limit - buying then return none
          else return some { line with balance := newBalance }
        else
          return some { line with balance := newBalance }

def addBuyingLiabilitiesToTrustLine (header : LedgerHeader) (line : TrustLineEntry) (delta : Int) :
    Except Fault (Option TrustLineEntry) := do
  let buyingLiab ← getBuyingLiabilities header line.ext
  if delta = 0 then return some line
  else if ¬ isAuthorized line then return none
  else
    match ← addToBalance buyingLiab delta (line.limit - line.balance) with
    | none => return none
    | some buying => return some { line with ext := some { line.ext.getD ⟨0, 0⟩ with buying } }

def addSellingLiabilitiesToTrustLine (header : LedgerHeader) (line : TrustLineEntry)
    (delta : Int) : Except Fault (Option TrustLineEntry) := do
  let sellingLiab ← getSellingLiabilities header line.ext
  if delta = 0 then return some line
  else if ¬ isAuthorized line then return none
  else
    match ← addToBalance sellingLiab delta line.balance with
    | none => return none
    | some selling => return some { line with ext := some { line.ext.getD ⟨0, 0⟩ with selling } }

def getAvailableBalanceOfTrustLine (header : LedgerHeader) (line : TrustLineEntry) :
    Except Fault Int :=
  return line.balance - (← getReservedBalance header line.ext)

def getMaxAmountReceiveOfTrustLine (header : LedgerHeader) (line : TrustLineEntry) :
    Except Fault Int :=
  if isAuthorized line then
    return line.limit - line.balance - (← getReservedLimit header line.ext)
  else
    return 0

def getMinimumLimit (header : LedgerHeader) (line : TrustLineEntry) : Except Fault Int :=
  return line.balance + (← getReservedLimit header line.ext)

/-- What `TrustLineWrapper` holds for an account and an asset: the stored line, or the
unlimited line the issuer has in its own asset. -/
inductive TrustLineWrapper where
  | issuer
  | nonIssuer (line : TrustLineEntry)
  deriving DecidableEq

def TrustLineWrapper.getBalance : TrustLineWrapper → Int
  | .issuer => INT64_MAX
  | .nonIssuer line => line.balance

def TrustLineWrapper.isAuthorized : TrustLineWrapper → Bool
  | .issuer => true
  | .nonIssuer line => Transactions.isAuthorized line

def TrustLineWrapper.getAvailableBalance (header : LedgerHeader) :
    TrustLineWrapper → Except Fault Int
  | .issuer => return INT64_MAX
  | .nonIssuer line => getAvailableBalanceOfTrustLine header line

def TrustLineWrapper.getMaxAmountReceive (header : LedgerHeader) :
    TrustLineWrapper → Except Fault Int
  | .issuer => return INT64_MAX
  | .nonIssuer line => getMaxAmountReceiveOfTrustLine header line

def loadTrustLine (accountID : AccountID) (asset : Asset) : Apply (Option TrustLineWrapper) := do
  match asset.issuer? with
  | none => throw (.runtimeError "trustline for native asset")
  | some issuer =>
      if issuer = accountID then return some .issuer
      else return (← trustLineTable.load ⟨accountID, asset⟩).map .nonIssuer

def loadTrustLineIfNotNative (accountID : AccountID) (asset : Asset) :
    Apply (Option TrustLineWrapper) :=
  match asset with
  | .native => return none
  | _ => loadTrustLine accountID asset

/-! ### Updates of stored entries -/

/-- Stores what a computation on an account gives; false where it gives nothing. -/
def updateAccount (accountID : AccountID)
    (compute : LedgerHeader → AccountEntry → Except Fault (Option AccountEntry)) : Apply Bool := do
  let header ← loadHeader
  let account ← accountTable.current accountID
  match ← computed (compute header account) with
  | none => return false
  | some updated =>
      accountTable.store accountID updated
      return true

/-- The same through a `TrustLineWrapper`, which accepts everything for the issuer. -/
def updateTrustLine (accountID : AccountID) (asset : Asset)
    (compute : LedgerHeader → TrustLineEntry → Except Fault (Option TrustLineEntry)) :
    Apply Bool := do
  let header ← loadHeader
  match ← loadTrustLine accountID asset with
  | none => throw (.runtimeError "TrustLineWrapper not active")
  | some .issuer => return true
  | some (.nonIssuer line) =>
      match ← computed (compute header line) with
      | none => return false
      | some updated =>
          trustLineTable.store ⟨accountID, asset⟩ updated
          return true

def addBalance (accountID : AccountID) (asset : Asset) (delta : Int) : Apply Bool :=
  match asset with
  | .native => updateAccount accountID (addBalanceToAccount · · delta)
  | _ => updateTrustLine accountID asset (addBalanceToTrustLine · · delta)

def addNumEntriesOf (accountID : AccountID) (count : Int) : Apply AddSubentryResult := do
  let header ← loadHeader
  let account ← accountTable.current accountID
  let (result, updated) ← computed (addNumEntries header account count)
  accountTable.store accountID updated
  return result

def generateID : Apply Int := do
  let ledger ← get
  let idPool := (ledger.header.idPool + 1) % 2 ^ 64
  set { ledger with header := { ledger.header with idPool } }
  return toSigned64 idPool

/-! ### Liabilities of offers -/

def offerLiabilities (price : Price) (amount : Int) : Except Fault ExchangeResultV10 :=
  exchangeV10WithoutPriceErrorThresholds price amount INT64_MAX INT64_MAX INT64_MAX false

def getOfferBuyingLiabilities (header : LedgerHeader) (offer : OfferEntry) : Except Fault Int :=
  if header.ledgerVersion < 10 then
    throw (.runtimeError "Offer liabilities calculated before version 10")
  else
    return (← offerLiabilities offer.price offer.amount).numSheepSend

def getOfferSellingLiabilities (header : LedgerHeader) (offer : OfferEntry) : Except Fault Int :=
  if header.ledgerVersion < 10 then
    throw (.runtimeError "Offer liabilities calculated before version 10")
  else
    return (← offerLiabilities offer.price offer.amount).numWheatReceived

def addLiabilitiesOf (sellerID : AccountID) (asset : Asset)
    (native : LedgerHeader → AccountEntry → Except Fault (Option AccountEntry))
    (credit : LedgerHeader → TrustLineEntry → Except Fault (Option TrustLineEntry)) :
    Apply Bool :=
  match asset with
  | .native => do
      match ← accountTable.load sellerID with
      | none => throw (.runtimeError "account does not exist")
      | some _ => updateAccount sellerID native
  | _ => do
      match ← loadTrustLine sellerID asset with
      | none => throw (.runtimeError "trustline does not exist")
      | some _ => updateTrustLine sellerID asset credit

/-- Throws where the source tests a `bool` and throws. -/
def orThrow (action : Apply Bool) (what : String) : Apply Unit := do
  if ← action then return () else throw (.runtimeError what)

def acquireOrReleaseLiabilities (sellerID : AccountID) (offer : OfferEntry) (isAcquire : Bool) :
    Apply Unit :=
  if offer.buying = offer.selling then
    throw (.runtimeError "buying and selling same asset")
  else do
    let header ← loadHeader
    let buying ← computed (getOfferBuyingLiabilities header offer)
    let buyingLiabilities := if isAcquire then buying else -buying
    orThrow (addLiabilitiesOf sellerID offer.buying
      (addBuyingLiabilitiesToAccount · · buyingLiabilities)
      (addBuyingLiabilitiesToTrustLine · · buyingLiabilities)) "could not add buying liabilities"
    let selling ← computed (getOfferSellingLiabilities header offer)
    let sellingLiabilities := if isAcquire then selling else -selling
    orThrow (addLiabilitiesOf sellerID offer.selling
      (addSellingLiabilitiesToAccount · · sellingLiabilities)
      (addSellingLiabilitiesToTrustLine · · sellingLiabilities)) "could not add selling liabilities"

def acquireLiabilities (sellerID : AccountID) (offer : OfferEntry) : Apply Unit :=
  acquireOrReleaseLiabilities sellerID offer true

def releaseLiabilities (sellerID : AccountID) (offer : OfferEntry) : Apply Unit :=
  acquireOrReleaseLiabilities sellerID offer false

end ViiCore.Transactions
