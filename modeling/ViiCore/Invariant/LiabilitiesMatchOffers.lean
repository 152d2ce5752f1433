import ViiCore.Herder.SurvivingOffers

/-!
The run-time check of liabilities (`invariant/LiabilitiesMatchOffers.cpp`).

The checker adds up, for every account and asset, by how much the change of the liabilities of the
offers differs from the change of the recorded ones. The messages it returns are kept as data. The
map of differences is visited in an order of its own, which decides only about the first message.
-/

namespace ViiCore.Invariant

open ViiCore.Ledger ViiCore.FiniteMap ViiCore.Transactions ViiCore.Herder

/-! ### Deltas -/

inductive LedgerEntry where
  | ACCOUNT (accountID : AccountID) (account : AccountEntry)
  | TRUSTLINE (key : TrustLineKey) (trustLine : TrustLineEntry)
  | OFFER (key : OfferKey) (offer : OfferEntry)
  | DATA (key : DataKey) (value : List UInt8)

inductive LedgerKey where
  | ACCOUNT (accountID : AccountID)
  | TRUSTLINE (key : TrustLineKey)
  | OFFER (key : OfferKey)
  | DATA (key : DataKey)
  deriving DecidableEq

/-- The entry under one key after and before. The native asset has no trust lines. -/
inductive EntryDelta where
  | ACCOUNT (accountID : AccountID) (current previous : Option AccountEntry)
  | TRUSTLINE (key : TrustLineKey) (issued : key.asset ≠ .native)
      (current previous : Option TrustLineEntry)
  | OFFER (key : OfferKey) (current previous : Option OfferEntry)
  | DATA (key : DataKey) (current previous : Option (List UInt8))

namespace EntryDelta

def key : EntryDelta → LedgerKey
  | ACCOUNT accountID _ _ => .ACCOUNT accountID
  | TRUSTLINE key _ _ _ => .TRUSTLINE key
  | OFFER key _ _ => .OFFER key
  | DATA key _ _ => .DATA key

def current : EntryDelta → Option LedgerEntry
  | ACCOUNT accountID current _ => current.map (.ACCOUNT accountID)
  | TRUSTLINE key _ current _ => current.map (.TRUSTLINE key)
  | OFFER key current _ => current.map (.OFFER key)
  | DATA key current _ => current.map (.DATA key)

def previous : EntryDelta → Option LedgerEntry
  | ACCOUNT accountID _ previous => previous.map (.ACCOUNT accountID)
  | TRUSTLINE key _ _ previous => previous.map (.TRUSTLINE key)
  | OFFER key _ previous => previous.map (.OFFER key)
  | DATA key _ previous => previous.map (.DATA key)

end EntryDelta

structure HeaderDelta where
  current : LedgerHeader
  previous : LedgerHeader

structure LedgerTxnDelta where
  header : HeaderDelta
  entry : List EntryDelta
  distinct : (entry.map EntryDelta.key).Nodup

/-! ### The checker -/

inductive Violation where
  | unauthorized (trustLine : TrustLineEntry)
  | buyingDiffers (by_ : Int) (accountID : AccountID) (asset : Asset)
  | sellingDiffers (by_ : Int) (accountID : AccountID) (asset : Asset)
  | accountBalance (account : AccountEntry)
  | trustLineBalance (trustLine : TrustLineEntry)
  deriving DecidableEq

abbrev DeltaLiabilities := Map (AccountID × Asset) Liabilities

def getOfferLiabilities (side : Side) (offer : OfferEntry) : Except Fault Int := do
  let res ← offerLiabilities offer.price offer.amount
  match side with
  | .buying => return res.numSheepSend
  | .selling => return res.numWheatReceived

/-- `deltaLiabilities[accountID][asset]`, to which an amount is added on one side. -/
def addTo (side : Side) (accountID : AccountID) (asset : Asset) (amount : Int)
    (deltaLiabilities : DeltaLiabilities) : Except Fault DeltaLiabilities := do
  let liabilities := (deltaLiabilities.lookup (accountID, asset)).getD ⟨0, 0⟩
  let value ← inInt64 (side.of liabilities + amount)
  return deltaLiabilities.insert (accountID, asset) (side.set liabilities value)

def subtractRecorded (sign : Int) (accountID : AccountID) (asset : Asset)
    (ext : Option Liabilities) (deltaLiabilities : DeltaLiabilities) :
    Except Fault DeltaLiabilities := do
  let selling ← inInt64 (sign * (recorded ext).selling)
  let deltaLiabilities ← addTo .selling accountID asset (-selling) deltaLiabilities
  let buying ← inInt64 (sign * (recorded ext).buying)
  addTo .buying accountID asset (-buying) deltaLiabilities

def addOffered (side : Side) (sign : Int) (key : OfferKey) (offer : OfferEntry)
    (deltaLiabilities : DeltaLiabilities) : Except Fault DeltaLiabilities := do
  if (side.asset offer).issuer? ≠ some key.sellerID then
    let amount ← inInt64 (sign * (← getOfferLiabilities side offer))
    addTo side key.sellerID (side.asset offer) amount deltaLiabilities
  else
    return deltaLiabilities

def addOrSubtractLiabilities (entry : Option LedgerEntry) (isAdd : Bool)
    (deltaLiabilities : DeltaLiabilities) : Except Fault DeltaLiabilities :=
  let sign : Int := if isAdd then 1 else -1
  match entry with
  | none => return deltaLiabilities
  | some (.ACCOUNT accountID account) =>
      subtractRecorded sign accountID .native account.ext deltaLiabilities
  | some (.TRUSTLINE key trust) =>
      subtractRecorded sign key.accountID key.asset trust.ext deltaLiabilities
  | some (.OFFER key offer) => do
      let deltaLiabilities ← addOffered .selling sign key offer deltaLiabilities
      addOffered .buying sign key offer deltaLiabilities
  | some (.DATA _ _) => return deltaLiabilities

def accumulateLiabilities (current previous : Option LedgerEntry)
    (deltaLiabilities : DeltaLiabilities) : Except Fault DeltaLiabilities := do
  let deltaLiabilities ← addOrSubtractLiabilities current true deltaLiabilities
  addOrSubtractLiabilities previous false deltaLiabilities

def checkAuthorized (current : Option LedgerEntry) : Option Violation :=
  match current with
  | some (.TRUSTLINE _ trust) =>
      if ¬ isAuthorized trust ∧
          ((recorded trust.ext).selling > 0 ∨ (recorded trust.ext).buying > 0) then
        some (.unauthorized trust)
      else none
  | _ => none

/-- The liabilities are compared with themselves, as in the source. -/
def shouldCheckAccount (current : AccountEntry) (previous : Option AccountEntry)
    (ledgerVersion : Nat) : Bool :=
  match previous with
  | none => true
  | some previous =>
      let didBalanceDecrease : Bool := current.balance < previous.balance
      if ledgerVersion ≥ 10 then
        let sellingLiabilitiesInc : Bool :=
          (recorded current.ext).selling > (recorded current.ext).selling
        let buyingLiabilitiesInc : Bool :=
          (recorded current.ext).buying > (recorded current.ext).buying
        let didLiabilitiesIncrease := sellingLiabilitiesInc || buyingLiabilitiesInc
        didBalanceDecrease || didLiabilitiesIncrease
      else
        didBalanceDecrease

def countedLiabilities (ledgerVersion : Nat) (ext : Option Liabilities) : Liabilities :=
  if ledgerVersion ≥ 10 then recorded ext else ⟨0, 0⟩

def checkBalanceAndLimit (header : LedgerHeader) (delta : EntryDelta) (ledgerVersion : Nat) :
    Except Fault (Option Violation) :=
  match delta with
  | .ACCOUNT _ (some account) previous => do
      if shouldCheckAccount account previous ledgerVersion then
        let liabilities := countedLiabilities ledgerVersion account.ext
        let minBalance ← inInt64 (getMinBalance header account.numSubEntries)
        if account.balance < (← inInt64 (minBalance + liabilities.selling)) then
          return some (.accountBalance account)
        else if (← inInt64 (INT64_MAX - account.balance)) < liabilities.buying then
          return some (.accountBalance account)
        else return none
      else return none
  | .TRUSTLINE _ _ (some trust) _ => do
      let liabilities := countedLiabilities ledgerVersion trust.ext
      if trust.balance < liabilities.selling then return some (.trustLineBalance trust)
      else if (← inInt64 (trust.limit - trust.balance)) < liabilities.buying then
        return some (.trustLineBalance trust)
      else return none
  | _ => return none

def accumulateAll : List EntryDelta → DeltaLiabilities →
    Except Fault (Except Violation DeltaLiabilities)
  | [], deltaLiabilities => return .ok deltaLiabilities
  | entryDelta :: rest, deltaLiabilities =>
      match checkAuthorized entryDelta.current with
      | some violation => return .error violation
      | none => do
          let deltaLiabilities ←
            accumulateLiabilities entryDelta.current entryDelta.previous deltaLiabilities
          accumulateAll rest deltaLiabilities

def checkDifferences (deltaLiabilities : DeltaLiabilities) : Option Violation :=
  deltaLiabilities.entries.findSome? fun entry =>
    if entry.2.buying ≠ 0 then some (.buyingDiffers entry.2.buying entry.1.1 entry.1.2)
    else if entry.2.selling ≠ 0 then some (.sellingDiffers entry.2.selling entry.1.1 entry.1.2)
    else none

def checkBalances (header : LedgerHeader) (ledgerVersion : Nat) :
    List EntryDelta → Except Fault (Option Violation)
  | [] => return none
  | entryDelta :: rest => do
      match ← checkBalanceAndLimit header entryDelta ledgerVersion with
      | some violation => return some violation
      | none => checkBalances header ledgerVersion rest

def checkLiabilities (ltxDelta : LedgerTxnDelta) : Except Fault (Option Violation) := do
  match ← accumulateAll ltxDelta.entry ∅ with
  | .error violation => return some violation
  | .ok deltaLiabilities => return checkDifferences deltaLiabilities

/-- `none` stands for the empty string. -/
def checkOnOperationApply (ltxDelta : LedgerTxnDelta) : Except Fault (Option Violation) := do
  let ledgerVersion := ltxDelta.header.current.ledgerVersion
  if ledgerVersion ≥ 10 then
    match ← checkLiabilities ltxDelta with
    | some violation => return some violation
    | none => checkBalances ltxDelta.header.current ledgerVersion ltxDelta.entry
  else
    checkBalances ltxDelta.header.current ledgerVersion ltxDelta.entry

end ViiCore.Invariant
