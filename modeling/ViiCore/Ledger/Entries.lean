import ViiCore.Library.FiniteMap
import ViiCore.Util.Numeric

/-!
Ledger entries (`vii-ledger-entries.x`), the header fields the transactions read, and
the ledger an operation runs on.

An entry is stored under its key, so the fields that repeat the key are not repeated in
the entry. An operation runs in `EStateM` over the ledger its `LedgerTxn` sees: loading a
handle reads the entry, writing through the handle stores it back, and a nested
`LedgerTxn` that is rolled back restores the ledger it was opened on. The stamp
`lastModifiedLedgerSeq` and the bookkeeping of active handles are left out.
-/

namespace ViiCore.Ledger

abbrev Uint256 := BitVec 256

abbrev AccountID := Uint256

abbrev SequenceNumber := Int

inductive Asset where
  | native
  | alphaNum4 (assetCode : Vector UInt8 4) (issuer : AccountID)
  | alphaNum12 (assetCode : Vector UInt8 12) (issuer : AccountID)
  deriving DecidableEq

/-- `none` for the native asset, where `getIssuer` has no union arm to read. -/
def Asset.issuer? : Asset → Option AccountID
  | .native => none
  | .alphaNum4 _ issuer => some issuer
  | .alphaNum12 _ issuer => some issuer

structure Price where
  n : Int
  d : Int
  deriving DecidableEq

structure Liabilities where
  buying : Int
  selling : Int
  deriving DecidableEq

inductive SignerKey where
  | ed25519 (key : Uint256)
  | preAuthTx (hash : Uint256)
  | hashX (hash : Uint256)
  deriving DecidableEq

structure Signer where
  key : SignerKey
  weight : Nat
  deriving DecidableEq

structure Thresholds where
  masterWeight : Nat
  low : Nat
  med : Nat
  high : Nat
  deriving DecidableEq

def AUTH_REQUIRED_FLAG : BitVec 32 := 0x1

def AUTH_REVOCABLE_FLAG : BitVec 32 := 0x2

def AUTH_IMMUTABLE_FLAG : BitVec 32 := 0x4

def AUTHORIZED_FLAG : BitVec 32 := 0x1

def PASSIVE_FLAG : BitVec 32 := 0x1

def hasFlag (flags flag : BitVec 32) : Bool := flags &&& flag != 0

/-- `ext` is `none` for version 0 of the extension union. -/
structure AccountEntry where
  balance : Int
  seqNum : SequenceNumber
  numSubEntries : Nat
  inflationDest : Option AccountID
  flags : BitVec 32
  homeDomain : List UInt8
  thresholds : Thresholds
  signers : List Signer
  ext : Option Liabilities
  deriving DecidableEq

structure TrustLineEntry where
  balance : Int
  limit : Int
  flags : BitVec 32
  ext : Option Liabilities
  deriving DecidableEq

structure OfferEntry where
  selling : Asset
  buying : Asset
  amount : Int
  price : Price
  flags : BitVec 32
  deriving DecidableEq

structure TrustLineKey where
  accountID : AccountID
  asset : Asset
  deriving DecidableEq

structure OfferKey where
  sellerID : AccountID
  offerID : Int
  deriving DecidableEq

structure DataKey where
  accountID : AccountID
  dataName : List UInt8
  deriving DecidableEq

structure LedgerHeader where
  ledgerVersion : Nat
  closeTime : Nat
  ledgerSeq : Nat
  totalCoins : Int
  feePool : Int
  inflationSeq : Nat
  idPool : Nat
  baseFee : Nat
  baseReserve : Nat
  maxTxSetSize : Nat
  deriving DecidableEq

end ViiCore.Ledger

namespace ViiCore

structure Ledger where
  header : Ledger.LedgerHeader
  accounts : FiniteMap.Map Ledger.AccountID Ledger.AccountEntry
  trustLines : FiniteMap.Map Ledger.TrustLineKey Ledger.TrustLineEntry
  offers : FiniteMap.Map Ledger.OfferKey Ledger.OfferEntry
  data : FiniteMap.Map Ledger.DataKey (List UInt8)

end ViiCore

namespace ViiCore.Ledger

open ViiCore.FiniteMap

abbrev Apply := EStateM Fault Ledger

def computed {α : Type} : Except Fault α → Apply α
  | .ok value => pure value
  | .error fault => throw fault

def loadHeader : Apply LedgerHeader := return (← get).header

structure Table (κ ν : Type) where
  read : Ledger → Map κ ν
  write : Map κ ν → Ledger → Ledger

variable {κ ν : Type} [DecidableEq κ]

def Table.load (table : Table κ ν) (key : κ) : Apply (Option ν) :=
  return (table.read (← get)).lookup key

/-- Reading through a handle that was never activated throws. -/
def Table.current (table : Table κ ν) (key : κ) : Apply ν := do
  match ← table.load key with
  | some entry => return entry
  | none => throw (.runtimeError "LedgerTxnEntry not active")

def Table.store (table : Table κ ν) (key : κ) (entry : ν) : Apply Unit :=
  modify fun ledger => table.write ((table.read ledger).insert key entry) ledger

def Table.create (table : Table κ ν) (key : κ) (entry : ν) : Apply Unit := do
  match ← table.load key with
  | some _ => throw (.runtimeError "Key already exists")
  | none => table.store key entry

def Table.erase (table : Table κ ν) (key : κ) : Apply Unit := do
  match ← table.load key with
  | none => throw (.runtimeError "Key does not exist")
  | some _ => modify fun ledger => table.write ((table.read ledger).erase key) ledger

def accountTable : Table AccountID AccountEntry :=
  ⟨Ledger.accounts, fun accounts ledger => { ledger with accounts }⟩

def trustLineTable : Table TrustLineKey TrustLineEntry :=
  ⟨Ledger.trustLines, fun trustLines ledger => { ledger with trustLines }⟩

def offerTable : Table OfferKey OfferEntry :=
  ⟨Ledger.offers, fun offers ledger => { ledger with offers }⟩

def dataTable : Table DataKey (List UInt8) :=
  ⟨Ledger.data, fun data ledger => { ledger with data }⟩

/-- A nested `LedgerTxn` that is never committed. -/
def rolledBack {α : Type} (body : Apply α) : Apply α := do
  let before ← get
  let result ← body
  set before
  return result

/-- A nested `LedgerTxn`: an exception that leaves it takes its changes along. -/
def inLedgerTxn {α : Type} (body : Apply α) : Apply α := fun before =>
  match body before with
  | .ok result after => .ok result after
  | .error fault _ => .error fault before

/-- Offers of `sellerID` that buy or sell `asset`. -/
def loadOffersByAccountAndAsset (sellerID : AccountID) (asset : Asset) :
    Apply (List (OfferKey × OfferEntry)) := do
  let offers := (← get).offers.entries.map fun entry => (entry.1, entry.2)
  return offers.filter fun (key, offer) =>
    key.sellerID = sellerID ∧ (offer.buying = asset ∨ offer.selling = asset)

/-- How the order book of a pair is searched. `isBetterOffer` compares prices as floating
point numbers before the offer ids, so the comparison is a parameter. -/
structure OrderBook where
  isBetterOffer : OfferKey × OfferEntry → OfferKey × OfferEntry → Bool

def OrderBook.getBestOffer (book : OrderBook) (buying selling : Asset) (ledger : Ledger) :
    Option (OfferKey × OfferEntry) :=
  ledger.offers.entries.foldl (fun best entry =>
    if entry.2.buying = buying ∧ entry.2.selling = selling then
      match best with
      | none => some (entry.1, entry.2)
      | some found => if book.isBetterOffer (entry.1, entry.2) found
          then some (entry.1, entry.2) else some found
    else best) none

def OrderBook.loadBestOffer (book : OrderBook) (buying selling : Asset) :
    Apply (Option (OfferKey × OfferEntry)) :=
  return book.getBestOffer buying selling (← get)

/-! ### Running the primitives -/

section Rules

open ViiCore.Execution

variable {α : Type} {fault : Fault → Ledger → Prop} {ledger : Ledger}

@[simp] theorem wp_computed {post : α → Ledger → Prop} (result : Except Fault α) :
    wp (computed result) post fault ledger ↔
      match result with
      | .ok value => post value ledger
      | .error thrown => fault thrown ledger := by
  cases result <;> rfl

@[simp] theorem wp_loadHeader {post : LedgerHeader → Ledger → Prop} :
    wp loadHeader post fault ledger ↔ post ledger.header ledger :=
  Iff.rfl

@[simp] theorem wp_load {post : Option ν → Ledger → Prop} (table : Table κ ν) (key : κ) :
    wp (table.load key) post fault ledger ↔ post ((table.read ledger).lookup key) ledger :=
  Iff.rfl

@[simp] theorem wp_store {post : Unit → Ledger → Prop} (table : Table κ ν) (key : κ) (entry : ν) :
    wp (table.store key entry) post fault ledger ↔
      post () (table.write ((table.read ledger).insert key entry) ledger) :=
  Iff.rfl

theorem wp_current {post : ν → Ledger → Prop} (table : Table κ ν) (key : κ) :
    wp (table.current key) post fault ledger ↔
      match (table.read ledger).lookup key with
      | some entry => post entry ledger
      | none => fault (.runtimeError "LedgerTxnEntry not active") ledger := by
  unfold Table.current
  simp only [wp_bind, wp_load]
  split <;> simp_all

theorem current_ok {table : Table κ ν} {key : κ} {entry : ν}
    (found : (table.read ledger).lookup key = some entry) :
    table.current key ledger = .ok entry ledger := by
  change (match (table.read ledger).lookup key with
    | some entry => (pure entry : Apply ν)
    | none => throw (Fault.runtimeError "LedgerTxnEntry not active")) ledger = _
  rw [found]
  rfl

theorem wp_create {post : Unit → Ledger → Prop} (table : Table κ ν) (key : κ) (entry : ν) :
    wp (table.create key entry) post fault ledger ↔
      match (table.read ledger).lookup key with
      | some _ => fault (.runtimeError "Key already exists") ledger
      | none => post () (table.write ((table.read ledger).insert key entry) ledger) := by
  unfold Table.create
  simp only [wp_bind, wp_load]
  split <;> simp_all

theorem wp_erase {post : Unit → Ledger → Prop} (table : Table κ ν) (key : κ) :
    wp (table.erase key) post fault ledger ↔
      match (table.read ledger).lookup key with
      | none => fault (.runtimeError "Key does not exist") ledger
      | some _ => post () (table.write ((table.read ledger).erase key) ledger) := by
  unfold Table.erase
  simp only [wp_bind, wp_load]
  split <;> simp_all

@[simp] theorem wp_rolledBack {post : α → Ledger → Prop} (body : Apply α) :
    wp (rolledBack body) post fault ledger ↔
      wp body (fun result _ => post result ledger) fault ledger := by
  unfold rolledBack
  simp

@[simp] theorem wp_inLedgerTxn {post : α → Ledger → Prop} (body : Apply α) :
    wp (inLedgerTxn body) post fault ledger ↔ wp body post (fun thrown _ => fault thrown ledger) ledger := by
  unfold inLedgerTxn wp
  cases ran : body ledger <;> simp only [ran]

@[simp] theorem accountTable_read : accountTable.read ledger = ledger.accounts := rfl

@[simp] theorem accountTable_write (accounts : Map AccountID AccountEntry) :
    accountTable.write accounts ledger = { ledger with accounts } := rfl

@[simp] theorem trustLineTable_read : trustLineTable.read ledger = ledger.trustLines := rfl

@[simp] theorem trustLineTable_write (trustLines : Map TrustLineKey TrustLineEntry) :
    trustLineTable.write trustLines ledger = { ledger with trustLines } := rfl

@[simp] theorem offerTable_read : offerTable.read ledger = ledger.offers := rfl

@[simp] theorem offerTable_write (offers : Map OfferKey OfferEntry) :
    offerTable.write offers ledger = { ledger with offers } := rfl

@[simp] theorem dataTable_read : dataTable.read ledger = ledger.data := rfl

@[simp] theorem dataTable_write (data : Map DataKey (List UInt8)) :
    dataTable.write data ledger = { ledger with data } := rfl

end Rules

theorem OrderBook.getBestOffer_lookup (book : OrderBook) (buying selling : Asset) (ledger : Ledger)
    (key : OfferKey) (offer : OfferEntry)
    (best : book.getBestOffer buying selling ledger = some (key, offer)) :
    ledger.offers.lookup key = some offer ∧ offer.buying = buying ∧ offer.selling = selling := by
  suffices general : ∀ (entries : List (Sigma fun _ : OfferKey => OfferEntry))
      (start : Option (OfferKey × OfferEntry)),
      (∀ entry ∈ entries, entry ∈ ledger.offers.entries) →
      (∀ found, start = some found → ⟨found.1, found.2⟩ ∈ ledger.offers.entries ∧
        found.2.buying = buying ∧ found.2.selling = selling) →
      ∀ found, entries.foldl (fun best entry =>
        if entry.2.buying = buying ∧ entry.2.selling = selling then
          match best with
          | none => some (entry.1, entry.2)
          | some found => if book.isBetterOffer (entry.1, entry.2) found
              then some (entry.1, entry.2) else some found
        else best) start = some found →
      ⟨found.1, found.2⟩ ∈ ledger.offers.entries ∧
        found.2.buying = buying ∧ found.2.selling = selling by
    have result := general ledger.offers.entries none (fun _ member => member)
      (fun _ impossible => by cases impossible) (key, offer) best
    exact ⟨AList.mem_lookup_iff.mpr result.1, result.2⟩
  intro entries
  induction entries with
  | nil =>
      intro start _ startOk found same
      exact startOk found same
  | cons head tail ih =>
      intro start contained startOk found same
      refine ih _ (fun entry member => contained entry (List.mem_cons_of_mem _ member)) ?_ found same
      intro chosen chosenIs
      have headContained := contained head List.mem_cons_self
      by_cases matching : head.2.buying = buying ∧ head.2.selling = selling
      · simp only [matching, and_self, if_true] at chosenIs
        cases start with
        | none =>
            cases chosenIs
            exact ⟨headContained, matching⟩
        | some previous =>
            simp only at chosenIs
            split at chosenIs
            · cases chosenIs
              exact ⟨headContained, matching⟩
            · exact startOk chosen chosenIs
      · simp only [matching, if_false] at chosenIs
        exact startOk chosen chosenIs

end ViiCore.Ledger
