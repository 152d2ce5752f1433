import Mathlib.Data.Prod.Lex
import ViiCore.Ledger.LedgerTxn
import ViiCore.Library.Sorting
import ViiCore.Util.RandomEvictionCache

/-!
The search for the best offer of a pair of assets (`ledger/LedgerTxn.cpp` and
`ledger/LedgerTxnOfferSQL.cpp`).

A nested transaction looks through the offers that it records, adds their keys to those its
parent has to leave out, and takes the better of its own best offer and its parent's. The root
reads the offers of the pair from the database in batches, in the order of price and id, and
caches what it has read until a child is committed to it.

The cache of single entries is left out: it answers as the database does.
-/

namespace ViiCore.LedgerTxn

open ViiCore.FiniteMap ViiCore.Sorting

/-- What is read of an offer. `price` is the quotient in floating point by which offers are
ordered, here and in the database. -/
structure OfferFields (κ ν Asset Price : Type) where
  isOffer : κ → Bool
  offerID : κ → Int
  buying : ν → Asset
  selling : ν → Asset
  price : ν → Price

variable {κ ν Asset Price : Type} [DecidableEq κ] [DecidableEq Asset] [LinearOrder Price]

section Search

variable (fields : OfferFields κ ν Asset Price)

omit [DecidableEq κ] in
def isBetterOffer (lhsEntry rhsEntry : LedgerEntry κ ν) : Except Fault Bool := do
  let lhs := lhsEntry.data
  let rhs := rhsEntry.data
  assertThat (fields.buying lhs = fields.buying rhs) "lhs.buying == rhs.buying"
  assertThat (fields.selling lhs = fields.selling rhs) "lhs.selling == rhs.selling"
  let lhsPrice := fields.price lhs
  let rhsPrice := fields.price rhs
  if lhsPrice < rhsPrice then return true
  else if lhsPrice = rhsPrice then
    return fields.offerID lhsEntry.key < fields.offerID rhsEntry.key
  else return false

omit [DecidableEq κ] [LinearOrder Price] in
def isOfPair (buying selling : Asset) (entry : LedgerEntry κ ν) : Bool :=
  fields.buying entry.data = buying && fields.selling entry.data = selling

/-- A step of the loop over the entries that a transaction records: the keys to leave out, and
the best offer that was met. -/
def considerEntry (buying selling : Asset)
    (state : Finset κ × Option (LedgerEntry κ ν))
    (kv : Sigma fun _ : κ => Option (LedgerEntry κ ν)) :
    Except Fault (Finset κ × Option (LedgerEntry κ ν)) :=
  let (exclude, bestOffer) := state
  if ¬ fields.isOffer kv.1 then return state
  else if kv.1 ∈ exclude then return state
  else
    match kv.2 with
    | none => return (insert kv.1 exclude, bestOffer)
    | some entry => do
        if ¬ isOfPair fields buying selling entry then return (insert kv.1 exclude, bestOffer)
        else
          match bestOffer with
          | none => return (insert kv.1 exclude, some entry)
          | some best =>
              if ← isBetterOffer fields entry best then return (insert kv.1 exclude, some entry)
              else return (insert kv.1 exclude, bestOffer)

/-! ### The root -/

structure BestOffersCacheEntry (κ ν : Type) where
  bestOffers : List (LedgerEntry κ ν)
  allLoaded : Bool

/-- The key is the encoding of the asset that is bought, followed by that of the one sold. -/
abbrev BestOffersCache (κ ν Asset : Type) :=
  RandomEvictionCache (Asset × Asset) (BestOffersCacheEntry κ ν)

def offerOrder (entry : LedgerEntry κ ν) : Price ×ₗ Int :=
  toLex (fields.price entry.data, fields.offerID entry.key)

variable (database : Sorter (LedgerEntry κ ν)) (root : Root κ ν)

def offersOfPair (buying selling : Asset) : List (LedgerEntry κ ν) :=
  let rows := root.rows.entries.map fun row =>
    ({ lastModifiedLedgerSeq := row.2.lastModified, key := row.1, data := row.2.data } :
      LedgerEntry κ ν)
  database.sort (byKey (offerOrder fields)) <|
    rows.filter fun entry => fields.isOffer entry.key && isOfPair fields buying selling entry

def loadBestOffers (buying selling : Asset) (numOffers offset : Nat) : List (LedgerEntry κ ν) :=
  ((offersOfPair fields database root buying selling).drop offset).take numOffers

def findIncludedOffer (offers : List (LedgerEntry κ ν)) (exclude : Finset κ) :
    Option (LedgerEntry κ ν) :=
  offers.find? fun entry => entry.key ∉ exclude

def BATCH_SIZE : Nat := 5

def loadBatch (buying selling : Asset) (cached : BestOffersCacheEntry κ ν) :
    List (LedgerEntry κ ν) × BestOffersCacheEntry κ ν :=
  let newOffers :=
    loadBestOffers fields database root buying selling BATCH_SIZE cached.bestOffers.length
  (newOffers,
    { bestOffers := cached.bestOffers ++ newOffers
      allLoaded := cached.allLoaded || newOffers.length < BATCH_SIZE })

def remaining (buying selling : Asset) (cached : BestOffersCacheEntry κ ν) : Nat :=
  if cached.allLoaded then 0
  else (offersOfPair fields database root buying selling).length - cached.bestOffers.length + 1

omit [DecidableEq κ] in
theorem remaining_loadBatch (buying selling : Asset) (cached : BestOffersCacheEntry κ ν)
    (more : cached.allLoaded = false) :
    remaining fields database root buying selling
        (loadBatch fields database root buying selling cached).2 <
      remaining fields database root buying selling cached := by
  simp only [remaining, loadBatch, loadBestOffers, BATCH_SIZE, more, Bool.false_or,
    decide_eq_true_eq, List.length_append, List.length_take, List.length_drop, Bool.false_eq_true,
    if_false]
  split <;> omega

def loadUntilIncluded (buying selling : Asset) (exclude : Finset κ)
    (cached : BestOffersCacheEntry κ ν) : Option (LedgerEntry κ ν) × BestOffersCacheEntry κ ν :=
  if _more : cached.allLoaded = false then
    let batch := loadBatch fields database root buying selling cached
    match findIncludedOffer batch.1 exclude with
    | some res => (some res, batch.2)
    | none => loadUntilIncluded buying selling exclude batch.2
  else (none, cached)
termination_by remaining fields database root buying selling cached
decreasing_by exact remaining_loadBatch fields database root buying selling cached ‹_›

omit [DecidableEq κ] [LinearOrder Price] in
/-- A new entry of the cache may be evicted at once, and is then not kept. -/
def getFromBestOffersCache (cache : BestOffersCache κ ν Asset) (draws : Draws)
    (buying selling : Asset) (defaultValue : BestOffersCacheEntry κ ν) :
    BestOffersCacheEntry κ ν × BestOffersCache κ ν Asset :=
  let cache :=
    if cache.exists_ (buying, selling) then cache
    else cache.put draws (buying, selling) defaultValue
  (cache.get (buying, selling)).getD (defaultValue, cache)

def Root.getBestOffer (cache : BestOffersCache κ ν Asset) (draws : Draws) (buying selling : Asset)
    (exclude : Finset κ) : Option (LedgerEntry κ ν) × BestOffersCache κ ν Asset :=
  let emptyCacheEntry : BestOffersCacheEntry κ ν := { bestOffers := [], allLoaded := false }
  let (cached, cache) := getFromBestOffersCache cache draws buying selling emptyCacheEntry
  match findIncludedOffer cached.bestOffers exclude with
  | some res => (some res, cache)
  | none =>
      let (res, cached) := loadUntilIncluded fields database root buying selling exclude cached
      (res, cache.assign (buying, selling) cached)

/-! ### Nested transactions -/

/-- What a level returns: the best offer, with the keys to leave out as they are then. -/
def getBestOffer (cache : BestOffersCache κ ν Asset) (draws : Draws) (buying selling : Asset) :
    List (Impl κ ν) → Finset κ →
      Except Fault (Option (LedgerEntry κ ν) × Finset κ × BestOffersCache κ ν Asset)
  | [], exclude =>
      let (res, cache) := root.getBestOffer fields database cache draws buying selling exclude
      return (res, exclude, cache)
  | txn :: outer, exclude => do
      let (exclude, bestOffer) ←
        txn.mEntry.entries.foldlM (considerEntry fields buying selling) (exclude, none)
      let (parentBestOffer, exclude, cache) ←
        getBestOffer cache draws buying selling outer exclude
      match bestOffer, parentBestOffer with
      | some best, some parentBest =>
          if ← isBetterOffer fields best parentBest then return (some best, exclude, cache)
          else return (some parentBest, exclude, cache)
      | some best, none => return (some best, exclude, cache)
      | none, _ => return (parentBestOffer, exclude, cache)

end Search

/-! ### Runs -/

structure Offers (κ ν Asset : Type) where
  nesting : Nesting κ ν
  mBestOffersCache : BestOffersCache κ ν Asset

inductive OfferCall (κ ν Asset : Type) where
  | call (call : Call κ ν)
  | getBestOffer (draws : Draws) (buying selling : Asset) (exclude : Finset κ)
  | loadBestOffer (draws : Draws) (buying selling : Asset)

namespace Offers

variable (fields : OfferFields κ ν Asset Price) (database : Sorter (LedgerEntry κ ν))
  (offers : Offers κ ν Asset)

/-- The cache is cleared where a child is committed to the root. -/
def call (call : Call κ ν) : Except Fault (Offers κ ν Asset) := do
  let after ← offers.nesting.call call
  match call, offers.nesting.levels with
  | .commit, [_] => return { nesting := after, mBestOffersCache := offers.mBestOffersCache.clear }
  | _, _ => return { offers with nesting := after }

def getBestOffer (draws : Draws) (buying selling : Asset) (exclude : Finset κ) :
    Except Fault (Option (LedgerEntry κ ν) × Offers κ ν Asset) := do
  let (res, _, cache) ←
    LedgerTxn.getBestOffer fields database offers.nesting.root offers.mBestOffersCache draws buying
      selling offers.nesting.levels exclude
  return (res, { offers with mBestOffersCache := cache })

/-- What the cache has read stays where the load is refused. -/
def loadBestOffer (draws : Draws) (buying selling : Asset) : Except Fault (Offers κ ν Asset) :=
  match offers.nesting.levels with
  | [] => throw (.runtimeError "LedgerTxnEntry was handled")
  | txn :: _ => do
      txn.throwIfSealed
      let (le, searched) ← offers.getBestOffer fields database draws buying selling ∅
      match le with
      | some found => return { searched with nesting := searched.nesting.perform (.load found.key) }
      | none => return searched

/-- A call that throws leaves everything as it was. -/
def perform : OfferCall κ ν Asset → Offers κ ν Asset
  | .call called =>
      match offers.call called with
      | .ok after => after
      | .error _ => offers
  | .getBestOffer draws buying selling exclude =>
      match offers.getBestOffer fields database draws buying selling exclude with
      | .ok (_, after) => after
      | .error _ => offers
  | .loadBestOffer draws buying selling =>
      match offers.loadBestOffer fields database draws buying selling with
      | .ok after => after
      | .error _ => offers

def run (calls : List (OfferCall κ ν Asset)) : Offers κ ν Asset :=
  calls.foldl (perform fields database) offers

end Offers

end ViiCore.LedgerTxn
