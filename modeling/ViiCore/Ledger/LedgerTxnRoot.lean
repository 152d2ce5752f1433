import ViiCore.Ledger.LedgerTxnRecords
import ViiCore.Util.RandomEvictionCache

/-!
The root of a nesting of transactions, with its database and its cache of entries
(`LedgerTxnRoot` of `ledger/LedgerTxn.cpp`), and the calls to a nesting over it.

A table finds a row by its primary key, which for an offer is its id alone. A row is read with more
columns of the key, and written and deleted by the primary key. How rows are stored is left to SQL:
a row gives back the entry that was written.

Every entry that is asked of the root goes through the cache, so a call may change the cache even
where it changes no entry. What the cache draws at random is a function of its generation.
-/

namespace ViiCore.LedgerTxn

open ViiCore.FiniteMap
open ViiCore.Ledger (LedgerHeader)

inductive LedgerEntryType where
  | ACCOUNT
  | TRUSTLINE
  | OFFER
  | DATA
  deriving DecidableEq

/-- The tables, as one: of a key its type, the primary key of its row, which tells the tables apart,
and all columns by which the row is selected. -/
structure Schema (κ ρ σ : Type) where
  type : κ → LedgerEntryType
  primaryKey : κ → ρ
  columns : κ → σ

variable {κ ν ρ σ : Type} [DecidableEq κ] [DecidableEq ρ] [DecidableEq σ]

/-- A key with what is written for it: an entry, or nothing where its row is deleted. -/
abbrev Write (κ ν : Type) := Sigma fun _ : κ => Option (LedgerEntry κ ν)

structure LedgerTxnRoot (κ ν ρ : Type) where
  mDatabase : Map ρ (LedgerEntry κ ν)
  mHeader : LedgerHeader
  mEntryCache : RandomEvictionCache κ (Option (LedgerEntry κ ν))
  /-- The rows written by commits so far, in their order. Nothing reads them. -/
  written : List (Write κ ν)

abbrev Asking (κ ν ρ : Type) := StateT (LedgerTxnRoot κ ν ρ) (Except Fault)

section Reading

variable (schema : Schema κ ρ σ) (rand : Nat → Draws)

omit [DecidableEq κ] in
/-- `loadAccount`, `loadData`, `loadOffer` and `loadTrustLine`. -/
def loadRow (mDatabase : Map ρ (LedgerEntry κ ν)) (key : κ) : Option (LedgerEntry κ ν) :=
  match mDatabase.lookup (schema.primaryKey key) with
  | some entry => if schema.columns entry.key = schema.columns key then some entry else none
  | none => none

namespace LedgerTxnRoot

def getNewestVersion (key : κ) : Asking κ ν ρ (Option (LedgerEntry κ ν)) := do
  let root ← get
  match root.mEntryCache.get key with
  | some (cached, mEntryCache) =>
      set { root with mEntryCache }
      return cached
  | none =>
      let entry := loadRow schema root.mDatabase key
      set { root with
        mEntryCache := root.mEntryCache.put (rand root.mEntryCache.mGeneration.toNat) key entry }
      return entry

end LedgerTxnRoot

/-- `getNewestVersion` of a level, given the levels from it outwards. -/
def ask : List (Impl κ ν) → κ → Asking κ ν ρ (Option (LedgerEntry κ ν))
  | [], key => LedgerTxnRoot.getNewestVersion schema rand key
  | txn :: outer, key =>
      match txn.mEntry.lookup key with
      | some recorded => return recorded
      | none => ask outer key

/-! ### Calls that ask the parent -/

namespace Asking

variable (outer : List (Impl κ ν)) (txn : Impl κ ν)

def create (entry : LedgerEntry κ ν) : Asking κ ν ρ (Impl κ ν) := do
  txn.throwIfSealed
  if (← ask schema rand (txn :: outer) entry.key).isSome then
    throw (.runtimeError "Key already exists")
  else
    return { txn with
      mActive := txn.activate entry.key .ledgerTxnEntry
      mEntry := txn.mEntry.insert entry.key (some entry) }

def forget (mEntry : EntryMap κ ν) (key : κ) : Asking κ ν ρ (EntryMap κ ν) := do
  if (← ask schema rand outer key).isNone then return mEntry.erase key
  else return mEntry.insert key none

def erase (key : κ) : Asking κ ν ρ (Impl κ ν) := do
  txn.throwIfSealed
  if (← ask schema rand (txn :: outer) key).isNone then throw (.runtimeError "Key does not exist")
  else
    let mEntry ← forget schema rand outer txn.mEntry key
    return { txn with mEntry, mActive := txn.mActive.erase key }

def load (key : κ) : Asking κ ν ρ (Impl κ ν) := do
  txn.throwIfSealed
  if (txn.mActive.lookup key).isSome then throw (.runtimeError "Key is active")
  else
    match ← ask schema rand (txn :: outer) key with
    | none => return txn
    | some newest =>
        return { txn with
          mActive := txn.activate key .ledgerTxnEntry
          mEntry := txn.mEntry.insert key (some newest) }

def loadWithoutRecord (key : κ) : Asking κ ν ρ (Impl κ ν) := do
  txn.throwIfSealed
  if (txn.mActive.lookup key).isSome then throw (.runtimeError "Key is active")
  else
    match ← ask schema rand (txn :: outer) key with
    | none => return txn
    | some _ => return { txn with mActive := txn.activate key .constLedgerTxnEntry }

def commitEntry (mEntry : EntryMap κ ν) (kv : Write κ ν) :
    Asking κ ν ρ (EntryMap κ ν) :=
  match kv.2 with
  | some entry => return mEntry.insert kv.1 (some entry)
  | none => forget schema rand outer mEntry kv.1

def commitChild (child : Impl κ ν) : Asking κ ν ρ (Impl κ ν) := do
  let mEntry ← child.mEntry.entries.foldlM (commitEntry schema rand outer) txn.mEntry
  return { txn with
    mConsistency := joinConsistencyLevels txn.mConsistency child.mConsistency
    mEntry
    mHeader := child.mHeader }

end Asking

end Reading

/-! ### Commits into the root -/

section Writing

variable (schema : Schema κ ρ σ)

def LEDGER_ENTRY_BATCH_COMMIT_SIZE : Nat := 0xfff

structure BulkLedgerEntryChangeAccumulator (κ ν : Type) where
  toUpsert : LedgerEntryType → List (Sigma fun _ : κ => LedgerEntry κ ν)
  toDelete : LedgerEntryType → List κ

structure Bulk (κ ν ρ : Type) where
  bleca : BulkLedgerEntryChangeAccumulator κ ν
  mDatabase : Map ρ (LedgerEntry κ ν)
  written : List (Write κ ν)

namespace Bulk

omit [DecidableEq κ] [DecidableEq ρ] [DecidableEq σ] in
def accumulate (bulk : Bulk κ ν ρ) (kv : Write κ ν) :
    Bulk κ ν ρ :=
  let type := schema.type kv.1
  match kv.2 with
  | some entry =>
      { bulk with bleca := { bulk.bleca with
          toUpsert := Function.update bulk.bleca.toUpsert type
            (bulk.bleca.toUpsert type ++ [⟨kv.1, entry⟩]) } }
  | none =>
      { bulk with bleca := { bulk.bleca with
          toDelete := Function.update bulk.bleca.toDelete type
            (bulk.bleca.toDelete type ++ [kv.1]) } }

section

omit [DecidableEq κ] [DecidableEq σ]

/-- `bulkUpsertAccounts` and its like. Each of the rows is inserted or takes the place of the row of
its primary key, so as many rows are affected as there are entries. -/
def bulkUpsert (bulk : Bulk κ ν ρ) (type : LedgerEntryType) : Bulk κ ν ρ :=
  { bleca := { bulk.bleca with toUpsert := Function.update bulk.bleca.toUpsert type [] }
    mDatabase := (bulk.bleca.toUpsert type).foldl
      (fun rows kv => rows.insert (schema.primaryKey kv.2.key) kv.2) bulk.mDatabase
    written := bulk.written ++ (bulk.bleca.toUpsert type).map fun kv => ⟨kv.1, some kv.2⟩ }

/-- The rows of the keys are deleted, and those that were there are counted. -/
def deleteRows (mDatabase : Map ρ (LedgerEntry κ ν)) : List κ → Map ρ (LedgerEntry κ ν) × Nat
  | [] => (mDatabase, 0)
  | key :: keys =>
      let (rest, affected) := deleteRows (mDatabase.erase (schema.primaryKey key)) keys
      (rest, if (mDatabase.lookup (schema.primaryKey key)).isSome then affected + 1 else affected)

def bulkDelete (cons : LedgerTxnConsistency) (bulk : Bulk κ ν ρ) (type : LedgerEntryType) :
    Except Fault (Bulk κ ν ρ) :=
  let keys := bulk.bleca.toDelete type
  let (mDatabase, affected) := deleteRows schema bulk.mDatabase keys
  if affected ≠ keys.length ∧ cons = .EXACT then
    throw (.runtimeError "Could not update data in SQL")
  else
    return {
      bleca := { bulk.bleca with toDelete := Function.update bulk.bleca.toDelete type [] }
      mDatabase
      written := bulk.written ++ keys.map fun key => ⟨key, none⟩ }

def bulkApplyType (bufferThreshold : Nat) (cons : LedgerTxnConsistency) (bulk : Bulk κ ν ρ)
    (type : LedgerEntryType) : Except Fault (Bulk κ ν ρ) :=
  let bulk := if (bulk.bleca.toUpsert type).length > bufferThreshold then bulk.bulkUpsert schema type
    else bulk
  if (bulk.bleca.toDelete type).length > bufferThreshold then bulk.bulkDelete schema cons type
  else return bulk

def bulkApply (bufferThreshold : Nat) (cons : LedgerTxnConsistency) (bulk : Bulk κ ν ρ) :
    Except Fault (Bulk κ ν ρ) :=
  [.ACCOUNT, .TRUSTLINE, .OFFER, .DATA].foldlM (bulkApplyType schema bufferThreshold cons) bulk

/-- The last round empties all buffers. -/
def commitLoop (cons : LedgerTxnConsistency) (bulk : Bulk κ ν ρ) :
    List (Write κ ν) → Except Fault (Bulk κ ν ρ)
  | [] => return bulk
  | kv :: rest => do
      let bufferThreshold := if rest.isEmpty then 0 else LEDGER_ENTRY_BATCH_COMMIT_SIZE
      commitLoop cons (← (bulk.accumulate schema kv).bulkApply schema bufferThreshold cons) rest

end

end Bulk

omit [DecidableEq σ] in
/-- Into the root. The caches are emptied. -/
def LedgerTxnRoot.commitChild (root : LedgerTxnRoot κ ν ρ) (child : Impl κ ν) :
    Except Fault (LedgerTxnRoot κ ν ρ) := do
  let start : Bulk κ ν ρ :=
    { bleca := { toUpsert := fun _ => [], toDelete := fun _ => [] }
      mDatabase := root.mDatabase
      written := root.written }
  let bulk ← start.commitLoop schema child.mConsistency child.mEntry.entries
  return {
    mDatabase := bulk.mDatabase
    mHeader := child.mHeader
    mEntryCache := root.mEntryCache.clear
    written := bulk.written }

end Writing

/-! ### Stacks -/

structure Stack (κ ν ρ : Type) where
  root : LedgerTxnRoot κ ν ρ
  levels : List (Impl κ ν)

inductive Request (κ ν : Type) where
  | openChild (shouldUpdateLastModified : Bool)
  | create (entry : LedgerEntry κ ν)
  | createOrUpdateWithoutLoading (entry : LedgerEntry κ ν)
  | load (key : κ)
  | loadWithoutRecord (key : κ)
  | modify (entry : LedgerEntry κ ν)
  | deactivate (key : κ)
  | erase (key : κ)
  | eraseWithoutLoading (key : κ)
  | loadHeader
  | modifyHeader (header : LedgerHeader)
  | deactivateHeader
  | commit
  /-- A transaction that is rolled back takes its descendants with it. -/
  | rollback (descendants : Nat)

namespace Stack

variable (schema : Schema κ ρ σ) (rand : Nat → Draws) (stack : Stack κ ν ρ)

section

omit [DecidableEq κ] [DecidableEq ρ] [DecidableEq σ]

def header : LedgerHeader :=
  match stack.levels with
  | [] => stack.root.mHeader
  | txn :: _ => txn.mHeader

def innermost (f : List (Impl κ ν) → Impl κ ν → Asking κ ν ρ (Impl κ ν)) :
    Except Fault (Stack κ ν ρ) :=
  match stack.levels with
  | [] => throw (.runtimeError "LedgerTxnEntry was handled")
  | txn :: outer => do
      let (after, root) ← f outer txn stack.root
      return { root, levels := after :: outer }

def openChild (shouldUpdateLastModified : Bool) : Except Fault (Stack κ ν ρ) :=
  let child : Impl κ ν :=
    { mEntry := ∅
      mActive := ∅
      mHeader := stack.header
      mActiveHeader := false
      mShouldUpdateLastModified := shouldUpdateLastModified
      mIsSealed := false
      mConsistency := .EXACT }
  match stack.levels with
  | [] => return { stack with levels := [child] }
  | txn :: outer => do
      txn.throwIfSealed
      let parent := { txn with mActive := ∅, mActiveHeader := false }
      return { stack with levels := child :: parent :: outer }

end

def commit : Except Fault (Stack κ ν ρ) :=
  match stack.levels with
  | [] => throw (.runtimeError "LedgerTxnEntry was handled")
  | [child] => do return { root := ← stack.root.commitChild schema child.sealed, levels := [] }
  | child :: parent :: outer => do
      let (after, root) ← Asking.commitChild schema rand outer parent child.sealed stack.root
      return { root, levels := after :: outer }

def perform : Request κ ν → Except Fault (Stack κ ν ρ)
  | .openChild shouldUpdateLastModified => stack.openChild shouldUpdateLastModified
  | .create entry => stack.innermost fun outer txn => Asking.create schema rand outer txn entry
  | .createOrUpdateWithoutLoading entry =>
      stack.innermost fun _ txn => txn.createOrUpdateWithoutLoading entry
  | .load key => stack.innermost fun outer txn => Asking.load schema rand outer txn key
  | .loadWithoutRecord key =>
      stack.innermost fun outer txn => Asking.loadWithoutRecord schema rand outer txn key
  | .modify entry => stack.innermost fun _ txn => txn.modify entry
  | .deactivate key => stack.innermost fun _ txn => txn.deactivate key
  | .erase key => stack.innermost fun outer txn => Asking.erase schema rand outer txn key
  | .eraseWithoutLoading key => stack.innermost fun _ txn => txn.eraseWithoutLoading key
  | .loadHeader => stack.innermost fun _ txn => txn.loadHeader
  | .modifyHeader header => stack.innermost fun _ txn => txn.modifyHeader header
  | .deactivateHeader => stack.innermost fun _ txn => txn.deactivateHeader
  | .commit => stack.commit schema rand
  | .rollback descendants => return { stack with levels := stack.levels.drop (descendants + 1) }

def run (requests : List (Request κ ν)) : Except Fault (Stack κ ν ρ) :=
  requests.foldlM (fun stack request => stack.perform schema rand request) stack

end Stack

end ViiCore.LedgerTxn
