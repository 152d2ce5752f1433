import ViiCore.Ledger.Entries

/-!
Nested ledger transactions (`ledger/LedgerTxn.cpp`).

A `LedgerTxn` records, for the keys that were created, loaded or erased in it, the entry as it
is now, or that there is none; for any other key it asks its parent. Keys and the data of
entries are parameters: nothing here looks into them. An unordered map is iterated in the order
of its entries, on which nothing depends.

Only the innermost transaction can be used. Every other one has a child, and a call to it
throws and changes nothing.
-/

namespace ViiCore.LedgerTxn

open ViiCore.FiniteMap
open ViiCore.Ledger (LedgerHeader)

/-- An entry, with the key that `LedgerEntryKey` computes for it. -/
structure LedgerEntry (κ ν : Type) where
  lastModifiedLedgerSeq : Nat
  key : κ
  data : ν
  deriving DecidableEq

inductive LedgerTxnConsistency where
  | EXACT
  | EXTRA_DELETES
  deriving DecidableEq

def joinConsistencyLevels : LedgerTxnConsistency → LedgerTxnConsistency → LedgerTxnConsistency
  | .EXACT, other => other
  | .EXTRA_DELETES, _ => .EXTRA_DELETES

/-- A key is active while a handle for its entry is alive. -/
inductive Handle where
  | ledgerTxnEntry
  | constLedgerTxnEntry
  deriving DecidableEq

variable {κ ν : Type} [DecidableEq κ]

abbrev View (κ ν : Type) := κ → Option (LedgerEntry κ ν)

abbrev EntryMap (κ ν : Type) := Map κ (Option (LedgerEntry κ ν))

structure Impl (κ ν : Type) where
  mEntry : EntryMap κ ν
  mActive : Map κ Handle
  mHeader : LedgerHeader
  mActiveHeader : Bool
  mShouldUpdateLastModified : Bool
  mIsSealed : Bool
  mConsistency : LedgerTxnConsistency

inductive LedgerEntryChange (κ ν : Type) where
  | LEDGER_ENTRY_STATE (state : LedgerEntry κ ν)
  | LEDGER_ENTRY_UPDATED (updated : LedgerEntry κ ν)
  | LEDGER_ENTRY_REMOVED (removed : κ)
  | LEDGER_ENTRY_CREATED (created : LedgerEntry κ ν)

structure LedgerTxnDelta (κ ν : Type) where
  /-- For each key the current and the previous entry. -/
  entry : List (κ × Option (LedgerEntry κ ν) × Option (LedgerEntry κ ν))
  /-- The current and the previous header. -/
  header : LedgerHeader × LedgerHeader

structure AllEntries (κ ν : Type) where
  initEntries : List (LedgerEntry κ ν)
  liveEntries : List (LedgerEntry κ ν)
  deadEntries : List κ

namespace Impl

variable (mParent : View κ ν) (txn : Impl κ ν)

def getNewestVersion (key : κ) : Option (LedgerEntry κ ν) :=
  match txn.mEntry.lookup key with
  | some recorded => recorded
  | none => mParent key

omit [DecidableEq κ] in
def throwIfSealed : Except Fault Unit :=
  if txn.mIsSealed then throw (.runtimeError "LedgerTxn is sealed") else return ()

omit [DecidableEq κ] in
def throwIfNotExactConsistency : Except Fault Unit :=
  if txn.mConsistency ≠ .EXACT then
    throw (.runtimeError "LedgerTxn consistency level is not exact")
  else return ()

def activate (key : κ) (handle : Handle) : Map κ Handle :=
  if (txn.mActive.lookup key).isSome then txn.mActive else txn.mActive.insert key handle

def create (entry : LedgerEntry κ ν) : Except Fault (Impl κ ν) := do
  txn.throwIfSealed
  if (txn.getNewestVersion mParent entry.key).isSome then throw (.runtimeError "Key already exists")
  else
    return { txn with
      mActive := txn.activate entry.key .ledgerTxnEntry
      mEntry := txn.mEntry.insert entry.key (some entry) }

def createOrUpdateWithoutLoading (entry : LedgerEntry κ ν) : Except Fault (Impl κ ν) := do
  txn.throwIfSealed
  if (txn.mActive.lookup entry.key).isSome then throw (.runtimeError "Key is already active")
  else return { txn with mEntry := txn.mEntry.insert entry.key (some entry) }

def deactivate (key : κ) : Except Fault (Impl κ ν) :=
  if (txn.mActive.lookup key).isNone then throw (.runtimeError "Key is not active")
  else return { txn with mActive := txn.mActive.erase key }

def deactivateHeader : Except Fault (Impl κ ν) :=
  if ¬ txn.mActiveHeader then throw (.runtimeError "LedgerTxnHeader is not active")
  else return { txn with mActiveHeader := false }

/-- The record of a key that is erased: none if it was created in this transaction. -/
def forget (mEntry : EntryMap κ ν) (key : κ) : EntryMap κ ν :=
  if (mParent key).isNone then mEntry.erase key else mEntry.insert key none

def erase (key : κ) : Except Fault (Impl κ ν) := do
  txn.throwIfSealed
  if (txn.getNewestVersion mParent key).isNone then throw (.runtimeError "Key does not exist")
  else
    return { txn with
      mEntry := forget mParent txn.mEntry key
      mActive := txn.mActive.erase key }

def eraseWithoutLoading (key : κ) : Except Fault (Impl κ ν) := do
  txn.throwIfSealed
  return { txn with
    mEntry := txn.mEntry.insert key none
    mActive := txn.mActive.erase key
    mConsistency := .EXTRA_DELETES }

def load (key : κ) : Except Fault (Impl κ ν) := do
  txn.throwIfSealed
  if (txn.mActive.lookup key).isSome then throw (.runtimeError "Key is active")
  else
    match txn.getNewestVersion mParent key with
    | none => return txn
    | some newest =>
        return { txn with
          mActive := txn.activate key .ledgerTxnEntry
          mEntry := txn.mEntry.insert key (some newest) }

def loadWithoutRecord (key : κ) : Except Fault (Impl κ ν) := do
  txn.throwIfSealed
  if (txn.mActive.lookup key).isSome then throw (.runtimeError "Key is active")
  else
    match txn.getNewestVersion mParent key with
    | none => return txn
    | some _ => return { txn with mActive := txn.activate key .constLedgerTxnEntry }

/-- An assignment to `current()` of the handle for an entry, which keeps the key. -/
def modify (entry : LedgerEntry κ ν) : Except Fault (Impl κ ν) :=
  if txn.mActive.lookup entry.key ≠ some .ledgerTxnEntry then
    throw (.runtimeError "LedgerTxnEntry not active")
  else return { txn with mEntry := txn.mEntry.insert entry.key (some entry) }

def loadHeader : Except Fault (Impl κ ν) := do
  txn.throwIfSealed
  if txn.mActiveHeader then throw (.runtimeError "LedgerTxnHeader is active")
  else return { txn with mActiveHeader := true }

def modifyHeader (header : LedgerHeader) : Except Fault (Impl κ ν) :=
  if ¬ txn.mActiveHeader then throw (.runtimeError "LedgerTxnHeader not active")
  else return { txn with mHeader := header }

/-- The handle that is made for the function is gone when it returns. -/
def unsealHeader (f : LedgerHeader → LedgerHeader) : Except Fault (Impl κ ν) :=
  if ¬ txn.mIsSealed then throw (.runtimeError "LedgerTxn is not sealed")
  else if txn.mActiveHeader then throw (.runtimeError "LedgerTxnHeader is active")
  else return { txn with mHeader := f txn.mHeader }

def stamp (entry : LedgerEntry κ ν) : LedgerEntry κ ν :=
  if txn.mShouldUpdateLastModified then
    { entry with lastModifiedLedgerSeq := txn.mHeader.ledgerSeq }
  else entry

def maybeUpdateLastModified : EntryMap κ ν := mapValues (Option.map txn.stamp) txn.mEntry

/-- The transaction after `maybeUpdateLastModifiedThenInvokeThenSeal`, whose function gets the
entries that are recorded then. -/
def sealed : Impl κ ν :=
  if txn.mIsSealed then txn
  else
    { txn with
      mEntry := txn.maybeUpdateLastModified
      mActive := ∅
      mActiveHeader := false
      mIsSealed := true }

def changesOf (key : κ) (entry : Option (LedgerEntry κ ν)) :
    Except Fault (List (LedgerEntryChange κ ν)) :=
  match mParent key, entry with
  | some previous, some entry => return [.LEDGER_ENTRY_STATE previous, .LEDGER_ENTRY_UPDATED entry]
  | some previous, none => return [.LEDGER_ENTRY_STATE previous, .LEDGER_ENTRY_REMOVED key]
  | none, some entry => return [.LEDGER_ENTRY_CREATED entry]
  | none, none => throw (.assertFailed "entry")

def getChanges : Except Fault (List (LedgerEntryChange κ ν) × Impl κ ν) := do
  txn.throwIfNotExactConsistency
  let changes ← txn.sealed.mEntry.entries.mapM fun kv => changesOf mParent kv.1 kv.2
  return (changes.flatten, txn.sealed)

def getDelta (parentHeader : LedgerHeader) : Except Fault (LedgerTxnDelta κ ν × Impl κ ν) := do
  txn.throwIfNotExactConsistency
  let delta :=
    { entry := txn.sealed.mEntry.entries.map fun kv => (kv.1, kv.2, mParent kv.1)
      header := (txn.mHeader, parentHeader) }
  return (delta, txn.sealed)

/-- The entries go to one of three lists, in the order in which they are met. -/
def getAllEntries : AllEntries κ ν × Impl κ ν :=
  let entries := txn.sealed.mEntry.entries
  ({ initEntries := entries.filterMap fun kv => if (mParent kv.1).isNone then kv.2 else none
     liveEntries := entries.filterMap fun kv => if (mParent kv.1).isSome then kv.2 else none
     deadEntries := entries.filterMap fun kv => if kv.2.isNone then some kv.1 else none },
    txn.sealed)

def commitEntry (mEntry : EntryMap κ ν) (kv : Sigma fun _ : κ => Option (LedgerEntry κ ν)) :
    EntryMap κ ν :=
  match kv.2 with
  | some entry => mEntry.insert kv.1 (some entry)
  | none => forget mParent mEntry kv.1

def commitChild (child : Impl κ ν) : Impl κ ν :=
  { txn with
    mConsistency := joinConsistencyLevels txn.mConsistency child.mConsistency
    mEntry := child.mEntry.entries.foldl (commitEntry mParent) txn.mEntry
    mHeader := child.mHeader }

end Impl

structure Row (ν : Type) where
  lastModified : Nat
  data : ν

structure Root (κ ν : Type) where
  rows : Map κ (Row ν)
  mHeader : LedgerHeader

def Root.getNewestVersion (root : Root κ ν) (key : κ) : Option (LedgerEntry κ ν) :=
  (root.rows.lookup key).map fun row =>
    { lastModifiedLedgerSeq := row.lastModified, key := key, data := row.data }

/-- One row of the database is written; a row that is deleted must exist where the consistency is
exact. -/
def writeRow (cons : LedgerTxnConsistency) (rows : Map κ (Row ν))
    (kv : Sigma fun _ : κ => Option (LedgerEntry κ ν)) : Except Fault (Map κ (Row ν)) :=
  match kv.2 with
  | some entry => return rows.insert entry.key ⟨entry.lastModifiedLedgerSeq, entry.data⟩
  | none =>
      if cons = .EXACT ∧ (rows.lookup kv.1).isNone then
        throw (.runtimeError "Could not update data in SQL")
      else return rows.erase kv.1

def Root.commitChild (root : Root κ ν) (child : Impl κ ν) : Except Fault (Root κ ν) := do
  let rows ← child.mEntry.entries.foldlM (writeRow child.mConsistency) root.rows
  return { rows, mHeader := child.mHeader }

/-! ### Nesting -/

structure Nesting (κ ν : Type) where
  root : Root κ ν
  levels : List (Impl κ ν)

def newest (root : Root κ ν) : List (Impl κ ν) → View κ ν
  | [] => root.getNewestVersion
  | txn :: outer => txn.getNewestVersion (newest root outer)

def header (root : Root κ ν) : List (Impl κ ν) → LedgerHeader
  | [] => root.mHeader
  | txn :: _ => txn.mHeader

inductive Call (κ ν : Type) where
  | openChild (shouldUpdateLastModified : Bool)
  | create (entry : LedgerEntry κ ν)
  | createOrUpdateWithoutLoading (entry : LedgerEntry κ ν)
  | load (key : κ)
  | loadWithoutRecord (key : κ)
  | modify (entry : LedgerEntry κ ν)
  | deactivate (key : κ)
  | erase (key : κ)
  | eraseWithoutLoading (key : κ)
  | loadHeader
  | modifyHeader (header : LedgerHeader)
  | deactivateHeader
  | unsealHeader (f : LedgerHeader → LedgerHeader)
  | getChanges
  | getDelta
  | getAllEntries
  | commit
  /-- A transaction that is rolled back takes its descendants with it. -/
  | rollback (descendants : Nat)

namespace Nesting

variable (nesting : Nesting κ ν)

def innermost (f : View κ ν → Impl κ ν → Except Fault (Impl κ ν)) :
    Except Fault (Nesting κ ν) :=
  match nesting.levels with
  | [] => throw (.runtimeError "LedgerTxnEntry was handled")
  | txn :: outer => do
      return { nesting with levels := (← f (newest nesting.root outer) txn) :: outer }

def openChild (shouldUpdateLastModified : Bool) : Except Fault (Nesting κ ν) :=
  let child : Impl κ ν :=
    { mEntry := ∅
      mActive := ∅
      mHeader := header nesting.root nesting.levels
      mActiveHeader := false
      mShouldUpdateLastModified := shouldUpdateLastModified
      mIsSealed := false
      mConsistency := .EXACT }
  match nesting.levels with
  | [] => return { nesting with levels := [child] }
  | txn :: outer => do
      txn.throwIfSealed
      let parent := { txn with mActive := ∅, mActiveHeader := false }
      return { nesting with levels := child :: parent :: outer }

def commit : Except Fault (Nesting κ ν) :=
  match nesting.levels with
  | [] => throw (.runtimeError "LedgerTxnEntry was handled")
  | [child] => do return { root := ← nesting.root.commitChild child.sealed, levels := [] }
  | child :: parent :: outer =>
      return { nesting with
        levels := parent.commitChild (newest nesting.root outer) child.sealed :: outer }

def call : Call κ ν → Except Fault (Nesting κ ν)
  | .openChild shouldUpdateLastModified => nesting.openChild shouldUpdateLastModified
  | .create entry => nesting.innermost fun mParent txn => txn.create mParent entry
  | .createOrUpdateWithoutLoading entry =>
      nesting.innermost fun _ txn => txn.createOrUpdateWithoutLoading entry
  | .load key => nesting.innermost fun mParent txn => txn.load mParent key
  | .loadWithoutRecord key => nesting.innermost fun mParent txn => txn.loadWithoutRecord mParent key
  | .modify entry => nesting.innermost fun _ txn => txn.modify entry
  | .deactivate key => nesting.innermost fun _ txn => txn.deactivate key
  | .erase key => nesting.innermost fun mParent txn => txn.erase mParent key
  | .eraseWithoutLoading key => nesting.innermost fun _ txn => txn.eraseWithoutLoading key
  | .loadHeader => nesting.innermost fun _ txn => txn.loadHeader
  | .modifyHeader header => nesting.innermost fun _ txn => txn.modifyHeader header
  | .deactivateHeader => nesting.innermost fun _ txn => txn.deactivateHeader
  | .unsealHeader f => nesting.innermost fun _ txn => txn.unsealHeader f
  | .getChanges => nesting.innermost fun mParent txn => do return (← txn.getChanges mParent).2
  | .getDelta =>
      nesting.innermost fun mParent txn => do
        return (← txn.getDelta mParent (header nesting.root nesting.levels.tail)).2
  | .getAllEntries => nesting.innermost fun mParent txn => return (txn.getAllEntries mParent).2
  | .commit => nesting.commit
  | .rollback descendants => return { nesting with levels := nesting.levels.drop (descendants + 1) }

/-- A call that throws leaves everything as it was. -/
def perform (call : Call κ ν) : Nesting κ ν :=
  match nesting.call call with
  | .ok after => after
  | .error _ => nesting

def run (calls : List (Call κ ν)) : Nesting κ ν := calls.foldl perform nesting

end Nesting

end ViiCore.LedgerTxn
