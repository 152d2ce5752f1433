import ViiCore.Catchup.VerifyLedgerChainWork
import ViiCore.Ledger.ExternalizedLedgers

/-!
Replay of downloaded ledgers (`catchup/ApplyLedgerChainWork.cpp`).

The headers and the transactions of a checkpoint are in two files that are read in step. A ledger
without transactions has no entry in the second file, so the entry read last is carried over. At
the end of the first file the work goes on to the next checkpoint.
-/

namespace ViiCore.Catchup

open ViiCore.Herder ViiCore.LedgerManager ViiCore.Transactions

/-! ### Files -/

def LedgerHeader.scpValue (header : LedgerHeader Hash VIIValue) : VIIValue := header.rest

abbrev HeaderEntry := LedgerHeaderHistoryEntry Hash VIIValue

structure TransactionSet where
  previousLedgerHash : Hash
  txs : List TransactionEnvelope

structure TransactionHistoryEntry where
  ledgerSeq : UInt32
  txSet : TransactionSet

/-- What is left of a file, and whether it ends in something that cannot be decoded. Reading at the
end of a file ends there again. -/
structure XDRInputFileStream (Entry : Type) where
  entries : List Entry
  malformed : Bool

inductive ReplayError where
  | failedToConnect (hHeader : HeaderEntry) (previousLedgerHash : Hash)
  | disagreedOnHash (hHeader : HeaderEntry) (hash : Hash)
  | overshot (ledgerSeq : UInt32) (expected : UInt32)
  | disagreedOnLCL (previousLedgerHash : Hash) (hash : Hash)
  | txSetHashDiffers (contentsHash : Hash) (txSetHash : Hash)
  | mismatchedLedgerHash (hHeader : HeaderEntry) (hash : Hash)

inductive ReplayFault where
  | fileSystemException
  | malformedXDR
  | runtimeError (what : ReplayError)
  | closeLedger (fault : CloseFault)

def ReplayFault.isException : ReplayFault → Bool
  | .closeLedger (.other fault) => fault.isException
  | _ => true

/-! ### The ledger manager -/

structure ClosedLedgers (platform : DriverPlatform) where
  node : HerderSCPDriver platform
  mLastClosedLedger : HeaderEntry
  sameHash : node.lclHash = mLastClosedLedger.hash
  sameSeq : mLastClosedLedger.header.ledgerSeq = UInt32.ofNat node.ledger.header.ledgerSeq

structure ClosedLedger (platform : DriverPlatform) where
  hHeader : HeaderEntry
  txSet : TxSetFrame platform.toSetPlatform
  before : HeaderEntry
  after : HeaderEntry

/-- What the work is created with. `ledgerHash` gives the hash of the new header when one more
ledger is closed after the others; results, buckets and the skip list, which it covers, follow
from these. -/
structure ReplayTask (platform : DriverPlatform) where
  accelerated : Bool
  headers : UInt32 → Option (XDRInputFileStream HeaderEntry)
  transactions : UInt32 → Option (XDRInputFileStream TransactionHistoryEntry)
  mRange : LedgerRange
  ledgerHash : List (ClosedLedger platform) → TxSetFrame platform.toSetPlatform → VIIValue → Hash

variable {platform : DriverPlatform} (task : ReplayTask platform)

def closeLedger (closed : List (ClosedLedger platform)) (lm : ClosedLedgers platform)
    (txSet : TxSetFrame platform.toSetPlatform) (value : VIIValue) :
    Except CloseFault (ClosedLedgers platform) := do
  let ledger ← closeExternalized lm.node txSet value
  let hash := task.ledgerHash closed txSet value
  return {
    node := { lm.node with ledger, lclHash := hash }
    mLastClosedLedger := {
      hash
      header := {
        ledgerVersion := UInt32.ofNat ledger.header.ledgerVersion
        previousLedgerHash := lm.mLastClosedLedger.hash
        ledgerSeq := UInt32.ofNat ledger.header.ledgerSeq
        rest := value } }
    sameHash := rfl
    sameSeq := rfl }

/-! ### The work -/

structure ApplyLedgerChainWork (platform : DriverPlatform) where
  lm : ClosedLedgers platform
  closed : List (ClosedLedger platform)
  mCurrSeq : UInt32
  mHdrIn : XDRInputFileStream HeaderEntry
  mTxIn : XDRInputFileStream TransactionHistoryEntry
  mTxHistoryEntry : TransactionHistoryEntry
  mFilesOpen : Bool
  mLastApplied : HeaderEntry

abbrev Replay (platform : DriverPlatform) := EStateM ReplayFault (ApplyLedgerChainWork platform)

namespace ApplyLedgerChainWork

def noTransactions : TransactionHistoryEntry := ⟨0, ⟨0, []⟩⟩

def onReset (lm : ClosedLedgers platform) : ApplyLedgerChainWork platform where
  lm := lm
  closed := []
  mCurrSeq := checkpointContainingLedger task.accelerated task.mRange.mFirst
  mHdrIn := ⟨[], false⟩
  mTxIn := ⟨[], false⟩
  mTxHistoryEntry := noTransactions
  mFilesOpen := false
  mLastApplied := lm.mLastClosedLedger

def openFile {Entry : Type} : Option (XDRInputFileStream Entry) →
    Replay platform (XDRInputFileStream Entry)
  | some file => return file
  | none => throw .fileSystemException

def openCurrentInputFiles : Replay platform Unit := do
  let mHdrIn ← openFile (task.headers (← get).mCurrSeq)
  let mTxIn ← openFile (task.transactions (← get).mCurrSeq)
  modify fun work =>
    { work with mHdrIn, mTxIn, mTxHistoryEntry := noTransactions, mFilesOpen := true }

/-- The loop over the entries of transactions: the set for the ledger `seq`, unless it has none,
with the entry read last and what is left of the file. -/
def findTxSet (seq : UInt32) (malformed : Bool) :
    TransactionHistoryEntry → List TransactionHistoryEntry →
      Except ReplayFault (Option TransactionSet × TransactionHistoryEntry ×
        XDRInputFileStream TransactionHistoryEntry)
  | mTxHistoryEntry, entries =>
      if mTxHistoryEntry.ledgerSeq < seq then
        match entries with
        | next :: rest => findTxSet seq malformed next rest
        | [] => if malformed then throw .malformedXDR else return (none, mTxHistoryEntry, ⟨[], false⟩)
      else if mTxHistoryEntry.ledgerSeq > seq then
        return (none, mTxHistoryEntry, ⟨entries, malformed⟩)
      else
        return (some mTxHistoryEntry.txSet, mTxHistoryEntry, ⟨entries, malformed⟩)

def getCurrentTxSet : Replay platform (TxSetFrame platform.toSetPlatform) := do
  let work ← get
  let lcl := work.lm.mLastClosedLedger
  match findTxSet (lcl.header.ledgerSeq + 1) work.mTxIn.malformed work.mTxHistoryEntry
      work.mTxIn.entries with
  | .error fault => throw fault
  | .ok (found, mTxHistoryEntry, mTxIn) =>
      set { work with mTxHistoryEntry, mTxIn }
      match found with
      | some txSet => return .ofTransactions txSet.previousLedgerHash txSet.txs
      | none => return .ofTransactions lcl.hash []

def readHeader : Replay platform (Option HeaderEntry) := do
  let work ← get
  match work.mHdrIn.entries with
  | hHeader :: entries =>
      set { work with mHdrIn := { work.mHdrIn with entries } }
      return some hHeader
  | [] => if work.mHdrIn.malformed then throw .malformedXDR else return none

def applyLedger (hHeader : HeaderEntry) : Replay platform Unit := do
  let txset ← getCurrentTxSet
  let (txset, contentsHash) := txset.getContentsHash
  let scpValue := hHeader.header.scpValue
  if scpValue.txSetHash ≠ contentsHash then
    throw (.runtimeError (.txSetHashDiffers contentsHash scpValue.txSetHash))
  else do
    let work ← get
    match closeLedger task work.closed work.lm txset scpValue with
    | .error fault => throw (.closeLedger fault)
    | .ok lm =>
        let closed : ClosedLedger platform :=
          ⟨hHeader, txset, work.lm.mLastClosedLedger, lm.mLastClosedLedger⟩
        set { work with lm, closed := work.closed ++ [closed] }
        if lm.mLastClosedLedger.hash ≠ hHeader.hash then
          throw (.runtimeError (.mismatchedLedgerHash hHeader lm.mLastClosedLedger.hash))
        else modify fun work => { work with mLastApplied := hHeader }

/-- What is done with a header. Numbers are compared in 32 bits. -/
def applyHeader (hHeader : HeaderEntry) : Replay platform Unit := do
  let lclHeader := (← get).lm.mLastClosedLedger
  let header := hHeader.header
  if header.ledgerSeq + 1 < lclHeader.header.ledgerSeq then return ()
  else if header.ledgerSeq + 1 = lclHeader.header.ledgerSeq then
    if hHeader.hash ≠ lclHeader.header.previousLedgerHash then
      throw (.runtimeError (.failedToConnect hHeader lclHeader.header.previousLedgerHash))
    else return ()
  else if header.ledgerSeq = lclHeader.header.ledgerSeq then
    if hHeader.hash ≠ lclHeader.hash then
      throw (.runtimeError (.disagreedOnHash hHeader lclHeader.hash))
    else return ()
  else if header.ledgerSeq ≠ lclHeader.header.ledgerSeq + 1 then
    throw (.runtimeError (.overshot header.ledgerSeq (lclHeader.header.ledgerSeq + 1)))
  else if header.previousLedgerHash ≠ lclHeader.hash then
    throw (.runtimeError (.disagreedOnLCL header.previousLedgerHash lclHeader.hash))
  else applyLedger task hHeader

def applyHistoryOfSingleLedger : Replay platform Bool := do
  match ← readHeader with
  | none => return false
  | some hHeader =>
      applyHeader task hHeader
      return true

def runOnce : Replay platform Unit := do
  if ¬ (← get).mFilesOpen then openCurrentInputFiles task
  if ¬ (← applyHistoryOfSingleLedger task) then
    modify fun work =>
      { work with mCurrSeq := work.mCurrSeq + getCheckpointFrequency task.accelerated,
                  mFilesOpen := false }

def onRun : Replay platform WorkState := fun work =>
  match runOnce task work with
  | .ok _ after =>
      if after.lm.mLastClosedLedger.header.ledgerSeq = task.mRange.mLast then
        .ok .WORK_SUCCESS after
      else .ok .WORK_RUNNING after
  | .error fault after =>
      if fault.isException then .ok .WORK_FAILURE after else .error fault after

/-- The scheduler runs the work until it is done, here at most `runs` times. -/
def crank : Nat → Replay platform WorkState
  | 0 => return .WORK_RUNNING
  | runs + 1 => do
      match ← onRun task with
      | .WORK_RUNNING => crank runs
      | state => return state

end ApplyLedgerChainWork

end ViiCore.Catchup
