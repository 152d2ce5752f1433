import Mathlib.Tactic.Common

/-!
Verification of a downloaded chain of ledger headers (`catchup/VerifyLedgerChainWork.cpp`).

The files of the checkpoints are verified one by one, the newest first. What is carried from a file
to the next older one is the number and the hash that its last ledger must have; the number 0
stands for nothing verified yet.
-/

namespace ViiCore.Catchup

def CURRENT_LEDGER_PROTOCOL_VERSION : UInt32 := 11

/-- The fields of a header that are looked at. The others matter to its hash only. -/
structure LedgerHeader (Hash Rest : Type) where
  ledgerVersion : UInt32
  previousLedgerHash : Hash
  ledgerSeq : UInt32
  rest : Rest
  deriving DecidableEq, Inhabited

structure LedgerHeaderHistoryEntry (Hash Rest : Type) where
  hash : Hash
  header : LedgerHeader Hash Rest
  deriving DecidableEq, Inhabited

structure LedgerRange where
  mFirst : UInt32
  mLast : UInt32
  positive : 0 < mFirst
  ordered : mFirst ≤ mLast

abbrev LedgerNumHashPair (Hash : Type) := UInt32 × Option Hash

inductive LedgerVerificationStatus where
  | VERIFY_STATUS_ERR_BAD_HASH
  | VERIFY_STATUS_ERR_BAD_LEDGER_VERSION
  | VERIFY_STATUS_ERR_OVERSHOT
  | VERIFY_STATUS_ERR_UNDERSHOT
  | VERIFY_STATUS_ERR_MISSING_ENTRIES
  deriving DecidableEq

/-- Why verification of a file ends early: a status other than `VERIFY_STATUS_OK`, an exception or
a failed assertion. -/
inductive Interruption where
  | rejected (status : LedgerVerificationStatus)
  | fileSystemException
  | malformedXDR
  | runtimeError (what : String)
  | assertion (what : String)
  deriving DecidableEq

inductive WorkState where
  | WORK_RUNNING
  | WORK_SUCCESS
  | WORK_FAILURE
  deriving DecidableEq

structure HeaderFile (Hash Rest : Type) where
  entries : List (LedgerHeaderHistoryEntry Hash Rest)
  malformed : Bool

/-- What the work is created with. The constructor asserts that the trusted ledger is the last of
the range and that the last closed ledger has a hash. -/
structure Task (Hash Rest : Type) where
  hashOf : LedgerHeader Hash Rest → Hash
  accelerated : Bool
  mDownloadDir : UInt32 → Option (HeaderFile Hash Rest)
  mRange : LedgerRange
  mLastClosed : UInt32 × Hash
  mTrustedEndLedger : LedgerNumHashPair Hash
  rangeEnd : mRange.mLast = mTrustedEndLedger.1

structure VerifyLedgerChainWork (Hash Rest : Type) where
  mCurrCheckpoint : UInt32
  mVerifiedAhead : LedgerNumHashPair Hash
  mVerifiedLedgerRangeStart : LedgerHeaderHistoryEntry Hash Rest

/-! ### Checkpoints -/

section Checkpoints

def getCheckpointFrequency (accelerated : Bool) : UInt32 :=
  if accelerated then 8 else 64

def nextCheckpointLedger (accelerated : Bool) (ledger : UInt32) : UInt32 :=
  let freq := getCheckpointFrequency accelerated
  if ledger = 0 then freq else (ledger + freq - 1) / freq * freq

def checkpointContainingLedger (accelerated : Bool) (ledger : UInt32) : UInt32 :=
  nextCheckpointLedger accelerated (ledger + 1) - 1

end Checkpoints

/-! ### One file -/

section File

variable {Hash Rest : Type} [DecidableEq Hash] (task : Task Hash Rest)

def assertThat (holds : Bool) (what : String) : Except Interruption Unit :=
  if holds then return () else throw (.assertion what)

def reject {α : Type} (status : LedgerVerificationStatus) : Except Interruption α :=
  throw (.rejected status)

def verifyLedgerHistoryEntry (hhe : LedgerHeaderHistoryEntry Hash Rest) :
    Except Interruption Unit :=
  if task.hashOf hhe.header ≠ hhe.hash then reject .VERIFY_STATUS_ERR_BAD_HASH else return ()

def verifyLedgerHistoryLink (prev : Hash) (curr : LedgerHeaderHistoryEntry Hash Rest) :
    Except Interruption Unit := do
  verifyLedgerHistoryEntry task curr
  if prev ≠ curr.header.previousLedgerHash then reject .VERIFY_STATUS_ERR_BAD_HASH else return ()

def verifyLastLedgerInCheckpoint (ledger : LedgerHeaderHistoryEntry Hash Rest)
    (verifiedAhead : LedgerNumHashPair Hash) : Except Interruption Unit := do
  assertThat (ledger.header.ledgerSeq = verifiedAhead.1) "ledger.header.ledgerSeq"
  match verifiedAhead.2 with
  | none => return ()
  | some trustedHash =>
      if ledger.hash ≠ trustedHash then reject .VERIFY_STATUS_ERR_BAD_HASH else return ()

def verifyLastClosed (curr : LedgerHeaderHistoryEntry Hash Rest) : Except Interruption Unit :=
  if curr.header.ledgerSeq = task.mLastClosed.1 then
    if task.hashOf curr.header ≠ task.mLastClosed.2 then reject .VERIFY_STATUS_ERR_BAD_HASH
    else return ()
  else if curr.header.ledgerSeq = task.mLastClosed.1 + 1 then
    verifyLedgerHistoryLink task task.mLastClosed.2 curr
  else return ()

/-- Where the loop over a file stands. There is no previous entry at the begin of a checkpoint. -/
structure Cursor (Hash Rest : Type) where
  mVerifiedAhead : LedgerNumHashPair Hash
  prev : Option (LedgerHeaderHistoryEntry Hash Rest)

def verifyEntry (cursor : Cursor Hash Rest) (curr : LedgerHeaderHistoryEntry Hash Rest) :
    Except Interruption (Cursor Hash Rest) :=
  if curr.header.ledgerVersion > CURRENT_LEDGER_PROTOCOL_VERSION then
    reject .VERIFY_STATUS_ERR_BAD_LEDGER_VERSION
  else do
    verifyLastClosed task curr
    match cursor.prev with
    | none =>
        verifyLedgerHistoryEntry task curr
        return { mVerifiedAhead := (curr.header.ledgerSeq - 1, some curr.header.previousLedgerHash)
                 prev := some curr }
    | some prev =>
        let expectedSeq := prev.header.ledgerSeq + 1
        if curr.header.ledgerSeq < expectedSeq then reject .VERIFY_STATUS_ERR_UNDERSHOT
        else if curr.header.ledgerSeq > expectedSeq then reject .VERIFY_STATUS_ERR_OVERSHOT
        else
          verifyLedgerHistoryLink task prev.hash curr
          return { cursor with prev := some curr }

def verifyEntries (malformed : Bool) : List (LedgerHeaderHistoryEntry Hash Rest) →
    Cursor Hash Rest → Except Interruption (Cursor Hash Rest)
  | [], cursor => if malformed then throw .malformedXDR else return cursor
  | curr :: rest, cursor => do
      let cursor ← verifyEntry task cursor curr
      if curr.header.ledgerSeq = task.mRange.mLast then return cursor
      else verifyEntries malformed rest cursor

def aheadOf (last : UInt32) (mVerifiedAhead : LedgerNumHashPair Hash) :
    Except Interruption (LedgerNumHashPair Hash) :=
  if last = task.mRange.mLast then do
    assertThat (mVerifiedAhead.1 = 0) "nextCheckpointFirstLedger.first == 0"
    return task.mTrustedEndLedger
  else do
    assertThat mVerifiedAhead.2.isSome "nextCheckpointFirstLedger.second"
    assertThat (mVerifiedAhead.1 ≠ 0) "nextCheckpointFirstLedger.first != 0"
    return mVerifiedAhead

variable [Inhabited Hash] [Inhabited Rest]

def verifyHistoryOfSingleCheckpoint (work : VerifyLedgerChainWork Hash Rest) :
    Except Interruption (VerifyLedgerChainWork Hash Rest) :=
  match task.mDownloadDir work.mCurrCheckpoint with
  | none => throw .fileSystemException
  | some file => do
      let cursor ← verifyEntries task file.malformed file.entries ⟨work.mVerifiedAhead, none⟩
      let curr := cursor.prev.getD default
      if curr.header.ledgerSeq ≠ work.mCurrCheckpoint ∧
          curr.header.ledgerSeq ≠ task.mRange.mLast then
        reject .VERIFY_STATUS_ERR_MISSING_ENTRIES
      else
        let nextCheckpointFirstLedger ← aheadOf task curr.header.ledgerSeq work.mVerifiedAhead
        verifyLastLedgerInCheckpoint curr nextCheckpointFirstLedger
        return {
          work with
          mVerifiedAhead := cursor.mVerifiedAhead
          mVerifiedLedgerRangeStart :=
            if work.mCurrCheckpoint =
              checkpointContainingLedger task.accelerated task.mRange.mFirst
            then curr else work.mVerifiedLedgerRangeStart }

/-! ### The work -/

def onReset : VerifyLedgerChainWork Hash Rest :=
  { mCurrCheckpoint := checkpointContainingLedger task.accelerated task.mRange.mLast
    mVerifiedAhead := (0, none)
    mVerifiedLedgerRangeStart := default }

def onRun (work : VerifyLedgerChainWork Hash Rest) :
    Except Interruption (WorkState × VerifyLedgerChainWork Hash Rest) :=
  let first := checkpointContainingLedger task.accelerated task.mRange.mFirst
  if work.mCurrCheckpoint < first then
    throw (.runtimeError "Verification undershot first ledger in the range.")
  else
    match verifyHistoryOfSingleCheckpoint task work with
    | .error .fileSystemException => return (.WORK_FAILURE, work)
    | .error (.rejected _) => return (.WORK_FAILURE, work)
    | .error interruption => throw interruption
    | .ok verified =>
        if verified.mCurrCheckpoint = first then return (.WORK_SUCCESS, verified)
        else return (.WORK_RUNNING, {
          verified with
          mCurrCheckpoint := verified.mCurrCheckpoint - getCheckpointFrequency task.accelerated })

/-- The scheduler runs the work until it is done, here at most `runs` times. -/
def crank : Nat → VerifyLedgerChainWork Hash Rest → Except Interruption WorkState
  | 0, _ => return .WORK_RUNNING
  | runs + 1, work => do
      match ← onRun task work with
      | (.WORK_RUNNING, work) => crank runs work
      | (state, _) => return state

end File

end ViiCore.Catchup
