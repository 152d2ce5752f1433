import ViiCore.Catchup.VerifyLedgerChainWork
import ViiCore.Library.Execution

/-!
How the ledger manager loses and regains sync (`ledger/LedgerManagerImpl.cpp`).

Values come from consensus, and progress comes from the catch-up work, each at any time. A value
that is too new starts catch-up: values are buffered from then on, the work replays history up to
the first of them, a posted task closes what was buffered, and the next value closes the gap or
starts over.

What `closeLedger` does once its checks have passed is a parameter. Metrics, logging and status
messages are left out. A failure ends the process, unless it is an exception in the work, which
then fails.
-/

namespace ViiCore.LedgerManager.CatchupStates

open ViiCore.Catchup (LedgerHeader LedgerHeaderHistoryEntry LedgerNumHashPair nextCheckpointLedger)

/-- The hashes of a transaction set that are looked at. -/
structure TxSet (Hash : Type) where
  previousLedgerHash : Hash
  contentsHash : Hash

structure LedgerCloseData (Hash Value : Type) where
  mLedgerSeq : UInt32
  mTxSet : TxSet Hash
  txSetHash : Hash
  value : Value

inductive State where
  | LM_BOOTING_STATE
  | LM_SYNCED_STATE
  | LM_CATCHING_UP_STATE
  deriving DecidableEq

inductive CatchupState where
  | NONE
  | WAITING_FOR_TRIGGER_LEDGER
  | APPLYING_HISTORY
  | APPLYING_BUFFERED_LEDGERS
  | WAITING_FOR_CLOSING_LEDGER
  deriving DecidableEq

inductive CloseLedgerIfResult where
  | CLOSED
  | TOO_OLD
  | TOO_NEW
  deriving DecidableEq

inductive SyncingLedgerChainAddResult where
  | CONTIGUOUS
  | TOO_OLD
  | TOO_NEW
  deriving DecidableEq

inductive Mode where
  | OFFLINE
  | ONLINE
  deriving DecidableEq

inductive ProgressState where
  | APPLIED_BUCKETS
  | APPLIED_TRANSACTIONS
  | FINISHED
  deriving DecidableEq

structure CatchupConfiguration (Hash : Type) where
  mLedgerHashPair : LedgerNumHashPair Hash
  mCount : UInt32
  mMode : Mode

def CatchupConfiguration.toLedger {Hash : Type} (configuration : CatchupConfiguration Hash) : UInt32 :=
  configuration.mLedgerHashPair.1

def CURRENT : UInt32 := 0

inductive Function where
  | initializeCatchup
  | continueCatchup
  | finalizeCatchup
  | startCatchupIf
  | startCatchup
  | historyCaughtup
  | applyBufferedLedgers
  deriving DecidableEq

inductive Failure where
  | assertFailed (function : Function) (what : String)
  | runtimeError (what : String)
  | invalidArgument (what : String)
  /-- `front` of an empty queue. -/
  | undefined
  deriving DecidableEq

/-- A call of `closeLedger`: the number it was called with, and that of the last closed ledger. -/
structure Closing where
  ledgerSeq : UInt32
  lastClosed : UInt32

section Manager

variable (Hash Rest Value : Type)

structure Manager where
  mState : State
  mCatchupState : CatchupState
  mCatchupTriggerLedger : UInt32
  mLastClosedLedger : LedgerHeaderHistoryEntry Hash Rest
  mSyncingLedgers : List (LedgerCloseData Hash Value)
  /-- What the work of the catch-up manager was asked for. -/
  mCatchupWork : Option (CatchupConfiguration Hash)
  /-- How often the task of `applyBufferedLedgers` waits on the main thread. -/
  posted : Nat
  /-- All calls of `closeLedger`, the last first. -/
  closings : List Closing

structure Environment where
  accelerated : Bool
  LEDGER_PROTOCOL_VERSION : UInt32
  getCatchupCount : UInt32
  hashOf : LedgerHeader Hash Rest → Hash
  /-- The version and the other fields of the new header, or an exception. -/
  apply : LedgerHeaderHistoryEntry Hash Rest → LedgerCloseData Hash Value →
    Except String (UInt32 × Rest)

abbrev Managing := EStateM Failure (Manager Hash Rest Value)

end Manager

variable {Hash Rest Value : Type} [DecidableEq Hash] [DecidableEq Rest]

section

omit [DecidableEq Hash] [DecidableEq Rest]

def assertThat (function : Function) (holds : Bool) (what : String) : Managing Hash Rest Value Unit :=
  if holds then return () else throw (.assertFailed function what)

def setState (s : State) : Managing Hash Rest Value Unit :=
  modify fun lm =>
    if s ≠ lm.mState then
      if s ≠ .LM_CATCHING_UP_STATE then { lm with mState := s, mCatchupState := .NONE }
      else { lm with mState := s }
    else lm

def setCatchupState (s : CatchupState) : Managing Hash Rest Value Unit := do
  modify fun lm => { lm with mCatchupState := s }
  setState .LM_CATCHING_UP_STATE

end

variable (env : Environment Hash Rest Value)

omit [DecidableEq Rest] in
def closeLedger (ledgerData : LedgerCloseData Hash Value) : Managing Hash Rest Value Unit := do
  let lm ← get
  let lcl := lm.mLastClosedLedger
  set { lm with
    closings := ⟨ledgerData.mLedgerSeq, lcl.header.ledgerSeq⟩ :: lm.closings }
  if lcl.header.ledgerVersion > env.LEDGER_PROTOCOL_VERSION then
    throw (.runtimeError "cannot apply ledger with not supported version")
  else if ledgerData.mTxSet.previousLedgerHash ≠ lcl.hash then
    throw (.runtimeError "txset mismatch")
  else if ledgerData.mTxSet.contentsHash ≠ ledgerData.txSetHash then
    throw (.runtimeError "corrupt transaction set")
  else
    match env.apply lcl ledgerData with
    | .error what => throw (.runtimeError what)
    | .ok (ledgerVersion, rest) =>
        let header : LedgerHeader Hash Rest :=
          { ledgerVersion, previousLedgerHash := lcl.hash, ledgerSeq := lcl.header.ledgerSeq + 1,
            rest }
        modify fun lm => { lm with mLastClosedLedger := { hash := env.hashOf header, header } }

omit [DecidableEq Rest] in
def closeLedgerIf (ledgerData : LedgerCloseData Hash Value) :
    Managing Hash Rest Value CloseLedgerIfResult := do
  let lm ← get
  if lm.mLastClosedLedger.header.ledgerSeq + 1 = ledgerData.mLedgerSeq then
    if lm.mLastClosedLedger.hash = ledgerData.mTxSet.previousLedgerHash then do
      closeLedger env ledgerData
      return .CLOSED
    else throw (.runtimeError "Network consensus inconsistency")
  else if ledgerData.mLedgerSeq ≤ lm.mLastClosedLedger.header.ledgerSeq then return .TOO_OLD
  else return .TOO_NEW

/-! ### Starting catch-up -/

section

omit [DecidableEq Hash] [DecidableEq Rest]

def push (mChain : List (LedgerCloseData Hash Value)) (lcd : LedgerCloseData Hash Value) :
    SyncingLedgerChainAddResult × List (LedgerCloseData Hash Value) :=
  match mChain.getLast? with
  | none => (.CONTIGUOUS, [lcd])
  | some back =>
      if back.mLedgerSeq + 1 = lcd.mLedgerSeq then (.CONTIGUOUS, mChain ++ [lcd])
      else if lcd.mLedgerSeq ≤ back.mLedgerSeq then (.TOO_OLD, mChain)
      else (.TOO_NEW, mChain)

/-- The results are told apart in the log only. -/
def addToSyncingLedgers (ledgerData : LedgerCloseData Hash Value) : Managing Hash Rest Value Unit :=
  modify fun lm => { lm with mSyncingLedgers := (push lm.mSyncingLedgers ledgerData).2 }

def catchupHistory (configuration : CatchupConfiguration Hash) : Managing Hash Rest Value Unit := do
  if (← get).mCatchupWork.isSome then throw (.runtimeError "Catchup already in progress")
  else modify fun lm => { lm with mCatchupWork := some configuration }

def startCatchup (configuration : CatchupConfiguration Hash) : Managing Hash Rest Value Unit := do
  let lastClosedLedger := (← get).mLastClosedLedger.header.ledgerSeq
  if configuration.toLedger ≠ CURRENT ∧ configuration.toLedger ≤ lastClosedLedger then
    throw (.invalidArgument "Target ledger is not newer than LCL")
  else
    setCatchupState .APPLYING_HISTORY
    let offlineCatchup : Bool := configuration.mMode = .OFFLINE
    assertThat .startCatchup (offlineCatchup = (← get).mSyncingLedgers.isEmpty)
      "offlineCatchup == mSyncingLedgers.empty()"
    catchupHistory configuration

def startCatchupIf (lastReceivedLedgerSeq : UInt32) : Managing Hash Rest Value Unit := do
  let lm ← get
  assertThat .startCatchupIf (¬ lm.mSyncingLedgers.isEmpty) "!mSyncingLedgers.empty()"
  assertThat .startCatchupIf (lm.mCatchupState ≠ .NONE) "mCatchupState != NONE"
  if lm.mCatchupState ≠ .WAITING_FOR_TRIGGER_LEDGER then return ()
  else if lastReceivedLedgerSeq ≥ lm.mCatchupTriggerLedger then
    setCatchupState .APPLYING_HISTORY
    match lm.mSyncingLedgers.head? with
    | none => throw .undefined
    | some first =>
        startCatchup
          { mLedgerHashPair := (first.mLedgerSeq - 1, some first.mTxSet.previousLedgerHash)
            mCount := env.getCatchupCount
            mMode := .ONLINE }
  else return ()

def initializeCatchup (ledgerData : LedgerCloseData Hash Value) : Managing Hash Rest Value Unit := do
  let lm ← get
  assertThat .initializeCatchup (lm.mState ≠ .LM_CATCHING_UP_STATE)
    "mState != LM_CATCHING_UP_STATE"
  assertThat .initializeCatchup (lm.mCatchupState = .NONE) "mCatchupState == NONE"
  assertThat .initializeCatchup lm.mSyncingLedgers.isEmpty "mSyncingLedgers.empty()"
  setState .LM_CATCHING_UP_STATE
  modify fun lm =>
    { lm with
      mCatchupTriggerLedger := nextCheckpointLedger env.accelerated ledgerData.mLedgerSeq + 1 }
  setCatchupState .WAITING_FOR_TRIGGER_LEDGER
  addToSyncingLedgers ledgerData
  startCatchupIf env ledgerData.mLedgerSeq

def continueCatchup (ledgerData : LedgerCloseData Hash Value) : Managing Hash Rest Value Unit := do
  assertThat .continueCatchup ((← get).mState = .LM_CATCHING_UP_STATE)
    "mState == LM_CATCHING_UP_STATE"
  addToSyncingLedgers ledgerData
  startCatchupIf env ledgerData.mLedgerSeq

end

omit [DecidableEq Rest] in
def finalizeCatchup (ledgerData : LedgerCloseData Hash Value) : Managing Hash Rest Value Unit := do
  let lm ← get
  assertThat .finalizeCatchup (lm.mState = .LM_CATCHING_UP_STATE) "mState == LM_CATCHING_UP_STATE"
  assertThat .finalizeCatchup (lm.mCatchupState = .WAITING_FOR_CLOSING_LEDGER)
    "mCatchupState == WAITING_FOR_CLOSING_LEDGER"
  assertThat .finalizeCatchup lm.mSyncingLedgers.isEmpty "mSyncingLedgers.empty()"
  match ← closeLedgerIf env ledgerData with
  | .CLOSED => setState .LM_SYNCED_STATE
  | .TOO_OLD => return ()
  | .TOO_NEW =>
      setState .LM_BOOTING_STATE
      initializeCatchup env ledgerData

omit [DecidableEq Rest] in
def valueExternalized (ledgerData : LedgerCloseData Hash Value) : Managing Hash Rest Value Unit := do
  let lm ← get
  match lm.mState with
  | .LM_BOOTING_STATE | .LM_SYNCED_STATE =>
      match ← closeLedgerIf env ledgerData with
      | .CLOSED => setState .LM_SYNCED_STATE
      | .TOO_OLD => return ()
      | .TOO_NEW => initializeCatchup env ledgerData
  | .LM_CATCHING_UP_STATE =>
      match lm.mCatchupState with
      | .WAITING_FOR_CLOSING_LEDGER => finalizeCatchup env ledgerData
      | _ => continueCatchup env ledgerData

/-! ### Progress of the work -/

omit [DecidableEq Hash] [DecidableEq Rest] in
def applyBufferedLedgers : Managing Hash Rest Value Unit := do
  let lm ← get
  assertThat .applyBufferedLedgers (lm.mCatchupState = .APPLYING_BUFFERED_LEDGERS)
    "mCatchupState == APPLYING_BUFFERED_LEDGERS"
  if lm.mSyncingLedgers.isEmpty then setCatchupState .WAITING_FOR_CLOSING_LEDGER
  else modify fun lm => { lm with posted := lm.posted + 1 }

omit [DecidableEq Rest] in
def applyBufferedLedger : Managing Hash Rest Value Unit := do
  match (← get).mSyncingLedgers with
  | [] => throw .undefined
  | lcd :: buffered =>
      modify fun lm => { lm with mSyncingLedgers := buffered }
      assertThat .applyBufferedLedgers
        (lcd.mLedgerSeq = (← get).mLastClosedLedger.header.ledgerSeq + 1)
        "lcd.getLedgerSeq() == mLastClosedLedger.header.ledgerSeq + 1"
      closeLedger env lcd
      applyBufferedLedgers

def historyCaughtup (ec : Bool) (progressState : ProgressState)
    (lastClosed : LedgerHeaderHistoryEntry Hash Rest) (catchupMode : Mode) :
    Managing Hash Rest Value Unit := do
  assertThat .historyCaughtup ((← get).mCatchupState = .APPLYING_HISTORY)
    "mCatchupState == APPLYING_HISTORY"
  if ec then
    setState .LM_BOOTING_STATE
    modify fun lm => { lm with mCatchupWork := none, mSyncingLedgers := [] }
  else
    match progressState with
    | .APPLIED_BUCKETS => modify fun lm => { lm with mLastClosedLedger := lastClosed }
    | .APPLIED_TRANSACTIONS => do
        assertThat .historyCaughtup (lastClosed.hash = (← get).mLastClosedLedger.hash)
          "lastClosed.hash == mLastClosedLedger.hash"
        assertThat .historyCaughtup (lastClosed.header = (← get).mLastClosedLedger.header)
          "lastClosed.header == mLastClosedLedger.header"
    | .FINISHED => do
        modify fun lm => { lm with mCatchupWork := none }
        match catchupMode with
        | .ONLINE =>
            setCatchupState .APPLYING_BUFFERED_LEDGERS
            applyBufferedLedgers
        | .OFFLINE => setState .LM_SYNCED_STATE

omit [DecidableEq Rest] in
/-- `ApplyLedgerChainWork::applyHistoryOfSingleLedger`, for a header that was read and the
transaction set of its ledger. -/
def applyHistoryOfSingleLedger (hHeader : LedgerHeaderHistoryEntry Hash Rest)
    (closeData : LedgerCloseData Hash Value) : Managing Hash Rest Value Unit := do
  let lcl := (← get).mLastClosedLedger
  let header := hHeader.header
  if header.ledgerSeq + 1 < lcl.header.ledgerSeq then return ()
  else if header.ledgerSeq + 1 = lcl.header.ledgerSeq then
    if hHeader.hash ≠ lcl.header.previousLedgerHash then
      throw (.runtimeError "replay failed to connect on hash of LCL predecessor")
    else return ()
  else if header.ledgerSeq = lcl.header.ledgerSeq then
    if hHeader.hash ≠ lcl.hash then throw (.runtimeError "replay at LCL disagreed on hash")
    else return ()
  else if header.ledgerSeq ≠ lcl.header.ledgerSeq + 1 then
    throw (.runtimeError "replay overshot current ledger")
  else if header.previousLedgerHash ≠ lcl.hash then
    throw (.runtimeError "replay at current ledger disagreed on LCL hash")
  else if closeData.txSetHash ≠ closeData.mTxSet.contentsHash then
    throw (.runtimeError "replay txset hash differs from txset hash in replay ledger")
  else
    closeLedger env { closeData with mLedgerSeq := header.ledgerSeq }
    if (← get).mLastClosedLedger.hash ≠ hHeader.hash then
      throw (.runtimeError "replay produced mismatched ledger hash")
    else return ()

/-! ### Runs -/

variable (Hash Rest Value) in
inductive Event where
  | valueExternalized (ledgerData : LedgerCloseData Hash Value)
  | historyCaughtup (ec : Bool) (progressState : ProgressState)
      (lastClosed : LedgerHeaderHistoryEntry Hash Rest)
  /-- The work replays a ledger. -/
  | applyHistory (hHeader : LedgerHeaderHistoryEntry Hash Rest)
      (closeData : LedgerCloseData Hash Value)
  /-- The main thread runs the task of `applyBufferedLedgers`, if it waits. -/
  | applyBufferedLedgers

omit [DecidableEq Hash] [DecidableEq Rest] in
/-- An exception makes the work fail; what it did stays. -/
def asWork (action : Managing Hash Rest Value Unit) : Managing Hash Rest Value Unit := fun lm =>
  match action lm with
  | .ok () after => .ok () after
  | .error (.runtimeError _) after => .ok () after
  | .error failure after => .error failure after

omit [DecidableEq Rest] in
def replay (hHeader : LedgerHeaderHistoryEntry Hash Rest) (closeData : LedgerCloseData Hash Value) :
    Managing Hash Rest Value Unit := do
  if (← get).mCatchupWork.isNone then return ()
  else asWork (applyHistoryOfSingleLedger env hHeader closeData)

def perform : Event Hash Rest Value → Managing Hash Rest Value Unit
  | .valueExternalized ledgerData => valueExternalized env ledgerData
  | .historyCaughtup ec progressState lastClosed =>
      historyCaughtup ec progressState lastClosed .ONLINE
  | .applyHistory hHeader closeData => replay env hHeader closeData
  | .applyBufferedLedgers => do
      if (← get).posted = 0 then return ()
      else
        modify fun lm => { lm with posted := lm.posted - 1 }
        applyBufferedLedger env

end ViiCore.LedgerManager.CatchupStates
