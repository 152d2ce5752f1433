import Mathlib.Data.Finset.Basic
import ViiCore.Herder.TxSetValidity

/-!
The queue of pending transactions (`herder/TransactionQueue.cpp`).

Pending transactions are kept by age and account, with the totals of each account cached;
transactions that grow too old are banned for a number of ledgers. A `TxMap` is reached
through its account only, so the set of maps to recalculate is kept as a list of accounts.
-/

namespace ViiCore.Herder

open ViiCore.Ledger ViiCore.FiniteMap ViiCore.Execution ViiCore.Transactions TxSetFrame

structure AccountTxQueueInfo where
  mMaxSeq : SequenceNumber
  mTotalFees : Int
  deriving DecidableEq

def AccountTxQueueInfo.empty : AccountTxQueueInfo := { mMaxSeq := 0, mTotalFees := 0 }

def AccountTxQueueInfo.count (info : AccountTxQueueInfo) (tx : TransactionEnvelope) :
    AccountTxQueueInfo :=
  { mMaxSeq := max tx.tx.seqNum info.mMaxSeq, mTotalFees := info.mTotalFees + tx.tx.fee }

structure TxMap where
  mCurrentQInfo : AccountTxQueueInfo
  mTransactions : Map Hash TransactionEnvelope

def TxMap.empty : TxMap := { mCurrentQInfo := .empty, mTransactions := ∅ }

def TxMap.recalculate (txs : TxMap) : TxMap :=
  { txs with mCurrentQInfo :=
      txs.mTransactions.entries.foldl (fun info entry => info.count entry.2) .empty }

abbrev AccountTxMap := Map AccountID TxMap

inductive AddResult where
  | ADD_STATUS_PENDING
  | ADD_STATUS_DUPLICATE
  | ADD_STATUS_ERROR
  | ADD_STATUS_TRY_AGAIN_LATER
  deriving DecidableEq

structure TransactionQueue where
  mPendingTransactions : List AccountTxMap
  mBannedTransactions : List (Finset Hash)

variable (platform : SetPlatform)

def TxMap.addTx (txs : TxMap) (tx : TransactionEnvelope) : TxMap :=
  if (txs.mTransactions.lookup (platform.getFullHash tx)).isSome then txs
  else
    { mCurrentQInfo := txs.mCurrentQInfo.count tx
      mTransactions := txs.mTransactions.insert (platform.getFullHash tx) tx }

namespace TransactionQueue

/-- Both depths are positive: the first and the last element of either deque are used. -/
def ofDepths (pendingDepth banDepth : Nat) : TransactionQueue :=
  { mPendingTransactions := List.replicate pendingDepth ∅
    mBannedTransactions := List.replicate banDepth ∅ }

variable (queue : TransactionQueue)

def isBanned (hash : Hash) : Bool := queue.mBannedTransactions.any fun txs => hash ∈ txs

def holds (txs : AccountTxMap) (tx : TransactionEnvelope) : Bool :=
  match txs.lookup tx.tx.sourceAccount with
  | none => false
  | some map => (map.mTransactions.lookup (platform.getFullHash tx)).isSome

def contains (tx : TransactionEnvelope) : Bool :=
  queue.mPendingTransactions.any fun txs => holds platform txs tx

def addInfo (accountID : AccountID) (info : AccountTxQueueInfo) (txs : AccountTxMap) :
    AccountTxQueueInfo :=
  match txs.lookup accountID with
  | none => info
  | some map =>
      { mTotalFees := info.mTotalFees + map.mCurrentQInfo.mTotalFees
        mMaxSeq := max info.mMaxSeq map.mCurrentQInfo.mMaxSeq }

def getAccountTransactionQueueInfo (accountID : AccountID) : AccountTxQueueInfo :=
  queue.mPendingTransactions.foldl (addInfo accountID) .empty

def addToYoungest (tx : TransactionEnvelope) : TransactionQueue :=
  match queue.mPendingTransactions with
  | [] => queue
  | youngest :: older =>
      let map := (youngest.lookup tx.tx.sourceAccount).getD .empty
      { queue with mPendingTransactions :=
          youngest.insert tx.tx.sourceAccount (map.addTx platform tx) :: older }

def tryAdd (tx : TransactionEnvelope) : Apply (TransactionQueue × AddResult) :=
  if queue.isBanned (platform.getFullHash tx) then
    return (queue, .ADD_STATUS_TRY_AGAIN_LATER)
  else if queue.contains platform tx then return (queue, .ADD_STATUS_DUPLICATE)
  else do
    let info := queue.getAccountTransactionQueueInfo tx.tx.sourceAccount
    if ¬ (← Transactions.checkValid platform.env tx info.mMaxSeq) then
      return (queue, .ADD_STATUS_ERROR)
    else
      let header ← loadHeader
      let sourceAccount ← accountTable.current tx.tx.sourceAccount
      let available ← computed (getAvailableBalanceOfAccount header sourceAccount)
      if available - tx.tx.fee < info.mTotalFees then return (queue, .ADD_STATUS_ERROR)
      else return (queue.addToYoungest platform tx, .ADD_STATUS_PENDING)

/-- One transaction is dropped from the maps of one age; an account whose map becomes empty
is erased, any other one is noted for recalculation. -/
def dropTx (state : AccountTxMap × List AccountID) (tx : TransactionEnvelope) :
    AccountTxMap × List AccountID :=
  match state.1.lookup tx.tx.sourceAccount with
  | none => state
  | some map =>
      if (map.mTransactions.lookup (platform.getFullHash tx)).isNone then state
      else
        let left := map.mTransactions.erase (platform.getFullHash tx)
        if left.entries = [] then (state.1.erase tx.tx.sourceAccount, state.2)
        else
          (state.1.insert tx.tx.sourceAccount { map with mTransactions := left },
            tx.tx.sourceAccount :: state.2)

def recalculate (txs : AccountTxMap) (accountID : AccountID) : AccountTxMap :=
  match txs.lookup accountID with
  | none => txs
  | some map => txs.insert accountID map.recalculate

def removeFrom (dropTxs : List TransactionEnvelope) (txs : AccountTxMap) : AccountTxMap :=
  let (left, toRecalculate) := dropTxs.foldl (dropTx platform) (txs, [])
  toRecalculate.foldl recalculate left

def remove (dropTxs : List TransactionEnvelope) : TransactionQueue :=
  { queue with
    mPendingTransactions := queue.mPendingTransactions.map (removeFrom platform dropTxs) }

def hashes (txs : AccountTxMap) : Finset Hash :=
  (txs.entries.flatMap fun map => map.2.mTransactions.keys).toFinset

def oldest : AccountTxMap := queue.mPendingTransactions.getLast?.getD ∅

def shift : TransactionQueue :=
  { mPendingTransactions := ∅ :: queue.mPendingTransactions.dropLast
    mBannedTransactions := hashes queue.oldest :: queue.mBannedTransactions.dropLast }

def toTxSet (lclHash : Hash) : TxSetFrame platform :=
  .ofTransactions lclHash (queue.mPendingTransactions.flatMap fun txs =>
    txs.entries.flatMap fun map => map.2.mTransactions.entries.map Sigma.snd)

/-! ### Runs -/

inductive Call where
  | tryAdd (tx : TransactionEnvelope) (ledger : Ledger)
  | remove (dropTxs : List TransactionEnvelope)
  | shift

def perform (queue : TransactionQueue) : Call → TransactionQueue
  | .tryAdd tx ledger =>
      match queue.tryAdd platform tx ledger with
      | .ok (after, _) _ => after
      | .error _ _ => queue
  | .remove dropTxs => queue.remove platform dropTxs
  | .shift => queue.shift

def run (calls : List Call) : TransactionQueue := calls.foldl (perform platform) queue

end TransactionQueue

end ViiCore.Herder
