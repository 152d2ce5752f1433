import ViiCore.Library.Sorting
import ViiCore.Transactions.TransactionFrame

/-!
Transaction sets (`herder/TxSetFrame.cpp`): the order in which a set is hashed and applied,
the trimming of transactions that are not valid, surge pricing, and the check of a set.

What the platform leaves open is in `SetPlatform`: hashes, the order in which `std::sort`
puts equal elements and the order in which an `unordered_map` is visited. Frames of the same
envelope are not told apart by their address; in hash order they stand side by side, so it
makes no difference which of them `removeTx` erases.
-/

namespace ViiCore.Herder

open ViiCore.Ledger ViiCore.FiniteMap ViiCore.Sorting ViiCore.Transactions

abbrev Hash := Uint256

structure SetPlatform where
  env : Environment
  getFullHash : TransactionEnvelope → Hash
  /-- The digest of the previous ledger hash and the envelopes of a set. -/
  sha256 : Hash → List TransactionEnvelope → Hash
  sorter : Sorter TransactionEnvelope
  iterate : List AccountID → List AccountID
  iterate_perm : ∀ ids, (iterate ids).Perm ids

/-- Hashes are compared byte by byte from the first one on. -/
def lessThanXored (l r x : Hash) : Bool := (x ^^^ l).toNat < (x ^^^ r).toNat

def MAX_OPS_PER_TX : Nat := 100

variable (platform : SetPlatform)

def HashTxSorter : TransactionEnvelope → TransactionEnvelope → Bool :=
  byKey fun tx => (platform.getFullHash tx).toNat

def ApplyTxSorter (setHash : Hash) : TransactionEnvelope → TransactionEnvelope → Bool :=
  fun tx1 tx2 => lessThanXored (platform.getFullHash tx1) (platform.getFullHash tx2) setHash

def SeqSorter : TransactionEnvelope → TransactionEnvelope → Bool := byKey fun tx => tx.tx.seqNum

/-- `lastHash` starts from the hash that is all zero. -/
def inHashOrder : Hash → List TransactionEnvelope → Bool
  | _, [] => true
  | lastHash, tx :: rest =>
      if (platform.getFullHash tx).toNat < lastHash.toNat then false
      else inHashOrder (platform.getFullHash tx) rest

/-- `mHash` is `none` where `mHashIsValid` is false. -/
structure TxSetFrame where
  mPreviousLedgerHash : Hash
  mTransactions : List TransactionEnvelope
  mHash : Option Hash
  hashIsValid : ∀ hash, mHash = some hash →
    inHashOrder platform 0 mTransactions ∧
      hash = platform.sha256 mPreviousLedgerHash mTransactions

abbrev AccountTransactionQueue := List TransactionEnvelope

section Order

theorem inHashOrder_iff (lastHash : Hash) (txs : List TransactionEnvelope) :
    inHashOrder platform lastHash txs ↔
      (lastHash.toNat :: txs.map fun tx => (platform.getFullHash tx).toNat).Pairwise (· ≤ ·) := by
  induction txs generalizing lastHash with
  | nil => simp [inHashOrder]
  | cons tx rest ih =>
      simp only [inHashOrder, List.map_cons]
      split
      · rename_i below
        constructor
        · intro impossible
          cases impossible
        · intro sorted
          have first := (List.pairwise_cons.mp sorted).1 _ List.mem_cons_self
          omega
      · rename_i above
        rw [ih]
        constructor
        · intro sorted
          refine List.pairwise_cons.mpr ⟨?_, sorted⟩
          intro hash member
          rcases List.mem_cons.mp member with same | later
          · omega
          · have between := (List.pairwise_cons.mp sorted).1 hash later
            omega
        · intro sorted
          exact (List.pairwise_cons.mp sorted).2

theorem inHashOrder_zero (txs : List TransactionEnvelope) :
    inHashOrder platform 0 txs ↔ txs.Pairwise fun left right =>
      (platform.getFullHash left).toNat ≤ (platform.getFullHash right).toNat := by
  rw [inHashOrder_iff, List.pairwise_cons, List.pairwise_map]
  simp

theorem sort_inHashOrder (txs : List TransactionEnvelope) :
    inHashOrder platform 0 (platform.sorter.sort (HashTxSorter platform) txs) :=
  (inHashOrder_zero platform _).mpr (platform.sorter.sorted_byKey _ txs)

end Order

namespace TxSetFrame

variable {platform} (frame : TxSetFrame platform)

def ofTransactions (previousLedgerHash : Hash) (txs : List TransactionEnvelope) :
    TxSetFrame platform where
  mPreviousLedgerHash := previousLedgerHash
  mTransactions := txs
  mHash := none
  hashIsValid _ impossible := by cases impossible

def add (tx : TransactionEnvelope) : TxSetFrame platform :=
  ofTransactions frame.mPreviousLedgerHash (frame.mTransactions ++ [tx])

def removeTx (tx : TransactionEnvelope) : TxSetFrame platform :=
  ofTransactions frame.mPreviousLedgerHash (frame.mTransactions.erase tx)

def sortForHash : TxSetFrame platform :=
  ofTransactions frame.mPreviousLedgerHash
    (platform.sorter.sort (HashTxSorter platform) frame.mTransactions)

def getContentsHash : TxSetFrame platform × Hash :=
  match frame.mHash with
  | some hash => (frame, hash)
  | none =>
      let sorted := frame.sortForHash
      let hash := platform.sha256 sorted.mPreviousLedgerHash sorted.mTransactions
      ({ sorted with
          mHash := some hash
          hashIsValid := by
            intro other same
            cases same
            exact ⟨sort_inHashOrder platform frame.mTransactions, rfl⟩ }, hash)

def sizeTx : Nat := frame.mTransactions.length

def sizeOp : Nat := (frame.mTransactions.map fun tx => tx.tx.operations.length).sum

def size (header : LedgerHeader) : Nat :=
  if header.ledgerVersion ≥ 11 then frame.sizeOp else frame.sizeTx

/-! ### Fees -/

/-- The operations of all transactions, and the lowest fee an operation is bid for. -/
def lowestBid : List TransactionEnvelope → Nat → Int → Except Fault (Nat × Int)
  | [], ops, lowBaseFee => return (ops, lowBaseFee)
  | tx :: rest, ops, lowBaseFee => do
      let txOps := tx.tx.operations.length
      let txBaseFee ← bigDivideOrThrow tx.tx.fee 1 txOps .ROUND_UP
      lowestBid rest (ops + txOps) (min lowBaseFee txBaseFee)

def getBaseFee (header : LedgerHeader) : Except Fault Int :=
  if header.ledgerVersion ≥ 11 then do
    let (ops, lowBaseFee) ← lowestBid frame.mTransactions 0 INT64_MAX
    let surgeOpsCutoff :=
      if header.maxTxSetSize ≥ MAX_OPS_PER_TX then header.maxTxSetSize - MAX_OPS_PER_TX else 0
    return if ops > surgeOpsCutoff then lowBaseFee else header.baseFee
  else
    return header.baseFee

def addFees (header : LedgerHeader) (baseFee : Int) :
    List TransactionEnvelope → Int → Except Fault Int
  | [], total => return total
  | tx :: rest, total => do
      addFees header baseFee rest (← inInt64 (total + getFee tx header baseFee))

def getTotalFees (header : LedgerHeader) : Except Fault Int := do
  let baseFee ← frame.getBaseFee header
  addFees header baseFee frame.mTransactions 0

/-! ### Queues of accounts -/

def enqueue (queues : Map AccountID AccountTransactionQueue) (tx : TransactionEnvelope) :
    Map AccountID AccountTransactionQueue :=
  queues.insert tx.tx.sourceAccount ((queues.lookup tx.tx.sourceAccount).getD [] ++ [tx])

def buildAccountTxQueues : List (AccountID × AccountTransactionQueue) :=
  let queues := frame.mTransactions.foldl enqueue ∅
  (platform.iterate queues.keys).map fun id =>
    (id, platform.sorter.sort SeqSorter ((queues.lookup id).getD []))

def takeFronts (queues : List (AccountID × AccountTransactionQueue)) : List TransactionEnvelope :=
  queues.filterMap fun queue => queue.2.head?

def dropFronts (queues : List (AccountID × AccountTransactionQueue)) :
    List (AccountID × AccountTransactionQueue) :=
  (queues.map fun queue => (queue.1, queue.2.tail)).filter fun queue => queue.2 ≠ []

theorem dropFronts_shrinks (queues : List (AccountID × AccountTransactionQueue)) :
    ((dropFronts queues).map fun queue => queue.2.length + 1).sum ≤
      (queues.map fun queue => queue.2.length).sum := by
  induction queues with
  | nil => rfl
  | cons queue rest ih =>
      obtain ⟨id, txs⟩ := queue
      cases txs with
      | nil => simpa [dropFronts] using ih
      | cons tx later =>
          simp only [dropFronts, List.map_cons, List.tail_cons, List.filter_cons] at ih ⊢
          split
          · simp only [List.map_cons, List.sum_cons, List.length_cons]
            omega
          · simp only [List.sum_cons]
            omega

def txBatches : List (AccountID × AccountTransactionQueue) → List (List TransactionEnvelope)
  | [] => []
  | queue :: rest => takeFronts (queue :: rest) :: txBatches (dropFronts (queue :: rest))
termination_by queues => (queues.map fun queue => queue.2.length + 1).sum
decreasing_by
  have shrinks := dropFronts_shrinks (queue :: rest)
  simp only [List.map_cons, List.sum_cons] at shrinks ⊢
  have smaller : (rest.map fun queue => queue.2.length).sum ≤
      (rest.map fun queue => queue.2.length + 1).sum := by
    apply List.sum_le_sum
    intro _ _
    omega
  omega

/-- One transaction of every account after the other, each round shuffled by the hash of
the set. -/
def sortForApply : List TransactionEnvelope :=
  let setHash := frame.getContentsHash.2
  ((txBatches frame.buildAccountTxQueues).map
    (platform.sorter.sort (ApplyTxSorter platform setHash))).flatten

/-! ### Surge pricing -/

/-- Queues are compared by the fee rate of their fronts; the seed breaks ties. -/
def surgeCompare (platform : SetPlatform) (seed : Hash) (header : LedgerHeader) :
    AccountTransactionQueue → AccountTransactionQueue → Bool
  | [], right => right ≠ []
  | _ :: _, [] => false
  | top1 :: _, top2 :: _ =>
      let v1 := (top1.tx.fee : Int) * getMinFee top2 header
      let v2 := (top2.tx.fee : Int) * getMinFee top1 header
      if v1 < v2 then true
      else if v1 > v2 then false
      else lessThanXored (platform.getFullHash top1) (platform.getFullHash top2) seed

/-- `none` where the queue has nothing left to push back. -/
def pushBack (queue : AccountTransactionQueue) (queues : List AccountTransactionQueue) :
    List AccountTransactionQueue :=
  match queue with
  | [] => queues
  | _ :: _ => queue :: queues

theorem popTop_length {less : AccountTransactionQueue → AccountTransactionQueue → Bool}
    {queues rest : List AccountTransactionQueue} {queue : AccountTransactionQueue}
    (popped : popTop less queues = some (queue, rest)) :
    (queues.map fun queue => queue.length + 1).sum =
      queue.length + 1 + (rest.map fun queue => queue.length + 1).sum := by
  have same := ((popTop_perm popped).map fun queue => queue.length + 1).sum_eq
  rw [← same]
  rfl

/-- The loop over the priority queue, with the operations left and the set so far. A
transaction that does not fit takes the rest of its queue along. -/
def surgeLoop (less : AccountTransactionQueue → AccountTransactionQueue → Bool)
    (opsCount : TransactionEnvelope → Nat) (opsLeft : Nat)
    (queues : List AccountTransactionQueue) (updatedSet : List TransactionEnvelope) :
    List TransactionEnvelope :=
  if opsLeft = 0 then updatedSet
  else
    match popped : popTop less queues with
    | none => updatedSet
    | some ([], rest) => surgeLoop less opsCount opsLeft rest updatedSet
    | some (curTopTx :: later, rest) =>
        if opsCount curTopTx ≤ opsLeft then
          surgeLoop less opsCount (opsLeft - opsCount curTopTx) (pushBack later rest)
            (updatedSet ++ [curTopTx])
        else
          surgeLoop less opsCount opsLeft rest updatedSet
termination_by (queues.map fun queue => queue.length + 1).sum
decreasing_by
  · rw [popTop_length popped]
    simp
  · rw [popTop_length popped]
    cases later <;> simp [pushBack]
  · rw [popTop_length popped]
    simp

def surgePricingFilter (seed : Hash) : Apply (TxSetFrame platform) := do
  let header ← loadHeader
  let maxIsOps : Bool := header.ledgerVersion ≥ 11
  let opsLeft := if maxIsOps then header.maxTxSetSize else header.maxTxSetSize * MAX_OPS_PER_TX
  let curSizeOps := if maxIsOps then frame.sizeOp else frame.sizeTx * MAX_OPS_PER_TX
  if curSizeOps > opsLeft then
    let opsCount (tx : TransactionEnvelope) : Nat :=
      if maxIsOps then tx.tx.operations.length else MAX_OPS_PER_TX
    let updatedSet := surgeLoop (surgeCompare platform seed header) opsCount opsLeft
      (frame.buildAccountTxQueues.map Prod.snd) []
    return (ofTransactions frame.mPreviousLedgerHash updatedSet).sortForHash
  else
    return frame

/-! ### Trimming and checking -/

section Check

variable {σ : Type}

/-- What the two callers of `checkOrTrim` do about an invalid transaction and an account
that cannot pay; `none` ends the check. -/
structure Handlers (σ : Type) where
  processInvalidTx : σ → TransactionEnvelope → Option σ
  processInsufficientBalance : σ → AccountTransactionQueue → Option σ

structure QueueCheck where
  lastTx : Option TransactionEnvelope
  lastSeq : SequenceNumber
  totFee : Int

def checkQueue (env : Environment) (handlers : Handlers σ) :
    AccountTransactionQueue → QueueCheck → σ → Apply (Option (QueueCheck × σ))
  | [], check, state => return some (check, state)
  | tx :: rest, check, state => do
      if ← Transactions.checkValid env tx check.lastSeq then
        checkQueue env handlers rest
          { lastTx := some tx, lastSeq := tx.tx.seqNum, totFee := check.totFee + tx.tx.fee } state
      else
        match handlers.processInvalidTx state tx with
        | some state => checkQueue env handlers rest check state
        | none => return none

def checkAccount (env : Environment) (handlers : Handlers σ) (queue : AccountTransactionQueue)
    (state : σ) : Apply (Option σ) := do
  match ← checkQueue env handlers queue { lastTx := none, lastSeq := 0, totFee := 0 } state with
  | none => return none
  | some (check, state) =>
      match check.lastTx with
      | none => return some state
      | some lastTx =>
          let header ← loadHeader
          let source ← accountTable.current lastTx.tx.sourceAccount
          if (← computed (getAvailableBalanceOfAccount header source)) < check.totFee then
            return handlers.processInsufficientBalance state queue
          else
            return some state

def checkAccounts (env : Environment) (handlers : Handlers σ) :
    List (AccountID × AccountTransactionQueue) → σ → Apply (Option σ)
  | [], state => return some state
  | item :: rest, state => do
      match ← checkAccount env handlers item.2 state with
      | none => return none
      | some state => checkAccounts env handlers rest state

def checkOrTrim (handlers : Handlers σ) (state : σ) : Apply (Option σ) :=
  if inHashOrder platform 0 frame.mTransactions then
    checkAccounts platform.env handlers frame.buildAccountTxQueues state
  else
    return none

end Check

abbrev Trimming (platform : SetPlatform) := TxSetFrame platform × List TransactionEnvelope

def trimTx (state : Trimming platform) (tx : TransactionEnvelope) : Trimming platform :=
  (state.1.removeTx tx, state.2 ++ [tx])

def trimHandlers : Handlers (Trimming platform) where
  processInvalidTx state tx := some (trimTx state tx)
  processInsufficientBalance state queue := some (queue.foldl trimTx state)

def trimInvalid : Apply (Trimming platform) := do
  let sorted := frame.sortForHash
  match ← sorted.checkOrTrim trimHandlers (sorted, []) with
  | some result => return result
  | none => return (sorted, [])

def checkHandlers : Handlers Unit where
  processInvalidTx _ _ := none
  processInsufficientBalance _ _ := none

/-- `lclHash` and the header of the ledger are those of the last closed ledger. -/
def checkValid (lclHash : Hash) : Apply Bool := do
  let header ← loadHeader
  if lclHash ≠ frame.mPreviousLedgerHash then return false
  else if frame.size header > header.maxTxSetSize then return false
  else return (← frame.checkOrTrim checkHandlers ()).isSome

end TxSetFrame

def proposeTxSet (seed lclHash : Hash) (txs : List TransactionEnvelope) :
    Apply (TxSetFrame platform) := do
  let (trimmed, _) ← (TxSetFrame.ofTransactions lclHash txs : TxSetFrame platform).trimInvalid
  let proposedSet ← trimmed.surgePricingFilter seed
  if ← proposedSet.checkValid lclHash then return proposedSet
  else throw (.runtimeError "wanting to emit an invalid txSet")

end ViiCore.Herder
