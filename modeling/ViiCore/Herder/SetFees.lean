import ViiCore.Herder.CheckedSets
import ViiCore.Transactions.Effects

/-!
The fees of a transaction set: the fee an operation is charged, which a nearly full set raises to
the lowest bid in it, and the sum over the set.
-/

namespace ViiCore.Herder.TxSetFrame

open ViiCore.Ledger ViiCore.FiniteMap ViiCore.Transactions

variable {platform : SetPlatform} {ledger : Ledger}

structure Typed (header : LedgerHeader) (txs : List TransactionEnvelope) : Prop where
  baseFee : header.baseFee < 2 ^ 32
  fee : ∀ tx ∈ txs, tx.tx.fee < 2 ^ 32
  operations : ∀ tx ∈ txs, tx.tx.operations.length ≤ MAX_OPS_PER_TX

/-! ### The base fee -/

def bidPerOperation (tx : TransactionEnvelope) : Int :=
  quotient .ROUND_UP tx.tx.fee tx.tx.operations.length

theorem le_bidPerOperation {tx : TransactionEnvelope} {bound : Int}
    (some : tx.tx.operations ≠ []) (covers : bound * tx.tx.operations.length ≤ tx.tx.fee) :
    bound ≤ bidPerOperation tx := by
  have positive : (0 : Int) < tx.tx.operations.length := by
    have counted := List.length_pos_of_ne_nil some
    omega
  have above := le_quotient_up_mul tx.tx.fee tx.tx.operations.length positive
  exact Int.le_of_mul_le_mul_right (covers.trans above) positive

theorem bidPerOperation_le {tx : TransactionEnvelope} (some : tx.tx.operations ≠ []) :
    bidPerOperation tx ≤ tx.tx.fee := by
  have positive : (0 : Int) < tx.tx.operations.length := by
    have counted := List.length_pos_of_ne_nil some
    omega
  apply Int.lt_add_one_iff.mp
  apply Int.lt_of_mul_lt_mul_right _ positive.le
  have below := quotient_up_mul_lt tx.tx.fee tx.tx.operations.length positive
  have more : (tx.tx.fee : Int) ≤ tx.tx.fee * tx.tx.operations.length :=
    le_mul_of_one_le_right (by omega) (by omega)
  unfold bidPerOperation
  rw [add_mul, one_mul]
  omega

theorem bidPerOperation_eq {tx : TransactionEnvelope} (fee : tx.tx.fee < 2 ^ 32)
    (some : tx.tx.operations ≠ []) (few : tx.tx.operations.length ≤ MAX_OPS_PER_TX) :
    bigDivideOrThrow tx.tx.fee 1 tx.tx.operations.length .ROUND_UP = .ok (bidPerOperation tx) := by
  have positive : 0 < tx.tx.operations.length := List.length_pos_of_ne_nil some
  have small : bidPerOperation tx ≤ INT64_MAX := by
    apply (bidPerOperation_le some).trans
    simp only [INT64_MAX]
    omega
  unfold bidPerOperation at small ⊢
  unfold bigDivideOrThrow
  rw [bigDivide_eq _ _ _ _ (by omega) (by simp only [INT64_MAX]; omega) (by decide) (by decide)
    (by omega) (by simp only [INT64_MAX, MAX_OPS_PER_TX] at few ⊢; omega), mul_one, if_pos small]
  rfl

theorem lowestBid_spec {header : LedgerHeader} {txs : List TransactionEnvelope}
    (typed : Typed header txs) (nonempty : ∀ tx ∈ txs, tx.tx.operations ≠ []) (ops : Nat)
    (lowBaseFee : Int) :
    ∃ lowest, lowestBid txs ops lowBaseFee =
        .ok (ops + (txs.map fun tx => tx.tx.operations.length).sum, lowest) ∧
      lowest ≤ lowBaseFee ∧ (∀ tx ∈ txs, lowest ≤ bidPerOperation tx) ∧
      ∀ bound ≤ lowBaseFee, (∀ tx ∈ txs, bound ≤ bidPerOperation tx) → bound ≤ lowest := by
  induction txs generalizing ops lowBaseFee with
  | nil => exact ⟨lowBaseFee, rfl, le_refl _, by simp, fun bound below _ => below⟩
  | cons tx rest ih =>
      have head := List.mem_cons_self (a := tx) (l := rest)
      have divides := bidPerOperation_eq (typed.fee tx head) (nonempty tx head)
        (typed.operations tx head)
      have restTyped : Typed header rest :=
        ⟨typed.baseFee, fun other member => typed.fee other (List.mem_cons_of_mem tx member),
          fun other member => typed.operations other (List.mem_cons_of_mem tx member)⟩
      obtain ⟨lowest, result, below, belowAll, greatest⟩ := ih restTyped
        (fun other member => nonempty other (List.mem_cons_of_mem tx member))
        (ops + tx.tx.operations.length) (min lowBaseFee (bidPerOperation tx))
      refine ⟨lowest, ?_, below.trans (min_le_left _ _), ?_, ?_⟩
      · simp only [lowestBid, divides, bind, Except.bind]
        rw [result, List.map_cons, List.sum_cons, Nat.add_assoc]
      · intro other member
        rcases List.mem_cons.mp member with rfl | later
        · exact below.trans (min_le_right _ _)
        · exact belowAll other later
      · intro bound under underAll
        apply greatest
        · exact le_min under (underAll tx head)
        · intro other member
          exact underAll other (List.mem_cons_of_mem tx member)

theorem getMinFee_eq {tx : TransactionEnvelope} (header : LedgerHeader)
    (some : tx.tx.operations ≠ []) :
    getMinFee tx header = header.baseFee * (tx.tx.operations.length : Int) := by
  have positive : 0 < tx.tx.operations.length := List.length_pos_of_ne_nil some
  unfold getMinFee
  rw [max_eq_right (by omega)]

theorem getBaseFee_spec {frame : TxSetFrame platform} {header : LedgerHeader}
    (typed : Typed header frame.mTransactions)
    (nonempty : ∀ tx ∈ frame.mTransactions, tx.tx.operations ≠ [])
    (covered : ∀ tx ∈ frame.mTransactions, getMinFee tx header ≤ tx.tx.fee) :
    ∃ baseFee, frame.getBaseFee header = .ok baseFee ∧ (header.baseFee : Int) ≤ baseFee ∧
      ∀ tx ∈ frame.mTransactions, baseFee < 2 ^ 32 := by
  have headerFee := typed.baseFee
  unfold getBaseFee
  split
  · obtain ⟨lowest, result, _, belowAll, greatest⟩ :=
      lowestBid_spec typed nonempty 0 INT64_MAX
    have above : (header.baseFee : Int) ≤ lowest := by
      apply greatest
      · simp only [INT64_MAX]
        omega
      · intro tx member
        apply le_bidPerOperation (nonempty tx member)
        rw [← getMinFee_eq header (nonempty tx member)]
        exact covered tx member
    simp only [result, bind, Except.bind]
    generalize (if header.maxTxSetSize ≥ MAX_OPS_PER_TX then header.maxTxSetSize - MAX_OPS_PER_TX
      else 0) = surgeOpsCutoff
    refine ⟨_, rfl, ?_, ?_⟩
    · split
      · exact above
      · exact le_refl _
    · intro tx member
      split
      · have bid := (belowAll tx member).trans (bidPerOperation_le (nonempty tx member))
        have fee := typed.fee tx member
        omega
      · omega
  · exact ⟨header.baseFee, rfl, le_refl _, fun _ _ => by omega⟩

/-! ### What a transaction is charged -/

theorem getFee_le {tx : TransactionEnvelope} (header : LedgerHeader) (baseFee : Int) :
    getFee tx header baseFee ≤ tx.tx.fee := by
  unfold getFee
  split
  · exact le_refl _
  · exact min_le_left _ _

theorem getMinFee_le_getFee {tx : TransactionEnvelope} {header : LedgerHeader} {baseFee : Int}
    (covered : getMinFee tx header ≤ tx.tx.fee) (above : (header.baseFee : Int) ≤ baseFee) :
    getMinFee tx header ≤ getFee tx header baseFee := by
  unfold getFee
  split
  · exact covered
  · apply le_min covered
    exact Int.mul_le_mul_of_nonneg_right above (by omega)

theorem getMinFee_nonneg (tx : TransactionEnvelope) (header : LedgerHeader) :
    0 ≤ getMinFee tx header :=
  Int.mul_nonneg (by omega) (by omega)

theorem addFees_eq {header : LedgerHeader} {baseFee : Int} {txs : List TransactionEnvelope}
    {total : Int} (start : 0 ≤ total) (nonneg : ∀ tx ∈ txs, 0 ≤ getFee tx header baseFee)
    (fits : total + (txs.map fun tx => getFee tx header baseFee).sum ≤ INT64_MAX) :
    addFees header baseFee txs total =
      .ok (total + (txs.map fun tx => getFee tx header baseFee).sum) := by
  induction txs generalizing total with
  | nil => simp [addFees, pure, Except.pure]
  | cons tx rest ih =>
      have later : 0 ≤ (rest.map fun tx => getFee tx header baseFee).sum := by
        apply List.sum_nonneg
        intro fee member
        obtain ⟨other, inRest, rfl⟩ := List.mem_map.mp member
        exact nonneg other (List.mem_cons_of_mem tx inRest)
      rw [List.map_cons, List.sum_cons] at fits ⊢
      have first := nonneg tx List.mem_cons_self
      have step : inInt64 (total + getFee tx header baseFee) =
          .ok (total + getFee tx header baseFee) := by
        unfold inInt64 INT64_MIN
        rw [if_neg (by omega)]
        rfl
      unfold addFees
      rw [step]
      change addFees header baseFee rest _ = _
      rw [ih (add_nonneg start first)
        (fun other member => nonneg other (List.mem_cons_of_mem tx member)) (by omega)]
      rw [add_assoc]

/-! ### Coins -/

/-- The native balances and the fee pool add up to the coins there are. -/
structure CoinsAddUp (ledger : Ledger) : Prop where
  nonneg : ∀ id account, ledger.accounts.lookup id = some account →
    0 ≤ account.balance ∧ 0 ≤ (recorded account.ext).selling
  feePool : 0 ≤ ledger.header.feePool
  total : holdings .native ledger + ledger.header.feePool = ledger.header.totalCoins
  fits : ledger.header.totalCoins ≤ INT64_MAX

theorem CoinsAddUp.balance_fits (coins : CoinsAddUp ledger) {id : AccountID}
    {account : AccountEntry} (found : ledger.accounts.lookup id = some account) :
    account.balance ≤ INT64_MAX := by
  have part := share_le_total (fun _ account => account.balance) ledger.accounts id
    fun id account found => (coins.nonneg id account found).1
  have total : FiniteMap.total (fun _ account => account.balance) ledger.accounts +
      ledger.header.feePool = ledger.header.totalCoins := coins.total
  have pool := coins.feePool
  have fits := coins.fits
  rw [share_of_lookup found] at part
  omega

theorem availableBalance_le_balance (header : LedgerHeader) {account : AccountEntry}
    (selling : 0 ≤ (recorded account.ext).selling) :
    availableBalance header account ≤ account.balance := by
  have reserve : 0 ≤ getMinBalance header account.numSubEntries := by
    unfold getMinBalance
    split
    · omega
    · exact Int.mul_nonneg (by omega) (by omega)
  unfold availableBalance
  unfold recorded at selling
  split <;> omega

theorem Sound.pays_balance {env : Environment} {id : AccountID} {chain : AccountTransactionQueue}
    (sound : Sound env ledger id chain) (coins : CoinsAddUp ledger) :
    feeBids chain ≤ share (fun _ account => account.balance) ledger.accounts id := by
  by_cases empty : chain = []
  · have nothing : (0 : Int) ≤ share (fun _ account => account.balance) ledger.accounts id := by
      cases found : ledger.accounts.lookup id with
      | none => rw [share_of_absent found]
      | some account =>
          rw [share_of_lookup found]
          exact (coins.nonneg id account found).1
    simpa [empty, feeBids] using nothing
  · obtain ⟨account, found⟩ := sound.exists empty
    have pays := sound.pays
    simp only [canPay, empty, found, Option.any_some, decide_eq_true_eq, false_or] at pays
    rw [share_of_lookup found]
    exact pays.trans (availableBalance_le_balance _ (coins.nonneg id account found).2)

theorem feeBids_perm {txs other : List TransactionEnvelope} (same : txs.Perm other) :
    feeBids txs = feeBids other :=
  (same.map _).sum_eq

theorem feeBids_flatMap (ids : List AccountID) (queue : AccountID → AccountTransactionQueue) :
    feeBids (ids.flatMap queue) = (ids.map fun id => feeBids (queue id)).sum := by
  induction ids with
  | nil => rfl
  | cons id rest ih => rw [List.flatMap_cons, feeBids_append, ih, List.map_cons, List.sum_cons]

theorem Passed.feeBids_le {frame : TxSetFrame platform} {lclHash : Hash}
    (passed : Passed lclHash ledger frame) (coins : CoinsAddUp ledger) :
    feeBids frame.mTransactions + ledger.header.feePool ≤ ledger.header.totalCoins := by
  have queues := frame.queues_perm
  rw [buildAccountTxQueues_eq, List.flatMap_map] at queues
  have split : feeBids frame.mTransactions = (frame.queuedAccounts.map fun id =>
      feeBids (queueOf platform frame.mTransactions id)).sum := by
    rw [← feeBids_perm queues, feeBids_flatMap]
  have each : (frame.queuedAccounts.map fun id =>
        feeBids (queueOf platform frame.mTransactions id)).sum ≤
      (frame.queuedAccounts.map (share (fun _ account => account.balance) ledger.accounts)).sum := by
    apply List.sum_le_sum
    intro id _
    exact (passed.sound id).pays_balance coins
  have all := sum_shares_le_total (fun _ account => account.balance) ledger.accounts
    frame.queuedAccounts_nodup fun id account found => (coins.nonneg id account found).1
  have total : FiniteMap.total (fun _ account => account.balance) ledger.accounts +
      ledger.header.feePool = ledger.header.totalCoins := coins.total
  omega

theorem Passed.priced {frame : TxSetFrame platform} {lclHash : Hash}
    (passed : Passed lclHash ledger frame) {tx : TransactionEnvelope}
    (member : tx ∈ frame.mTransactions) : PaysMinFee ledger tx := by
  have chained := (passed.sound (sourceOf tx)).chained
  have queued : tx ∈ queueOf platform frame.mTransactions (sourceOf tx) :=
    (queueOf_perm frame.mTransactions (sourceOf tx)).mem_iff.mpr
      (List.mem_filter.mpr ⟨member, by simp⟩)
  generalize queueOf platform frame.mTransactions (sourceOf tx) = queue at chained queued
  generalize (0 : SequenceNumber) = lastSeq at chained
  induction queue generalizing lastSeq with
  | nil => cases queued
  | cons first rest ih =>
      rcases List.mem_cons.mp queued with rfl | later
      · exact (isValidAfter_admitted chained.1).2
      · exact ih later first.tx.seqNum chained.2

theorem Passed.getTotalFees {frame : TxSetFrame platform} {lclHash : Hash}
    (passed : Passed lclHash ledger frame) (coins : CoinsAddUp ledger)
    (typed : Typed ledger.header frame.mTransactions) :
    ∃ baseFee, frame.getBaseFee ledger.header = .ok baseFee ∧
      (ledger.header.baseFee : Int) ≤ baseFee ∧
      (∀ tx ∈ frame.mTransactions, baseFee < 2 ^ 32) ∧
      frame.getTotalFees ledger.header = .ok
        (frame.mTransactions.map fun tx => getFee tx ledger.header baseFee).sum ∧
      (frame.mTransactions.map fun tx => getFee tx ledger.header baseFee).sum ≤
        feeBids frame.mTransactions := by
  obtain ⟨baseFee, computes, above, small⟩ := getBaseFee_spec typed
    (fun tx member => (passed.priced member).1) fun tx member => (passed.priced member).2
  have bids : (frame.mTransactions.map fun tx => getFee tx ledger.header baseFee).sum ≤
      feeBids frame.mTransactions := by
    apply List.sum_le_sum
    intro tx _
    exact getFee_le ledger.header baseFee
  have paid := passed.feeBids_le coins
  have pool := coins.feePool
  have coinsFit := coins.fits
  refine ⟨baseFee, computes, above, small, ?_, bids⟩
  unfold TxSetFrame.getTotalFees
  rw [computes]
  change addFees _ _ _ _ = _
  rw [addFees_eq le_rfl _ (by omega), zero_add]
  intro tx member
  exact (getMinFee_nonneg tx _).trans (getMinFee_le_getFee (passed.priced member).2 above)

theorem soloLedger_coins : CoinsAddUp soloLedger where
  nonneg id account found := by
    have stored := AList.mem_lookup_iff.mp found
    change _ ∈ [_] at stored
    rw [List.mem_singleton] at stored
    cases stored
    decide
  feePool := by decide
  total := by decide
  fits := by decide

theorem roomyLedger_coins : CoinsAddUp roomyLedger :=
  ⟨soloLedger_coins.nonneg, soloLedger_coins.feePool, soloLedger_coins.total, soloLedger_coins.fits⟩

end ViiCore.Herder.TxSetFrame
