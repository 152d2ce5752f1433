import ViiCore.Herder.SetFees
import ViiCore.Ledger.LedgerManager

/-!
The fee phase of `closeLedger`.

The check of a set adds up the bids of every account, and no fee is above its bid. So while the
fees are charged, one transaction after the other, every account can still pay for all bids of it
that are left.
-/

namespace ViiCore.LedgerManager

open ViiCore.Ledger ViiCore.FiniteMap ViiCore.Execution ViiCore.Transactions ViiCore.Herder
open TxSetFrame

variable {header : LedgerHeader} {baseFee : Int} {ledger : ViiCore.Ledger}

/-- An account that can pay for the transactions left of it, which follow its sequence number. -/
structure Funded (header : LedgerHeader) (late : List TransactionEnvelope) (account : AccountEntry) :
    Prop where
  selling : 0 ≤ (recorded account.ext).selling
  fits : account.balance ≤ INT64_MAX
  pays : feeBids late ≤ availableBalance header account
  numbered : header.ledgerVersion ≤ 9 → late.map (fun tx => tx.tx.seqNum) =
    (List.range late.length).map fun (index : Nat) => account.seqNum + 1 + (index : Int)

/-- The header in which the fees are charged differs from the one of the check in the fee pool
only, as far as fees are concerned. -/
structure Collecting (header : LedgerHeader) (baseFee : Int) (ids : List AccountID)
    (late : List TransactionEnvelope) (ledger : ViiCore.Ledger) : Prop where
  sameHeader : ledger.header = { header with feePool := ledger.header.feePool }
  sources : ∀ tx ∈ late, sourceOf tx ∈ ids
  fees : ∀ tx ∈ late, 0 ≤ getFee tx header baseFee
  funded : ∀ id ∈ ids, ∃ account, ledger.accounts.lookup id = some account ∧
    Funded header (ofAccount id late) account

def chargedAccount (header : LedgerHeader) (baseFee : Int) (tx : TransactionEnvelope)
    (account : AccountEntry) : AccountEntry :=
  { account with
    balance := account.balance - getFee tx header baseFee
    seqNum := if header.ledgerVersion ≤ 9 then tx.tx.seqNum else account.seqNum }

theorem chargeFee_exact {account : AccountEntry} {fee : Int} (nonneg : 0 ≤ fee)
    (covered : fee ≤ account.balance) (fits : account.balance ≤ INT64_MAX) :
    chargeFee account fee = .ok (fee, { account with balance := account.balance - fee }) := by
  unfold chargeFee
  by_cases positive : fee > 0
  · have added : addToBalance account.balance (-fee) INT64_MAX =
        .ok (some (account.balance - fee)) := by
      unfold addToBalance assertThat
      rw [if_pos (by simpa using nonneg.trans covered), if_pos (by decide)]
      change (if _ then _ else _) = _
      rw [if_neg (by omega), if_neg (by omega), if_neg (by omega), ← sub_eq_add_neg]
      rfl
    rw [if_pos positive, min_eq_right covered]
    simp only [added, bind, Except.bind, Option.getD_some]
    rfl
  · have zero : fee = 0 := by omega
    rw [if_neg positive, zero, sub_zero]
    rfl

theorem availableBalance_charged (tx : TransactionEnvelope) (account : AccountEntry) :
    availableBalance header (chargedAccount header baseFee tx account) =
      availableBalance header account - getFee tx header baseFee := by
  unfold availableBalance chargedAccount
  dsimp only
  ring

theorem Funded.next {tx : TransactionEnvelope} {late : List TransactionEnvelope}
    {account : AccountEntry} (funded : Funded header (tx :: late) account)
    (old : header.ledgerVersion ≤ 9) : account.seqNum + 1 = tx.tx.seqNum := by
  have numbered := funded.numbered old
  rw [List.length_cons, List.range_succ_eq_map, List.map_cons, List.map_cons] at numbered
  rw [(List.cons.inj numbered).1]
  simp

theorem Funded.charge {tx : TransactionEnvelope} {late : List TransactionEnvelope}
    {account : AccountEntry} (funded : Funded header (tx :: late) account)
    (nonneg : 0 ≤ getFee tx header baseFee) :
    Funded header late (chargedAccount header baseFee tx account) where
  selling := funded.selling
  fits := (sub_le_self _ nonneg).trans funded.fits
  pays := by
    have pays := funded.pays
    have bid : getFee tx header baseFee ≤ tx.tx.fee := getFee_le header baseFee
    simp only [feeBids, List.map_cons, List.sum_cons] at pays ⊢
    rw [availableBalance_charged]
    omega
  numbered old := by
    have next := funded.next old
    have numbered := funded.numbered old
    rw [List.length_cons, List.range_succ_eq_map, List.map_cons, List.map_cons,
      List.map_map] at numbered
    rw [(List.cons.inj numbered).2]
    simp only [chargedAccount, if_pos old]
    apply List.map_congr_left
    intro index _
    simp only [Function.comp_apply, ← next]
    push_cast
    ring

theorem Funded.covers {tx : TransactionEnvelope} {late : List TransactionEnvelope}
    {account : AccountEntry} (funded : Funded header (tx :: late) account) :
    getFee tx header baseFee ≤ account.balance := by
  have pays := funded.pays
  have bid : getFee tx header baseFee ≤ tx.tx.fee := getFee_le header baseFee
  have later := feeBids_nonneg late
  have available := availableBalance_le_balance header funded.selling
  simp only [feeBids, List.map_cons, List.sum_cons] at pays later
  omega

def chargedLedger (header : LedgerHeader) (baseFee : Int) (tx : TransactionEnvelope)
    (account : AccountEntry) (ledger : ViiCore.Ledger) : ViiCore.Ledger :=
  { ledger with
    header := { ledger.header with feePool := ledger.header.feePool + getFee tx header baseFee }
    accounts := ledger.accounts.insert (sourceOf tx) (chargedAccount header baseFee tx account) }

theorem processFeeSeqNum_charges {ids : List AccountID} {tx : TransactionEnvelope}
    {late : List TransactionEnvelope}
    (collecting : Collecting header baseFee ids (tx :: late) ledger) :
    ∃ account, ledger.accounts.lookup (sourceOf tx) = some account ∧
      chargeFee account (getFee tx header baseFee) = .ok (getFee tx header baseFee,
        { account with balance := account.balance - getFee tx header baseFee }) ∧
      processFeeSeqNum tx baseFee ledger = .ok () (chargedLedger header baseFee tx account ledger) ∧
      Collecting header baseFee ids late (chargedLedger header baseFee tx account ledger) := by
  have head := List.mem_cons_self (a := tx) (l := late)
  have listed := collecting.sources tx head
  have nonneg := collecting.fees tx head
  obtain ⟨account, found, funded⟩ := collecting.funded _ listed
  have own : ofAccount (sourceOf tx) (tx :: late) = tx :: ofAccount (sourceOf tx) late := by
    simp [ofAccount]
  rw [own] at funded
  have charges := chargeFee_exact nonneg funded.covers funded.fits
  have version : ledger.header.ledgerVersion = header.ledgerVersion := by
    rw [collecting.sameHeader]
  have fee : getFee tx ledger.header baseFee = getFee tx header baseFee := by
    unfold getFee
    rw [version]
  refine ⟨account, found, charges, ?_, ?_⟩
  · have loaded : accountTable.load tx.tx.sourceAccount ledger = .ok (some account) ledger :=
      congrArg (fun stored => EStateM.Result.ok stored ledger) found
    have read : loadHeader ledger = .ok ledger.header ledger := rfl
    unfold processFeeSeqNum
    rw [bind_of_ok read, bind_of_ok loaded]
    dsimp only
    rw [fee, charges, version]
    by_cases old : header.ledgerVersion ≤ 9
    · have next : account.seqNum + 1 = tx.tx.seqNum := funded.next old
      have stored : chargedAccount header baseFee tx account =
          { account with
            balance := account.balance - getFee tx header baseFee, seqNum := tx.tx.seqNum } := by
        simp [chargedAccount, old]
      simp only [if_pos old, if_neg (not_not.mpr next), chargedLedger, stored]
      rfl
    · have stored : chargedAccount header baseFee tx account =
          { account with balance := account.balance - getFee tx header baseFee } := by
        simp [chargedAccount, old]
      simp only [if_neg old, chargedLedger, stored]
      rfl
  · constructor
    · change ({ ledger.header with
        feePool := ledger.header.feePool + getFee tx header baseFee } : LedgerHeader) =
          { header with feePool := ledger.header.feePool + getFee tx header baseFee }
      rw [collecting.sameHeader]
    · intro other member
      exact collecting.sources other (List.mem_cons_of_mem tx member)
    · intro other member
      exact collecting.fees other (List.mem_cons_of_mem tx member)
    · intro id member
      by_cases same : id = sourceOf tx
      · subst same
        exact ⟨_, AList.lookup_insert _, funded.charge nonneg⟩
      · obtain ⟨other, otherFound, otherFunded⟩ := collecting.funded id member
        have foreign : ofAccount id (tx :: late) = ofAccount id late := by
          simp [ofAccount, Ne.symm same]
        rw [foreign] at otherFunded
        exact ⟨other, (AList.lookup_insert_ne same).trans otherFound, otherFunded⟩

theorem processFeesSeqNums_prefix {ids : List AccountID} {early late : List TransactionEnvelope}
    (collecting : Collecting header baseFee ids (early ++ late) ledger) :
    ∃ after, processFeesSeqNums early baseFee ledger = .ok () after ∧
      after.header.feePool = ledger.header.feePool +
        (early.map fun tx => getFee tx header baseFee).sum ∧
      Collecting header baseFee ids late after := by
  induction early generalizing ledger with
  | nil => exact ⟨ledger, rfl, by simp, collecting⟩
  | cons tx rest ih =>
      obtain ⟨account, _, _, charges, later⟩ := processFeeSeqNum_charges collecting
      obtain ⟨after, runs, grows, remains⟩ := ih later
      refine ⟨after, ?_, ?_, remains⟩
      · unfold processFeesSeqNums at runs ⊢
        change (processFeeSeqNum tx baseFee >>= fun _ => rest.forM _) ledger = _
        rw [bind_of_ok charges]
        exact runs
      · rw [grows, List.map_cons, List.sum_cons]
        simp only [chargedLedger]
        omega

theorem getTotalFees_openLedger {platform : SetPlatform} (frame : TxSetFrame platform)
    (closeTime : Nat) :
    frame.getTotalFees (openLedger closeTime ledger).header = frame.getTotalFees ledger.header := by
  have sums : ∀ baseFee txs total, addFees (openLedger closeTime ledger).header baseFee txs total =
      addFees ledger.header baseFee txs total := by
    intro baseFee txs
    induction txs with
    | nil =>
        intro total
        rfl
    | cons tx rest ih =>
        intro total
        have step : getFee tx (openLedger closeTime ledger).header baseFee =
            getFee tx ledger.header baseFee := rfl
        unfold addFees
        rw [step]
        simp only [ih]
  have base : frame.getBaseFee (openLedger closeTime ledger).header =
      frame.getBaseFee ledger.header := rfl
  unfold getTotalFees
  rw [base]
  simp only [sums]

theorem collecting_of_passed {platform : SetPlatform} {frame : TxSetFrame platform}
    {lclHash : Hash} (closeTime : Nat) (passed : Passed lclHash ledger frame)
    (coins : CoinsAddUp ledger) (sequences : SequencesValid ledger)
    (nonneg : ∀ tx ∈ frame.mTransactions, 0 ≤ getFee tx ledger.header baseFee) :
    Collecting (openLedger closeTime ledger).header baseFee frame.queuedAccounts frame.sortForApply
      (openLedger closeTime ledger) where
  sameHeader := rfl
  sources tx member := by
    have listed := frame.sortForApply_perm.mem_iff.mp member
    exact (frame.mem_queuedAccounts _).mpr ⟨tx, listed, rfl⟩
  fees tx member := nonneg tx (frame.sortForApply_perm.mem_iff.mp member)
  funded id member := by
    obtain ⟨tx, listed, own⟩ := (frame.mem_queuedAccounts id).mp member
    have queued : tx ∈ queueOf platform frame.mTransactions id :=
      (queueOf_perm frame.mTransactions id).mem_iff.mpr
        (List.mem_filter.mpr ⟨listed, by simpa using own⟩)
    have sound := passed.sound id
    have some := List.ne_nil_of_mem queued
    obtain ⟨account, found⟩ := sound.exists some
    refine ⟨account, found, (coins.nonneg id account found).2, ?_, ?_, ?_⟩
    · exact coins.balance_fits found
    · rw [sortForApply_ofAccount]
      have pays := sound.pays
      simp only [canPay, some, found, Option.any_some, decide_eq_true_eq, false_or] at pays
      exact pays
    · intro _
      rw [sortForApply_ofAccount]
      exact sound.consecutive sequences account found

/-- The fee phase of a ledger whose set has passed its check on the ledger before. -/
theorem processFeesSeqNums_charges {platform : SetPlatform} {frame : TxSetFrame platform}
    {lclHash : Hash} {ledger after : ViiCore.Ledger} (closeTime : Nat) (coins : CoinsAddUp ledger)
    (sequences : SequencesValid ledger) (typed : Typed ledger.header frame.mTransactions)
    (checked : frame.checkValid lclHash ledger = .ok true after) :
    let opened := openLedger closeTime ledger
    ∃ baseFee total charged,
      frame.getBaseFee opened.header = .ok baseFee ∧
      frame.getTotalFees opened.header = .ok total ∧
      processFeesSeqNums frame.sortForApply baseFee opened = .ok () charged ∧
      charged.header = { opened.header with feePool := ledger.header.feePool + total } ∧
      ledger.header.feePool + total ≤ INT64_MAX ∧
      (∀ tx ∈ frame.mTransactions,
        getMinFee tx opened.header ≤ getFee tx opened.header baseFee ∧
        getFee tx opened.header baseFee ≤ tx.tx.fee ∧
        baseFee * max 1 (tx.tx.operations.length : Int) ≤ INT64_MAX) ∧
      (∀ early tx late, frame.sortForApply = early ++ tx :: late → ∃ mid source,
        processFeesSeqNums early baseFee opened = .ok () mid ∧
        mid.accounts.lookup (sourceOf tx) = some source ∧
        chargeFee source (getFee tx opened.header baseFee) =
          .ok (getFee tx opened.header baseFee,
            { source with balance := source.balance - getFee tx opened.header baseFee }) ∧
        processFeeSeqNum tx baseFee mid =
          .ok () (chargedLedger opened.header baseFee tx source mid)) ∧
      ∀ tx ∈ frame.mTransactions, ∃ source,
        charged.accounts.lookup (sourceOf tx) = some source ∧
        getMinBalance opened.header source.numSubEntries +
          (if opened.header.ledgerVersion ≥ 10 then (recorded source.ext).selling else 0) ≤
            source.balance := by
  intro opened
  obtain ⟨_, passed⟩ := checkValid_passed checked
  obtain ⟨baseFee, computes, above, small, totals, bids⟩ := passed.getTotalFees coins typed
  have nonneg : ∀ tx ∈ frame.mTransactions, 0 ≤ getFee tx ledger.header baseFee := by
    intro tx member
    exact (getMinFee_nonneg tx _).trans (getMinFee_le_getFee (passed.priced member).2 above)
  have collecting := collecting_of_passed closeTime passed coins sequences nonneg
  have whole : Collecting opened.header baseFee frame.queuedAccounts
      (frame.sortForApply ++ []) opened := by
    rw [List.append_nil]
    exact collecting
  obtain ⟨charged, runs, grows, remains⟩ := processFeesSeqNums_prefix whole
  have same : (frame.sortForApply.map fun tx => getFee tx opened.header baseFee).sum =
      (frame.mTransactions.map fun tx => getFee tx ledger.header baseFee).sum :=
    (frame.sortForApply_perm.map _).sum_eq
  rw [same] at grows
  rw [← getTotalFees_openLedger frame closeTime] at totals
  have paid := passed.feeBids_le coins
  have fits := coins.fits
  refine ⟨baseFee, _, charged, computes, totals, runs, ?_, by omega, ?_, ?_, ?_⟩
  · rw [remains.sameHeader, grows]
    rfl
  · intro tx member
    refine ⟨getMinFee_le_getFee (passed.priced member).2 above, getFee_le _ _, ?_⟩
    have few := typed.operations tx member
    have product : baseFee * max 1 (tx.tx.operations.length : Int) ≤ 2 ^ 32 * 100 := by
      apply Int.mul_le_mul (small tx member).le _ (by omega) (by decide)
      unfold MAX_OPS_PER_TX at few
      omega
    exact product.trans (by decide)
  · intro early tx late split
    have part : Collecting opened.header baseFee frame.queuedAccounts (early ++ tx :: late)
        opened := by
      rw [← split]
      exact collecting
    obtain ⟨mid, runsEarly, _, left⟩ := processFeesSeqNums_prefix part
    obtain ⟨source, found, charges, runs, _⟩ := processFeeSeqNum_charges left
    exact ⟨mid, source, runsEarly, found, charges, runs⟩
  · intro tx member
    obtain ⟨source, found, funded⟩ := remains.funded (sourceOf tx)
      ((frame.mem_queuedAccounts _).mpr ⟨tx, member, rfl⟩)
    have left : 0 ≤ availableBalance opened.header source := by
      simpa [ofAccount, feeBids] using funded.pays
    refine ⟨source, found, ?_⟩
    unfold availableBalance at left
    unfold recorded
    split at left <;> split <;> omega

/-- Three transactions of one account, which all pay the lowest bid. -/
def threeTransactions : TxSetFrame feePlatform :=
  ofTransactions 0 [signedTransaction 7 4, signedTransaction 8 5, signedTransaction 9 6]

theorem processFeesSeqNums_charges_three :
    threeTransactions.sortForApply =
        [signedTransaction 7 4, signedTransaction 8 5, signedTransaction 9 6] ∧
      ∃ charged mid source, processFeesSeqNums threeTransactions.sortForApply 7
          (openLedger 9 roomyLedger) = .ok () charged ∧
        charged.header.feePool = 21 ∧
        processFeesSeqNums [signedTransaction 7 4, signedTransaction 8 5] 7
          (openLedger 9 roomyLedger) = .ok () mid ∧
        mid.accounts.lookup 1 = some source ∧
        processFeeSeqNum (signedTransaction 9 6) 7 mid =
          .ok () (chargedLedger (openLedger 9 roomyLedger).header 7 (signedTransaction 9 6) source
            mid) := by
  have valid : returned (threeTransactions.checkValid 0) roomyLedger = some true := by
    decide +kernel
  obtain ⟨after, checked⟩ := returned_eq_some.mp valid
  have charges := @processFeesSeqNums_charges feePlatform threeTransactions
    0 roomyLedger after 9 roomyLedger_coins soloLedger_sequences
    ⟨by decide, by simp [threeTransactions, ofTransactions, signedTransaction],
      by simp [threeTransactions, ofTransactions, signedTransaction, MAX_OPS_PER_TX]⟩ checked
  obtain ⟨baseFee, total, charged, base, sum, runs, header, _, _, each, _⟩ := charges
  have seven : threeTransactions.getBaseFee (openLedger 9 roomyLedger).header = .ok 7 := by
    decide +kernel
  have inAll : threeTransactions.getTotalFees (openLedger 9 roomyLedger).header = .ok 21 := by
    decide +kernel
  rw [seven] at base
  rw [inAll] at sum
  cases base
  cases sum
  have order : threeTransactions.sortForApply =
      [signedTransaction 7 4, signedTransaction 8 5, signedTransaction 9 6] := by
    decide +kernel
  obtain ⟨mid, source, runsTwo, found, -, runsLast⟩ :=
    each [signedTransaction 7 4, signedTransaction 8 5] (signedTransaction 9 6) [] order
  exact ⟨order, charged, mid, source, runs, by rw [header]; rfl, runsTwo, found, runsLast⟩

end ViiCore.LedgerManager
