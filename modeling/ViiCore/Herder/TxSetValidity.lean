import ViiCore.Herder.ApplyOrder

/-!
A set that has been trimmed and filtered by surge pricing passes its own check.

The check of a transaction depends on the ledger and the sequence number before it only, so
trimming keeps from each queue a chain of valid transactions, surge pricing keeps a prefix
of that chain, and the final check walks the same chain again.
-/

namespace ViiCore.Transactions

open ViiCore.Ledger ViiCore.Execution

variable {ledger : Ledger}

abbrev Completes {α : Type} (x : Apply α) (ledger : Ledger) (post : α → Ledger → Prop) : Prop :=
  wp x post (fun _ _ => False) ledger

theorem Completes.ok {α : Type} {x : Apply α} {post : α → Ledger → Prop}
    (completes : Completes x ledger post) : ∃ value after, x ledger = .ok value after ∧ post value after := by
  unfold Completes wp at completes
  cases ran : x ledger with
  | ok value after =>
      rw [ran] at completes
      exact ⟨value, after, rfl, completes⟩
  | error fault after =>
      rw [ran] at completes
      exact completes.elim

theorem Completes.mono {α : Type} {x : Apply α} {post post' : α → Ledger → Prop}
    (completes : Completes x ledger post) (weaken : ∀ value after, post value after → post' value after) :
    Completes x ledger post' :=
  wp_mono completes weaken fun _ _ impossible => impossible

def availableBalance (header : LedgerHeader) (account : AccountEntry) : Int :=
  account.balance - getMinBalance header account.numSubEntries -
    if header.ledgerVersion ≥ 10 then (account.ext.getD ⟨0, 0⟩).selling else 0

theorem getAvailableBalanceOfAccount_eq (header : LedgerHeader) (account : AccountEntry) :
    getAvailableBalanceOfAccount header account = .ok (availableBalance header account) := by
  unfold getAvailableBalanceOfAccount getReservedBalance availableBalance
  by_cases version : header.ledgerVersion ≥ 10
  · rw [if_pos version, if_pos version]
    unfold getSellingLiabilities getLiabilities
    rw [if_neg (by omega)]
    rfl
  · rw [if_neg version, if_neg version]
    rfl

theorem Operation.checkValid_completes (env : Environment) (envelope : TransactionEnvelope)
    (op : Operation) (checker : SignatureChecker) (forApply : Bool) :
    Completes (op.checkValid env envelope checker forApply) ledger fun _ after => after = ledger := by
  have signed : Completes (op.checkSignature env envelope checker forApply) ledger
      fun _ after => after = ledger := by
    unfold checkSignature
    simp only [Completes, wp_bind, wp_load]
    split
    · rfl
    · split
      · rfl
      · split <;> rfl
  have sourced : Completes (op.checkSource env envelope checker forApply) ledger
      fun _ after => after = ledger := by
    unfold checkSource
    simp only [Completes, wp_bind, wp_loadHeader, wp_ite, wp_load]
    refine ⟨fun _ => signed, fun _ => ⟨fun _ => rfl, fun _ => rfl⟩⟩
  unfold checkValid
  simp only [Completes, wp_rolledBack, wp_bind, wp_loadHeader, wp_ite]
  refine ⟨fun _ => trivial, fun _ => ?_⟩
  apply Completes.mono sourced
  rintro ⟨checker', result⟩ _ _
  cases result <;> trivial

theorem checkOperations_completes (env : Environment) (envelope : TransactionEnvelope)
    (ops : List Operation) (checker : SignatureChecker) :
    Completes (checkOperations env envelope ops checker) ledger fun _ after => after = ledger := by
  induction ops generalizing checker with
  | nil => rfl
  | cons op rest ih =>
      unfold checkOperations
      simp only [Completes, wp_bind]
      apply Completes.mono (op.checkValid_completes env envelope checker false)
      rintro ⟨checker', result⟩ _ rfl
      cases result with
      | error code => rfl
      | ok _ => exact ih checker'

def FollowsSequence (ledger : Ledger) (envelope : TransactionEnvelope) (current : SequenceNumber) :
    Prop :=
  ∃ account, ledger.accounts.lookup envelope.tx.sourceAccount = some account ∧
    isBadSeq envelope current account.seqNum = false

def PaysMinFee (ledger : Ledger) (envelope : TransactionEnvelope) : Prop :=
  envelope.tx.operations ≠ [] ∧ getMinFee envelope ledger.header ≤ (envelope.tx.fee : Int)

theorem commonValid_completes (env : Environment) (envelope : TransactionEnvelope)
    (checker : SignatureChecker) (current : SequenceNumber) :
    Completes (commonValid env envelope checker current false) ledger fun result after =>
      after = ledger ∧ (result.2.type = .kFullyValid →
        FollowsSequence ledger envelope current ∧ PaysMinFee ledger envelope) := by
  have sourced : Completes (commonValidPreSeqNum envelope) ledger fun result after =>
      after = ledger ∧ ∀ account, result = .ok account →
        ledger.accounts.lookup envelope.tx.sourceAccount = some account ∧
          PaysMinFee ledger envelope := by
    unfold commonValidPreSeqNum
    simp only [Completes, wp_bind, wp_loadHeader, wp_ite, wp_load, accountTable_read]
    refine ⟨fun _ => ⟨rfl, by simp⟩, fun some => ⟨fun _ => ⟨rfl, by simp⟩, fun _ =>
      ⟨fun _ => ⟨rfl, by simp⟩, fun _ => ⟨fun _ => ⟨rfl, by simp⟩, fun enough => ?_⟩⟩⟩⟩
    have priced : PaysMinFee ledger envelope := ⟨by simpa using some, not_lt.mp enough⟩
    cases found : ledger.accounts.lookup envelope.tx.sourceAccount with
    | none => exact ⟨rfl, by simp⟩
    | some source => exact ⟨rfl, by simpa using priced⟩
  unfold commonValid
  simp only [Completes, wp_rolledBack, wp_bind]
  apply Completes.mono sourced
  rintro result _ ⟨rfl, found⟩
  cases result with
  | error code => exact ⟨trivial, by simp⟩
  | ok source =>
      simp only [wp_bind, wp_loadHeader, wp_ite]
      refine ⟨fun _ => ⟨trivial, by simp⟩, fun good => ⟨fun _ => ⟨trivial, by simp⟩, fun _ => ?_⟩⟩
      rw [getAvailableBalanceOfAccount_eq]
      simp only [wp_computed]
      refine ⟨fun _ => ⟨trivial, by simp⟩, fun _ => ⟨trivial, fun _ => ?_⟩⟩
      obtain ⟨stored, priced⟩ := found source rfl
      exact ⟨⟨source, stored, by simpa using good⟩, priced⟩

theorem checkValid_completes (env : Environment) (envelope : TransactionEnvelope)
    (current : SequenceNumber) :
    Completes (checkValid env envelope current) ledger fun result after =>
      after = ledger ∧ (result = true →
        FollowsSequence ledger envelope current ∧ PaysMinFee ledger envelope) := by
  unfold checkValid
  simp only [Completes, wp_rolledBack, wp_bind, wp_loadHeader]
  apply Completes.mono (commonValid_completes env envelope _ current)
  rintro ⟨checker, validation⟩ _ ⟨rfl, followed⟩
  simp only [wp_ite, wp_bind]
  refine ⟨fun _ => ⟨trivial, by simp⟩, fun valid => ?_⟩
  apply Completes.mono (checkOperations_completes env envelope _ checker)
  rintro ⟨checker', opsValid⟩ _ _
  refine ⟨fun _ => ⟨trivial, by simp⟩, fun _ => ⟨trivial, fun _ => ?_⟩⟩
  exact followed (not_not.mp valid)

def isValidAfter (env : Environment) (ledger : Ledger) (current : SequenceNumber)
    (envelope : TransactionEnvelope) : Bool :=
  match checkValid env envelope current ledger with
  | .ok valid _ => valid
  | .error _ _ => false

theorem checkValid_eq (env : Environment) (ledger : Ledger) (current : SequenceNumber)
    (envelope : TransactionEnvelope) :
    checkValid env envelope current ledger = .ok (isValidAfter env ledger current envelope) ledger := by
  have completes : Completes (checkValid env envelope current) ledger fun _ after => after = ledger := by
    apply Completes.mono (checkValid_completes env envelope current)
    intro result after both
    exact both.1
  obtain ⟨valid, after, ran, rfl⟩ := completes.ok
  unfold isValidAfter
  rw [ran]

theorem isValidAfter_admitted {env : Environment} {ledger : Ledger} {current : SequenceNumber}
    {envelope : TransactionEnvelope} (valid : isValidAfter env ledger current envelope) :
    FollowsSequence ledger envelope current ∧ PaysMinFee ledger envelope := by
  have completes : Completes (checkValid env envelope current) ledger fun result _ =>
      result = true → FollowsSequence ledger envelope current ∧ PaysMinFee ledger envelope := by
    apply Completes.mono (checkValid_completes env envelope current)
    intro result after both
    exact both.2
  rw [Completes, wp_of_ok (checkValid_eq env ledger current envelope)] at completes
  exact completes valid

theorem isValidAfter_follows {env : Environment} {ledger : Ledger} {current : SequenceNumber}
    {envelope : TransactionEnvelope} (valid : isValidAfter env ledger current envelope) :
    FollowsSequence ledger envelope current :=
  (isValidAfter_admitted valid).1

end ViiCore.Transactions

namespace ViiCore.Herder.TxSetFrame

open ViiCore.Ledger ViiCore.FiniteMap ViiCore.Sorting ViiCore.Execution ViiCore.Transactions

variable {platform : SetPlatform} {ledger : Ledger}

/-! ### Chains of valid transactions -/

section Chains

variable (env : Environment) (ledger : Ledger)

/-- The transactions of a queue that pass, each checked after the last one that did. -/
def kept : SequenceNumber → AccountTransactionQueue → AccountTransactionQueue
  | _, [] => []
  | lastSeq, tx :: rest =>
      if isValidAfter env ledger lastSeq tx then tx :: kept tx.tx.seqNum rest
      else kept lastSeq rest

def discarded : SequenceNumber → AccountTransactionQueue → AccountTransactionQueue
  | _, [] => []
  | lastSeq, tx :: rest =>
      if isValidAfter env ledger lastSeq tx then discarded tx.tx.seqNum rest
      else tx :: discarded lastSeq rest

def Chained : SequenceNumber → AccountTransactionQueue → Prop
  | _, [] => True
  | lastSeq, tx :: rest => isValidAfter env ledger lastSeq tx ∧ Chained tx.tx.seqNum rest

def feeBids (queue : AccountTransactionQueue) : Int := (queue.map fun tx => (tx.tx.fee : Int)).sum

theorem kept_chained (lastSeq : SequenceNumber) (queue : AccountTransactionQueue) :
    Chained env ledger lastSeq (kept env ledger lastSeq queue) := by
  induction queue generalizing lastSeq with
  | nil => trivial
  | cons tx rest ih =>
      unfold kept
      split
      · rename_i valid
        exact ⟨valid, ih tx.tx.seqNum⟩
      · exact ih lastSeq

theorem Chained.of_append {lastSeq : SequenceNumber} {early late : AccountTransactionQueue}
    (chained : Chained env ledger lastSeq (early ++ late)) : Chained env ledger lastSeq early := by
  induction early generalizing lastSeq with
  | nil => trivial
  | cons tx rest ih => exact ⟨chained.1, ih chained.2⟩

theorem kept_of_chained {lastSeq : SequenceNumber} {queue : AccountTransactionQueue}
    (chained : Chained env ledger lastSeq queue) : kept env ledger lastSeq queue = queue := by
  induction queue generalizing lastSeq with
  | nil => rfl
  | cons tx rest ih =>
      unfold kept
      rw [if_pos chained.1, ih chained.2]

theorem kept_sublist (lastSeq : SequenceNumber) (queue : AccountTransactionQueue) :
    (kept env ledger lastSeq queue).Sublist queue := by
  induction queue generalizing lastSeq with
  | nil => exact List.Sublist.slnil
  | cons tx rest ih =>
      unfold kept
      split
      · exact (ih _).cons_cons tx
      · exact (ih _).cons tx

theorem kept_discarded (lastSeq : SequenceNumber) (queue : AccountTransactionQueue) :
    (discarded env ledger lastSeq queue ++ kept env ledger lastSeq queue).Perm queue := by
  induction queue generalizing lastSeq with
  | nil => rfl
  | cons tx rest ih =>
      unfold kept discarded
      split
      · exact List.perm_middle.trans ((ih _).cons tx)
      · exact (ih _).cons tx

theorem Chained.consecutive {id : AccountID} {account : AccountEntry}
    (found : ledger.accounts.lookup id = some account) {lastSeq : SequenceNumber}
    {queue : AccountTransactionQueue} (chained : Chained env ledger lastSeq queue)
    (own : ∀ tx ∈ queue, sourceOf tx = id) (start : Int)
    (starts : start = if lastSeq = 0 then account.seqNum else lastSeq) (nonneg : 0 ≤ start) :
    queue.map (fun tx => tx.tx.seqNum) =
      (List.range queue.length).map fun (index : Nat) => start + 1 + (index : Int) := by
  induction queue generalizing lastSeq start with
  | nil => rfl
  | cons tx rest ih =>
      obtain ⟨source, sourceFound, good⟩ := isValidAfter_follows chained.1
      have owner : tx.tx.sourceAccount = id := own tx List.mem_cons_self
      rw [owner, found] at sourceFound
      cases sourceFound
      have next : start + 1 = tx.tx.seqNum := by
        simp only [isBadSeq, decide_eq_false_iff_not, not_or, not_not, ← starts] at good
        exact good.2
      have positive : (0 : Int) < tx.tx.seqNum := by omega
      have later := ih chained.2 (fun other member => own other (List.mem_cons_of_mem tx member))
        tx.tx.seqNum (by rw [if_neg positive.ne']) (by omega)
      rw [List.map_cons, later, List.length_cons, List.range_succ_eq_map, List.map_cons, List.map_map]
      congr 1
      · rw [← next]
        simp
      · apply List.map_congr_left
        intro index _
        simp only [Function.comp_apply]
        omega

end Chains

/-! ### Walking a queue -/

section Walk

variable {σ : Type} {env : Environment} {handlers : Handlers σ}

def QueueCheck.after (check : QueueCheck) (chain : AccountTransactionQueue) : QueueCheck :=
  chain.foldl (fun check tx =>
    { lastTx := some tx, lastSeq := tx.tx.seqNum, totFee := check.totFee + tx.tx.fee }) check

theorem QueueCheck.after_totFee (check : QueueCheck) (chain : AccountTransactionQueue) :
    (check.after chain).totFee = check.totFee + feeBids chain := by
  induction chain generalizing check with
  | nil => simp [QueueCheck.after, feeBids]
  | cons tx rest ih =>
      unfold QueueCheck.after at ih ⊢
      rw [List.foldl_cons, ih]
      simp only [feeBids, List.map_cons, List.sum_cons]
      omega

theorem QueueCheck.after_lastTx (check : QueueCheck) (chain : AccountTransactionQueue) :
    (check.after chain).lastTx = chain.getLast?.or check.lastTx := by
  induction chain generalizing check with
  | nil => rfl
  | cons tx rest ih =>
      unfold QueueCheck.after at ih ⊢
      rw [List.foldl_cons, ih]
      cases rest with
      | nil => rfl
      | cons next more => simp [List.getLast?_cons]

/-- Where every transaction that does not pass is handled, the walk goes on to the end. -/
theorem checkQueue_eq (step : σ → TransactionEnvelope → σ) (queue : AccountTransactionQueue)
    (check : QueueCheck) (state : σ)
    (handled : ∀ state, ∀ tx ∈ discarded env ledger check.lastSeq queue,
      handlers.processInvalidTx state tx = some (step state tx)) :
    checkQueue env handlers queue check state ledger =
      .ok (some (check.after (kept env ledger check.lastSeq queue),
        (discarded env ledger check.lastSeq queue).foldl step state)) ledger := by
  induction queue generalizing check state with
  | nil => rfl
  | cons tx rest ih =>
      unfold checkQueue
      simp only [bind, EStateM.bind, checkValid_eq]
      by_cases valid : isValidAfter env ledger check.lastSeq tx
      · simp only [kept, discarded, valid, if_true] at handled ⊢
        exact ih _ _ handled
      · simp only [kept, discarded, valid] at handled ⊢
        rw [handled state tx List.mem_cons_self]
        exact ih check _ fun state other member => handled state other (List.mem_cons_of_mem tx member)

def canPay (ledger : Ledger) (id : AccountID) (chain : AccountTransactionQueue) : Bool :=
  chain = [] ∨ (ledger.accounts.lookup id).any fun account =>
    feeBids chain ≤ availableBalance ledger.header account

theorem checkAccount_eq (step : σ → TransactionEnvelope → σ) {id : AccountID}
    {queue : AccountTransactionQueue} (own : ∀ tx ∈ queue, sourceOf tx = id) (state : σ)
    (handled : ∀ state, ∀ tx ∈ discarded env ledger 0 queue,
      handlers.processInvalidTx state tx = some (step state tx)) :
    checkAccount env handlers queue state ledger =
      .ok (if canPay ledger id (kept env ledger 0 queue) then
          some ((discarded env ledger 0 queue).foldl step state)
        else handlers.processInsufficientBalance
          ((discarded env ledger 0 queue).foldl step state) queue) ledger := by
  have walked := checkQueue_eq step queue { lastTx := none, lastSeq := 0, totFee := 0 } state handled
  unfold checkAccount
  rw [bind_of_ok walked]
  simp only [QueueCheck.after_lastTx, QueueCheck.after_totFee, Option.or_none]
  have chained := kept_chained env ledger 0 queue
  have within := (kept_sublist env ledger 0 queue).subset
  generalize kept env ledger 0 queue = chain at chained within
  cases last : chain.getLast? with
  | none =>
      rw [List.getLast?_eq_none_iff.mp last]
      rfl
  | some lastTx =>
      have member : lastTx ∈ chain := List.mem_of_getLast? last
      have nonempty : chain ≠ [] := List.ne_nil_of_mem member
      have owner : lastTx.tx.sourceAccount = id := own lastTx (within member)
      obtain ⟨account, found⟩ : ∃ account, ledger.accounts.lookup id = some account := by
        cases chain with
        | nil => exact absurd rfl nonempty
        | cons first rest =>
            obtain ⟨account, found, _⟩ := isValidAfter_follows chained.1
            have firstOwner : first.tx.sourceAccount = id := own first (within List.mem_cons_self)
            rw [firstOwner] at found
            exact ⟨account, found⟩
      have paid : canPay ledger id chain =
          decide (feeBids chain ≤ availableBalance ledger.header account) := by
        simp [canPay, nonempty, found]
      have current : accountTable.current lastTx.tx.sourceAccount ledger = .ok account ledger := by
        rw [owner]
        exact current_ok found
      have header : loadHeader ledger = .ok ledger.header ledger := rfl
      have available : computed (getAvailableBalanceOfAccount ledger.header account) ledger =
          .ok (availableBalance ledger.header account) ledger := by
        rw [getAvailableBalanceOfAccount_eq]
        rfl
      simp only [paid, zero_add]
      rw [bind_of_ok header, bind_of_ok current, bind_of_ok available]
      by_cases enough : feeBids chain ≤ availableBalance ledger.header account
      · rw [if_neg (by omega), if_pos (by simpa using enough)]
        rfl
      · rw [if_pos (by omega), if_neg (by simpa using enough)]
        rfl

end Walk

/-! ### Trimming -/

theorem ofAccount_diff (id : AccountID) (txs removed : List TransactionEnvelope) :
    ofAccount id (txs.diff removed) = (ofAccount id txs).diff removed := by
  induction removed generalizing txs with
  | nil => simp
  | cons tx rest ih =>
      rw [List.diff_cons, ih, List.diff_cons]
      unfold ofAccount
      rw [List.erase_filter]

theorem diff_foreign {txs removed : List TransactionEnvelope}
    (foreign : ∀ tx ∈ removed, tx ∉ txs) : txs.diff removed = txs := by
  induction removed generalizing txs with
  | nil => simp
  | cons tx rest ih =>
      rw [List.diff_cons, List.erase_of_not_mem (foreign tx List.mem_cons_self)]
      exact ih fun other member => foreign other (List.mem_cons_of_mem tx member)

theorem foldl_trimTx (queue : AccountTransactionQueue) (state : Trimming platform) :
    (queue.foldl trimTx state).1.mTransactions = state.1.mTransactions.diff queue ∧
    (queue.foldl trimTx state).1.mPreviousLedgerHash = state.1.mPreviousLedgerHash := by
  induction queue generalizing state with
  | nil => exact ⟨(List.diff_nil _).symm, rfl⟩
  | cons tx rest ih =>
      rw [List.foldl_cons, List.diff_cons]
      exact ih (trimTx state tx)

def survivors (env : Environment) (ledger : Ledger) (id : AccountID)
    (queue : AccountTransactionQueue) : AccountTransactionQueue :=
  if canPay ledger id (kept env ledger 0 queue) then kept env ledger 0 queue else []

/-- The effect of trimming on a set: accounts outside `ids` keep their transactions. -/
structure Trimmed (ids : List AccountID) (before after : TxSetFrame platform) : Prop where
  previous : after.mPreviousLedgerHash = before.mPreviousLedgerHash
  sublist : after.mTransactions.Sublist before.mTransactions
  others : ∀ id, id ∉ ids → ofAccount id after.mTransactions = ofAccount id before.mTransactions

theorem append_diff_left (removed txs : List TransactionEnvelope) :
    (removed ++ txs).diff removed = txs := by
  induction removed with
  | nil => rfl
  | cons tx rest ih => rw [List.cons_append, List.diff_cons, List.erase_cons_head, ih]

theorem diff_all (queue discarded : List TransactionEnvelope) :
    queue.diff (discarded ++ queue) = [] := by
  have swapped : (queue.diff (discarded ++ queue)) = queue.diff (queue ++ discarded) :=
    List.Perm.diff_left queue List.perm_append_comm
  have own := append_diff_left queue []
  rw [List.append_nil] at own
  rw [swapped, List.diff_append, own, List.nil_diff]

theorem Trimmed.ofRemoved {id : AccountID} {before after : TxSetFrame platform}
    {removed : List TransactionEnvelope} (own : ∀ tx ∈ removed, sourceOf tx = id)
    (previous : after.mPreviousLedgerHash = before.mPreviousLedgerHash)
    (txs : after.mTransactions = before.mTransactions.diff removed) : Trimmed [id] before after where
  previous := previous
  sublist := by
    rw [txs]
    exact List.diff_sublist _ _
  others other different := by
    rw [txs, ofAccount_diff]
    apply diff_foreign
    intro tx member kept
    apply different
    rw [List.mem_singleton, ← own tx member]
    exact (of_decide_eq_true (List.mem_filter.mp kept).2).symm

theorem trimAccount (env : Environment) (id : AccountID) (queue : AccountTransactionQueue)
    (own : ∀ tx ∈ queue, sourceOf tx = id) (state : Trimming platform)
    (queued : (ofAccount id state.1.mTransactions).Perm queue) :
    ∃ state' : Trimming platform,
      checkAccount env trimHandlers queue state ledger = .ok (some state') ledger ∧
      Trimmed [id] state.1 state'.1 ∧
      (ofAccount id state'.1.mTransactions).Perm (survivors env ledger id queue) := by
  have handled : ∀ state : Trimming platform, ∀ tx ∈ discarded env ledger 0 queue,
      trimHandlers.processInvalidTx state tx = some (trimTx state tx) := fun _ _ _ => rfl
  have parts := kept_discarded env ledger 0 queue
  have ownDiscarded : ∀ tx ∈ discarded env ledger 0 queue, sourceOf tx = id := by
    intro tx member
    exact own tx (parts.mem_iff.mp (List.mem_append_left _ member))
  have trimmed := foldl_trimTx (discarded env ledger 0 queue) state
  rw [checkAccount_eq trimTx own state handled]
  unfold survivors
  by_cases pays : canPay ledger id (kept env ledger 0 queue)
  · rw [if_pos pays, if_pos pays]
    refine ⟨_, rfl, Trimmed.ofRemoved ownDiscarded trimmed.2 trimmed.1, ?_⟩
    rw [trimmed.1, ofAccount_diff]
    have left := (queued.trans parts.symm).diff_right (discarded env ledger 0 queue)
    rw [append_diff_left] at left
    exact left
  · rw [if_neg pays, if_neg pays]
    have all := foldl_trimTx queue ((discarded env ledger 0 queue).foldl trimTx state)
    rw [trimmed.1, ← List.diff_append] at all
    have ownAll : ∀ tx ∈ discarded env ledger 0 queue ++ queue, sourceOf tx = id := by
      intro tx member
      rcases List.mem_append.mp member with early | late
      · exact ownDiscarded tx early
      · exact own tx late
    refine ⟨_, rfl, Trimmed.ofRemoved ownAll (all.2.trans trimmed.2) all.1, ?_⟩
    rw [all.1, ofAccount_diff]
    have left := queued.diff_right (discarded env ledger 0 queue ++ queue)
    rw [diff_all] at left
    exact left

theorem Trimmed.trans {ids later : List AccountID} {first second third : TxSetFrame platform}
    (early : Trimmed ids first second) (late : Trimmed later second third) :
    Trimmed (ids ++ later) first third where
  previous := late.previous.trans early.previous
  sublist := late.sublist.trans early.sublist
  others id outside := by
    rw [List.mem_append, not_or] at outside
    rw [late.others id outside.2, early.others id outside.1]

theorem trimAccounts (env : Environment) (ledger : Ledger) (queues : Queues) (owned : Queues.Owned queues)
    (state : Trimming platform)
    (queued : ∀ queue ∈ queues, (ofAccount queue.1 state.1.mTransactions).Perm queue.2) :
    ∃ state' : Trimming platform,
      checkAccounts env trimHandlers queues state ledger = .ok (some state') ledger ∧
      Trimmed (queues.map Prod.fst) state.1 state'.1 ∧
      ∀ queue ∈ queues,
        (ofAccount queue.1 state'.1.mTransactions).Perm (survivors env ledger queue.1 queue.2) := by
  induction queues generalizing state with
  | nil =>
      refine ⟨state, rfl, ⟨rfl, List.Sublist.refl _, fun _ _ => rfl⟩, ?_⟩
      intro queue impossible
      cases impossible
  | cons queue rest ih =>
      have fresh := (List.nodup_cons.mp owned.ids).1
      obtain ⟨middle, ran, early, left⟩ := trimAccount env queue.1 queue.2
        (owned.sources queue List.mem_cons_self) state (queued queue List.mem_cons_self)
      have stillQueued : ∀ other ∈ rest,
          (ofAccount other.1 middle.1.mTransactions).Perm other.2 := by
        intro other member
        have different : other.1 ∉ [queue.1] := by
          rw [List.mem_singleton]
          intro same
          exact fresh (same ▸ List.mem_map_of_mem member)
        rw [early.others other.1 different]
        exact queued other (List.mem_cons_of_mem queue member)
      obtain ⟨state', ranRest, late, leftRest⟩ := ih owned.tail middle stillQueued
      refine ⟨state', ?_, early.trans late, ?_⟩
      · rw [checkAccounts, bind_of_ok ran]
        exact ranRest
      · intro other member
        rcases List.mem_cons.mp member with rfl | later
        · rw [late.others other.1 fresh]
          exact left
        · exact leftRest other later

/-- The transactions of an account as a valid set has them: a chain that can be paid for. -/
structure Sound (env : Environment) (ledger : Ledger) (id : AccountID)
    (chain : AccountTransactionQueue) : Prop where
  own : ∀ tx ∈ chain, sourceOf tx = id
  chained : Chained env ledger 0 chain
  pays : canPay ledger id chain

def SequencesValid (ledger : Ledger) : Prop :=
  ∀ id account, ledger.accounts.lookup id = some account → 0 ≤ account.seqNum

theorem Sound.nil (env : Environment) (id : AccountID) : Sound env ledger id [] where
  own _ impossible := by cases impossible
  chained := trivial
  pays := by simp [canPay]

theorem survivors_sound (env : Environment) {id : AccountID} {queue : AccountTransactionQueue}
    (own : ∀ tx ∈ queue, sourceOf tx = id) :
    Sound env ledger id (survivors env ledger id queue) := by
  unfold survivors
  split
  · rename_i pays
    constructor
    · intro tx member
      exact own tx ((kept_sublist env ledger 0 queue).subset member)
    · exact kept_chained env ledger 0 queue
    · exact pays
  · exact Sound.nil env id

theorem feeBids_append (early late : AccountTransactionQueue) :
    feeBids (early ++ late) = feeBids early + feeBids late := by
  simp [feeBids]

theorem feeBids_nonneg (queue : AccountTransactionQueue) : 0 ≤ feeBids queue := by
  apply List.sum_nonneg
  intro fee member
  obtain ⟨tx, _, rfl⟩ := List.mem_map.mp member
  exact Int.natCast_nonneg _

theorem Sound.of_append {env : Environment} {id : AccountID} {early late : AccountTransactionQueue}
    (sound : Sound env ledger id (early ++ late)) : Sound env ledger id early where
  own tx member := sound.own tx (List.mem_append_left late member)
  chained := Chained.of_append env ledger sound.chained
  pays := by
    have pays := sound.pays
    by_cases empty : early = []
    · simp [canPay, empty]
    · have nonempty : early ++ late ≠ [] := by simp [empty]
      simp only [canPay, nonempty, empty, false_or, decide_eq_true_eq] at pays ⊢
      cases found : ledger.accounts.lookup id with
      | none =>
          rw [found] at pays
          cases pays
      | some account =>
          rw [found] at pays
          have lateFees := feeBids_nonneg late
          simp only [Option.any_some, decide_eq_true_eq, feeBids_append] at pays ⊢
          omega

theorem Sound.consecutive {env : Environment} {id : AccountID} {chain : AccountTransactionQueue}
    (sound : Sound env ledger id chain) (valid : SequencesValid ledger) :
    ∀ account, ledger.accounts.lookup id = some account →
      chain.map (fun tx => tx.tx.seqNum) =
        (List.range chain.length).map fun (index : Nat) => account.seqNum + 1 + (index : Int) := by
  intro account found
  exact Chained.consecutive env ledger found sound.chained sound.own account.seqNum (by simp)
    (valid id account found)

theorem Sound.exists {env : Environment} {id : AccountID} {chain : AccountTransactionQueue}
    (sound : Sound env ledger id chain) (nonempty : chain ≠ []) :
    ∃ account, ledger.accounts.lookup id = some account := by
  cases chain with
  | nil => exact absurd rfl nonempty
  | cons tx rest =>
      obtain ⟨account, found, _⟩ := isValidAfter_follows sound.chained.1
      have owner : tx.tx.sourceAccount = id := sound.own tx List.mem_cons_self
      rw [owner] at found
      exact ⟨account, found⟩

theorem Sound.increasing {env : Environment} {id : AccountID} {chain : AccountTransactionQueue}
    (sound : Sound env ledger id chain) (valid : SequencesValid ledger) :
    chain.Pairwise fun left right => left.tx.seqNum < right.tx.seqNum := by
  by_cases empty : chain = []
  · rw [empty]
    exact List.Pairwise.nil
  · obtain ⟨account, found⟩ := sound.exists empty
    have numbers := sound.consecutive valid account found
    have ascending : (chain.map fun tx => tx.tx.seqNum).Pairwise (· < ·) := by
      rw [numbers, List.pairwise_map]
      apply List.pairwise_lt_range.imp
      intro left right before
      have step : (left : Int) < (right : Int) := by omega
      exact Int.add_lt_add_left step _
    exact List.pairwise_map.mp ascending

theorem Sound.queueOf {env : Environment} {id : AccountID} {chain : AccountTransactionQueue}
    (sound : Sound env ledger id chain) (valid : SequencesValid ledger)
    {txs : List TransactionEnvelope} (same : (ofAccount id txs).Perm chain) :
    queueOf platform txs id = chain := by
  have increasing := sound.increasing valid
  symm
  apply eq_of_sorted (fun tx => tx.tx.seqNum) (same.symm.trans (queueOf_perm txs id).symm)
  · have numbers : (chain.map fun tx => tx.tx.seqNum).Nodup := by
      apply List.pairwise_map.mpr
      exact increasing.imp fun before => before.ne
    exact List.inj_on_of_nodup_map numbers
  · exact increasing.imp fun before => before.le
  · exact queueOf_sorted txs id

theorem trimInvalid_spec (frame : TxSetFrame platform) (ledger : Ledger) :
    ∃ (trimmed : TxSetFrame platform) (removed : List TransactionEnvelope),
      frame.trimInvalid ledger = .ok (trimmed, removed) ledger ∧
      trimmed.mPreviousLedgerHash = frame.mPreviousLedgerHash ∧
      inHashOrder platform 0 trimmed.mTransactions ∧
      ∀ id, ∃ chain, Sound platform.env ledger id chain ∧
        (ofAccount id trimmed.mTransactions).Perm chain := by
  have ordered : inHashOrder platform 0 frame.sortForHash.mTransactions :=
    sort_inHashOrder platform frame.mTransactions
  have owned := frame.sortForHash.buildAccountTxQueues_owned
  have queued : ∀ queue ∈ frame.sortForHash.buildAccountTxQueues,
      (ofAccount queue.1 frame.sortForHash.mTransactions).Perm queue.2 := by
    intro queue member
    rw [buildAccountTxQueues_eq] at member
    obtain ⟨id, _, rfl⟩ := List.mem_map.mp member
    exact (queueOf_perm _ id).symm
  obtain ⟨state, ran, trimmed, left⟩ := trimAccounts platform.env ledger _ owned
    (frame.sortForHash, []) queued
  refine ⟨state.1, state.2, ?_, trimmed.previous, ?_, ?_⟩
  · unfold trimInvalid
    have checked : frame.sortForHash.checkOrTrim trimHandlers (frame.sortForHash, []) ledger =
        .ok (some state) ledger := by
      unfold checkOrTrim
      rw [if_pos ordered]
      exact ran
    rw [bind_of_ok checked]
    rfl
  · rw [inHashOrder_zero] at ordered ⊢
    exact ordered.sublist trimmed.sublist
  · intro id
    by_cases known : id ∈ frame.sortForHash.queuedAccounts
    · have listed : (id, queueOf platform frame.sortForHash.mTransactions id) ∈
          frame.sortForHash.buildAccountTxQueues := by
        rw [buildAccountTxQueues_eq]
        exact List.mem_map.mpr ⟨id, known, rfl⟩
      exact ⟨_, survivors_sound platform.env (owned.sources _ listed), left _ listed⟩
    · refine ⟨[], Sound.nil platform.env id, ?_⟩
      have outside : id ∉ frame.sortForHash.buildAccountTxQueues.map Prod.fst := by
        rw [buildAccountTxQueues_eq, List.map_map]
        simpa [Function.comp_def] using known
      rw [trimmed.others id outside, ofAccount_foreign]
      intro tx member same
      exact known ((frame.sortForHash.mem_queuedAccounts id).mpr ⟨tx, member, same⟩)

/-! ### Surge pricing -/

/-- Every queue has transactions of one account, and no two queues of the same one. -/
structure Separated (queues : List AccountTransactionQueue) : Prop where
  apart : queues.Pairwise fun left right => ∀ tx ∈ left, ∀ other ∈ right, sourceOf tx ≠ sourceOf other
  together : ∀ queue ∈ queues, ∀ tx ∈ queue, ∀ other ∈ queue, sourceOf tx = sourceOf other

theorem Queues.Owned.separated {queues : Queues} (owned : Queues.Owned queues) :
    Separated (queues.map Prod.snd) where
  apart := by
    rw [List.pairwise_map]
    have distinct : queues.Pairwise fun left right => left.1 ≠ right.1 := List.pairwise_map.mp owned.ids
    apply List.Pairwise.imp_of_mem _ distinct
    intro left right inLeft inRight different tx queued other otherQueued same
    apply different
    rw [← owned.sources left inLeft tx queued, ← owned.sources right inRight other otherQueued]
    exact same
  together queue member tx queued other otherQueued := by
    obtain ⟨named, listed, rfl⟩ := List.mem_map.mp member
    rw [owned.sources named listed tx queued, owned.sources named listed other otherQueued]

theorem Separated.perm {queues other : List AccountTransactionQueue} (separated : Separated queues)
    (same : queues.Perm other) : Separated other where
  apart := by
    apply (same.pairwise_iff _).mp separated.apart
    intro left right different tx queued other otherQueued equal
    exact different other otherQueued tx queued equal.symm
  together queue member := separated.together queue (same.mem_iff.mpr member)

theorem Separated.tail {queue : AccountTransactionQueue} {rest : List AccountTransactionQueue}
    (separated : Separated (queue :: rest)) : Separated rest where
  apart := (List.pairwise_cons.mp separated.apart).2
  together other member := separated.together other (List.mem_cons_of_mem queue member)

theorem Separated.split {queue : AccountTransactionQueue} {rest : List AccountTransactionQueue}
    (separated : Separated (queue :: rest)) (id : AccountID) :
    ofAccount id queue = [] ∨ ofAccount id rest.flatten = [] := by
  by_cases present : ∃ tx ∈ queue, sourceOf tx = id
  · obtain ⟨tx, queued, own⟩ := present
    right
    apply ofAccount_foreign
    intro other member same
    obtain ⟨later, inRest, otherQueued⟩ := List.mem_flatten.mp member
    have different := (List.pairwise_cons.mp separated.apart).1 later inRest tx queued other otherQueued
    exact different (own.trans same.symm)
  · left
    apply ofAccount_foreign
    intro tx queued own
    exact present ⟨tx, queued, own⟩

theorem Separated.flatten_perm {queues other : List AccountTransactionQueue}
    (same : queues.Perm other) (separated : Separated queues) (id : AccountID) :
    ofAccount id queues.flatten = ofAccount id other.flatten := by
  induction same with
  | nil => rfl
  | cons queue _ ih => simp only [List.flatten_cons, ofAccount_append, ih separated.tail]
  | swap left right rest =>
      simp only [List.flatten_cons, ofAccount_append]
      have parts := separated.split id
      rw [List.flatten_cons, ofAccount_append, List.append_eq_nil_iff] at parts
      rcases parts with none | ⟨none, _⟩ <;> simp [none]
  | trans first _ ihFirst ihSecond => rw [ihFirst separated, ihSecond (separated.perm first)]

theorem pushBack_flatten (queue : AccountTransactionQueue) (queues : List AccountTransactionQueue) :
    (pushBack queue queues).flatten = queue ++ queues.flatten := by
  cases queue <;> rfl

theorem Separated.pushBack {tx : TransactionEnvelope} {later : AccountTransactionQueue}
    {rest : List AccountTransactionQueue} (separated : Separated ((tx :: later) :: rest)) :
    Separated (pushBack later rest) := by
  cases later with
  | nil => exact separated.tail
  | cons next more =>
      constructor
      · apply List.pairwise_cons.mpr
        have parts := List.pairwise_cons.mp separated.apart
        refine ⟨?_, parts.2⟩
        intro queue member other queued
        exact parts.1 queue member other (List.mem_cons_of_mem tx queued)
      · intro queue member first queued second secondQueued
        rcases List.mem_cons.mp member with rfl | inRest
        · exact separated.together _ List.mem_cons_self first (List.mem_cons_of_mem tx queued) second
            (List.mem_cons_of_mem tx secondQueued)
        · exact separated.together queue (List.mem_cons_of_mem _ inRest) first queued second secondQueued

theorem surgeLoop_spec (less : AccountTransactionQueue → AccountTransactionQueue → Bool)
    (opsCount : TransactionEnvelope → Nat) (opsLeft : Nat)
    (queues : List AccountTransactionQueue) (updatedSet : List TransactionEnvelope)
    (separated : Separated queues) :
    (∀ id, ∃ lost, ofAccount id (surgeLoop less opsCount opsLeft queues updatedSet) ++ lost =
      ofAccount id updatedSet ++ ofAccount id queues.flatten) ∧
    ((surgeLoop less opsCount opsLeft queues updatedSet).map opsCount).sum ≤
      (updatedSet.map opsCount).sum + opsLeft := by
  fun_induction surgeLoop less opsCount opsLeft queues updatedSet with
  | case1 queues updatedSet => exact ⟨fun id => ⟨_, rfl⟩, Nat.le_add_right _ _⟩
  | case2 opsLeft queues updatedSet => exact ⟨fun id => ⟨_, rfl⟩, Nat.le_add_right _ _⟩
  | case3 opsLeft queues updatedSet some rest popped ih =>
      have permuted := popTop_perm popped
      have split := separated.perm permuted.symm
      refine ⟨fun id => ?_, (ih split.tail).2⟩
      obtain ⟨lost, same⟩ := (ih split.tail).1 id
      refine ⟨lost, same.trans ?_⟩
      rw [Separated.flatten_perm permuted.symm separated id]
      rfl
  | case4 opsLeft queues updatedSet some curTopTx later rest popped fits ih =>
      have permuted := popTop_perm popped
      have split := separated.perm permuted.symm
      have taken := ih split.pushBack
      constructor
      · intro id
        obtain ⟨lost, same⟩ := taken.1 id
        refine ⟨lost, same.trans ?_⟩
        rw [Separated.flatten_perm permuted.symm separated id, pushBack_flatten, ofAccount_append,
          List.append_assoc, ← ofAccount_append]
        rfl
      · have counted := taken.2
        simp only [List.map_append, List.map_cons, List.map_nil, List.sum_append, List.sum_cons,
          List.sum_nil] at counted
        omega
  | case5 opsLeft queues updatedSet some curTopTx later rest popped fits ih =>
      have permuted := popTop_perm popped
      have split := separated.perm permuted.symm
      refine ⟨fun id => ?_, (ih split.tail).2⟩
      obtain ⟨lost, same⟩ := (ih split.tail).1 id
      rw [Separated.flatten_perm permuted.symm separated id, List.flatten_cons, ofAccount_append]
      rcases split.split id with none | none
      · exact ⟨lost, by rw [same, none, List.nil_append]⟩
      · rw [none, List.append_nil] at same
        exact ⟨lost ++ ofAccount id (curTopTx :: later), by
          rw [← List.append_assoc, same, none, List.append_nil]⟩

def AllSound (env : Environment) (ledger : Ledger) (txs : List TransactionEnvelope) : Prop :=
  ∀ id, ∃ chain, Sound env ledger id chain ∧ (ofAccount id txs).Perm chain

theorem AllSound.queueOf {txs : List TransactionEnvelope} (sound : AllSound platform.env ledger txs)
    (valid : SequencesValid ledger) (id : AccountID) :
    Sound platform.env ledger id (queueOf platform txs id) := by
  obtain ⟨chain, soundChain, same⟩ := sound id
  rw [soundChain.queueOf valid same]
  exact soundChain

theorem sum_opsCount (maxIsOps : Bool) (txs : List TransactionEnvelope) :
    (txs.map fun tx => if maxIsOps then tx.tx.operations.length else MAX_OPS_PER_TX).sum =
      if maxIsOps then (txs.map fun tx => tx.tx.operations.length).sum
      else txs.length * MAX_OPS_PER_TX := by
  cases maxIsOps <;> simp

theorem size_le (frame : TxSetFrame platform) (header : LedgerHeader) (maxIsOps : Bool)
    (unit : maxIsOps = decide (header.ledgerVersion ≥ 11))
    (within : (if maxIsOps then frame.sizeOp else frame.sizeTx * MAX_OPS_PER_TX) ≤
      if maxIsOps then header.maxTxSetSize else header.maxTxSetSize * MAX_OPS_PER_TX) :
    frame.size header ≤ header.maxTxSetSize := by
  unfold size
  subst unit
  split
  · rename_i version
    simpa [version] using within
  · rename_i version
    simp only [version, decide_false, Bool.false_eq_true, if_false, MAX_OPS_PER_TX] at within
    omega

theorem surgePricingFilter_spec (frame : TxSetFrame platform) (seed : Hash)
    (valid : SequencesValid ledger) (ordered : inHashOrder platform 0 frame.mTransactions)
    (sound : AllSound platform.env ledger frame.mTransactions) :
    ∃ filtered : TxSetFrame platform,
      frame.surgePricingFilter seed ledger = .ok filtered ledger ∧
      filtered.mPreviousLedgerHash = frame.mPreviousLedgerHash ∧
      inHashOrder platform 0 filtered.mTransactions ∧
      AllSound platform.env ledger filtered.mTransactions ∧
      filtered.size ledger.header ≤ ledger.header.maxTxSetSize := by
  let maxIsOps : Bool := ledger.header.ledgerVersion ≥ 11
  let opsLeft := if maxIsOps then ledger.header.maxTxSetSize
    else ledger.header.maxTxSetSize * MAX_OPS_PER_TX
  let curSizeOps := if maxIsOps then frame.sizeOp else frame.sizeTx * MAX_OPS_PER_TX
  let opsCount (tx : TransactionEnvelope) : Nat :=
    if maxIsOps then tx.tx.operations.length else MAX_OPS_PER_TX
  let updatedSet := surgeLoop (surgeCompare platform seed ledger.header) opsCount opsLeft
    (frame.buildAccountTxQueues.map Prod.snd) []
  have filters : frame.surgePricingFilter seed ledger =
      (if curSizeOps > opsLeft then
        return (ofTransactions frame.mPreviousLedgerHash updatedSet).sortForHash
      else return frame : Apply (TxSetFrame platform)) ledger := rfl
  rw [filters]
  by_cases surges : curSizeOps > opsLeft
  · rw [if_pos surges]
    have spec := surgeLoop_spec (surgeCompare platform seed ledger.header) opsCount opsLeft
      (frame.buildAccountTxQueues.map Prod.snd) [] frame.buildAccountTxQueues_owned.separated
    have sorted : (platform.sorter.sort (HashTxSorter platform) updatedSet).Perm updatedSet :=
      platform.sorter.perm _ _
    refine ⟨_, rfl, rfl, sort_inHashOrder platform updatedSet, ?_, ?_⟩
    · intro id
      obtain ⟨lost, same⟩ := spec.1 id
      have queue : ofAccount id (frame.buildAccountTxQueues.map Prod.snd).flatten =
          queueOf platform frame.mTransactions id := frame.queues_ofAccount id
      have whole := sound.queueOf valid id
      change _ = [] ++ _ at same
      rw [← queue, ← List.nil_append (ofAccount id _), ← same] at whole
      exact ⟨_, whole.of_append, sorted.filter _⟩
    · apply size_le _ _ maxIsOps rfl
      have counted := spec.2
      rw [← (sorted.map opsCount).sum_eq, sum_opsCount] at counted
      exact counted.trans_eq (Nat.zero_add _)
  · rw [if_neg surges]
    exact ⟨frame, rfl, rfl, ordered, sound, size_le frame _ maxIsOps rfl (not_lt.mp surges)⟩

/-! ### The final check -/

theorem discarded_of_chained (env : Environment) (ledger : Ledger) {lastSeq : SequenceNumber}
    {queue : AccountTransactionQueue} (chained : Chained env ledger lastSeq queue) :
    discarded env ledger lastSeq queue = [] := by
  induction queue generalizing lastSeq with
  | nil => rfl
  | cons tx rest ih =>
      unfold discarded
      rw [if_pos chained.1, ih chained.2]

theorem checkAccounts_sound {σ : Type} (env : Environment) (handlers : Handlers σ)
    (queues : Queues) (state : σ) (sound : ∀ queue ∈ queues, Sound env ledger queue.1 queue.2) :
    checkAccounts env handlers queues state ledger = .ok (some state) ledger := by
  induction queues with
  | nil => rfl
  | cons queue rest ih =>
      have chain := sound queue List.mem_cons_self
      have nothing := discarded_of_chained env ledger chain.chained
      have passed : checkAccount env handlers queue.2 state ledger = .ok (some state) ledger := by
        rw [checkAccount_eq (fun state _ => state) chain.own state]
        · rw [kept_of_chained env ledger chain.chained, if_pos chain.pays, nothing]
          rfl
        · intro state tx impossible
          rw [nothing] at impossible
          cases impossible
      rw [checkAccounts, bind_of_ok passed]
      exact ih fun other member => sound other (List.mem_cons_of_mem queue member)

theorem checkValid_sound (frame : TxSetFrame platform) (valid : SequencesValid ledger)
    (ordered : inHashOrder platform 0 frame.mTransactions)
    (sound : AllSound platform.env ledger frame.mTransactions)
    (size : frame.size ledger.header ≤ ledger.header.maxTxSetSize) :
    frame.checkValid frame.mPreviousLedgerHash ledger = .ok true ledger := by
  have checked : frame.checkOrTrim checkHandlers () ledger = .ok (some ()) ledger := by
    unfold checkOrTrim
    rw [if_pos ordered]
    apply checkAccounts_sound
    intro queue member
    rw [buildAccountTxQueues_eq] at member
    obtain ⟨id, _, rfl⟩ := List.mem_map.mp member
    exact sound.queueOf valid id
  have header : loadHeader ledger = .ok ledger.header ledger := rfl
  unfold checkValid
  rw [bind_of_ok header, if_neg (by simp), if_neg (by omega), bind_of_ok checked]
  rfl

/-- What `checkValid` demands of a set, account by account. -/
structure Valid (ledger : Ledger) (frame : TxSetFrame platform) : Prop where
  ordered : frame.mTransactions.Pairwise fun left right =>
    (platform.getFullHash left).toNat ≤ (platform.getFullHash right).toNat
  sources : ∀ tx ∈ frame.mTransactions, ∃ account,
    ledger.accounts.lookup (sourceOf tx) = some account
  consecutive : ∀ id account, ledger.accounts.lookup id = some account →
    (queueOf platform frame.mTransactions id).map (fun tx => tx.tx.seqNum) =
      (List.range (queueOf platform frame.mTransactions id).length).map fun (index : Nat) =>
        account.seqNum + 1 + (index : Int)
  passes : ∀ id, Chained platform.env ledger 0 (queueOf platform frame.mTransactions id)
  paid : ∀ id account, ledger.accounts.lookup id = some account →
    queueOf platform frame.mTransactions id ≠ [] →
      ∃ available, getAvailableBalanceOfAccount ledger.header account = .ok available ∧
        feeBids (queueOf platform frame.mTransactions id) ≤ available
  size : frame.size ledger.header ≤ ledger.header.maxTxSetSize

theorem Valid.ofSound (frame : TxSetFrame platform) (sequences : SequencesValid ledger)
    (ordered : inHashOrder platform 0 frame.mTransactions)
    (sound : AllSound platform.env ledger frame.mTransactions)
    (size : frame.size ledger.header ≤ ledger.header.maxTxSetSize) : Valid ledger frame where
  ordered := (inHashOrder_zero platform frame.mTransactions).mp ordered
  sources tx member := by
    apply (sound.queueOf sequences (sourceOf tx)).exists
    apply List.ne_nil_of_mem
    apply (queueOf_perm frame.mTransactions (sourceOf tx)).mem_iff.mpr
    exact List.mem_filter.mpr ⟨member, by simp⟩
  consecutive id account found := (sound.queueOf sequences id).consecutive sequences account found
  passes id := (sound.queueOf sequences id).chained
  paid id account found nonempty := by
    refine ⟨_, getAvailableBalanceOfAccount_eq ledger.header account, ?_⟩
    have pays := (sound.queueOf sequences id).pays
    simpa [canPay, nonempty, found] using pays
  size := size

end ViiCore.Herder.TxSetFrame

namespace ViiCore.Herder

open ViiCore.Ledger ViiCore.FiniteMap ViiCore.Execution ViiCore.Transactions TxSetFrame

/-- One pass of trimming and one of surge pricing are enough. -/
theorem proposeTxSet_valid (platform : SetPlatform) (ledger : Ledger) (seed lclHash : Hash)
    (txs : List TransactionEnvelope) (sequences : SequencesValid ledger) :
    ∃ (trimmed : TxSetFrame platform) (removed : List TransactionEnvelope)
      (proposed : TxSetFrame platform),
      (ofTransactions lclHash txs : TxSetFrame platform).trimInvalid ledger =
        .ok (trimmed, removed) ledger ∧
      trimmed.surgePricingFilter seed ledger = .ok proposed ledger ∧
      proposed.checkValid lclHash ledger = .ok true ledger ∧
      proposeTxSet platform seed lclHash txs ledger = .ok proposed ledger ∧
      proposed.Valid ledger := by
  obtain ⟨trimmed, removed, trims, trimmedPrevious, ordered, sound⟩ :=
    (ofTransactions lclHash txs : TxSetFrame platform).trimInvalid_spec ledger
  obtain ⟨proposed, filters, previous, proposedOrdered, proposedSound, size⟩ :=
    trimmed.surgePricingFilter_spec seed sequences ordered sound
  have same : proposed.mPreviousLedgerHash = lclHash := previous.trans trimmedPrevious
  have checks : proposed.checkValid lclHash ledger = .ok true ledger := by
    rw [← same]
    exact proposed.checkValid_sound sequences proposedOrdered proposedSound size
  refine ⟨trimmed, removed, proposed, trims, filters, checks, ?_,
    Valid.ofSound proposed sequences proposedOrdered proposedSound size⟩
  unfold proposeTxSet
  rw [bind_of_ok trims]
  dsimp only
  rw [bind_of_ok filters, bind_of_ok checks]
  rfl

def soloLedger : Ledger where
  header := { ledgerVersion := 11, closeTime := 0, ledgerSeq := 5, totalCoins := 1000,
              feePool := 0, inflationSeq := 0, idPool := 0, baseFee := 1, baseReserve := 10,
              maxTxSetSize := 1 }
  accounts := (∅ : Map AccountID AccountEntry).insert 1
    { balance := 1000, seqNum := 3, numSubEntries := 0, inflationDest := none, flags := 0,
      homeDomain := [], thresholds := ⟨1, 0, 0, 0⟩, signers := [], ext := none }
  trustLines := ∅
  offers := ∅
  data := ∅

def signedTransaction (fee : Nat) (seqNum : SequenceNumber) : TransactionEnvelope :=
  { tx := { sourceAccount := 1, fee, seqNum, timeBounds := none,
            operations := [{ sourceAccount := none, body := .INFLATION }] }
    signatures := [{ hint := 1, signature := [] }] }

def roomyLedger : Ledger :=
  { soloLedger with header := { soloLedger.header with maxTxSetSize := 10 } }

theorem soloLedger_sequences : SequencesValid soloLedger := by
  intro id account found
  have stored := AList.mem_lookup_iff.mp found
  change _ ∈ [_] at stored
  rw [List.mem_singleton] at stored
  cases stored
  decide

/-- Three transactions, of which one leaves a gap and only one fits. -/
theorem proposeTxSet_valid_solo :
    ∃ proposed : TxSetFrame feePlatform,
      proposeTxSet feePlatform 0 0
        [signedTransaction 7 4, signedTransaction 8 5, signedTransaction 9 8] soloLedger =
          .ok proposed soloLedger ∧
      proposed.Valid soloLedger := by
  obtain ⟨_, _, proposed, _, _, _, proposes, valid⟩ := proposeTxSet_valid feePlatform soloLedger 0 0
    [signedTransaction 7 4, signedTransaction 8 5, signedTransaction 9 8] soloLedger_sequences
  exact ⟨proposed, proposes, valid⟩

end ViiCore.Herder
