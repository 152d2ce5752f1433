import ViiCore.Herder.TxSetValidity
import Mathlib.Algebra.Order.Field.Basic
import Mathlib.Algebra.Order.Field.Rat
import Mathlib.Data.Prod.Lex
import Mathlib.Order.WithBot

/-!
Surge pricing keeps the transactions that pay best.

A transaction cannot be kept without those before it, so what counts is the lowest rate along the
sequence of its account. In the loop no transaction at the front of a queue has a higher one than
a transaction that was taken before.
-/

namespace ViiCore.Herder.TxSetFrame

open ViiCore.Ledger ViiCore.Sorting ViiCore.Transactions

variable {platform : SetPlatform}

/-! ### Rates -/

def feeRate (header : LedgerHeader) (tx : TransactionEnvelope) : ℚ :=
  tx.tx.fee / getMinFee tx header

/-- The lowest rate among the transactions of the same account up to the given one. -/
def lowestRate (header : LedgerHeader) (txs : List TransactionEnvelope)
    (tx : TransactionEnvelope) : ℚ :=
  ((ofAccount (sourceOf tx) txs).filter fun other => other.tx.seqNum ≤ tx.tx.seqNum).foldr
    (fun other low => min (feeRate header other) low) (feeRate header tx)

def sizeIn (header : LedgerHeader) (tx : TransactionEnvelope) : Nat :=
  if header.ledgerVersion ≥ 11 then tx.tx.operations.length else MAX_OPS_PER_TX

def limitOf (header : LedgerHeader) : Nat :=
  if header.ledgerVersion ≥ 11 then header.maxTxSetSize else header.maxTxSetSize * MAX_OPS_PER_TX

theorem getMinFee_pos {header : LedgerHeader} (positive : 0 < header.baseFee)
    (tx : TransactionEnvelope) : 0 < getMinFee tx header := by
  unfold getMinFee
  have some : (0 : Int) < max 1 (tx.tx.operations.length : Int) := by omega
  have fee : (0 : Int) < header.baseFee := by omega
  exact Int.mul_pos fee some

theorem feeRate_lt_iff {header : LedgerHeader} (positive : 0 < header.baseFee)
    (left right : TransactionEnvelope) :
    feeRate header left < feeRate header right ↔
      (left.tx.fee : Int) * getMinFee right header < (right.tx.fee : Int) * getMinFee left header := by
  have leftPositive : (0 : ℚ) < getMinFee left header := by
    exact_mod_cast getMinFee_pos positive left
  have rightPositive : (0 : ℚ) < getMinFee right header := by
    exact_mod_cast getMinFee_pos positive right
  unfold feeRate
  rw [div_lt_div_iff₀ leftPositive rightPositive]
  exact_mod_cast Iff.rfl

theorem le_lowestRate {header : LedgerHeader} {txs : List TransactionEnvelope}
    {tx : TransactionEnvelope} {rate : ℚ} :
    rate ≤ lowestRate header txs tx ↔ rate ≤ feeRate header tx ∧
      ∀ other ∈ ofAccount (sourceOf tx) txs, other.tx.seqNum ≤ tx.tx.seqNum →
        rate ≤ feeRate header other := by
  unfold lowestRate
  induction ofAccount (sourceOf tx) txs with
  | nil => simp
  | cons first rest ih =>
      by_cases early : first.tx.seqNum ≤ tx.tx.seqNum
      · rw [List.filter_cons_of_pos (by simpa using early), List.foldr_cons, le_min_iff, ih]
        simp only [List.mem_cons, forall_eq_or_imp, early, true_imp_iff]
        tauto
      · rw [List.filter_cons_of_neg (by simpa using early), ih]
        simp only [List.mem_cons, forall_eq_or_imp, early, false_imp_iff, true_and]

/-! ### The comparison of queues -/

section Compare

variable (platform) (seed : Hash) (header : LedgerHeader)

/-- An empty queue is below all others. -/
def surgeKey : AccountTransactionQueue → WithBot (ℚ ×ₗ Nat)
  | [] => ⊥
  | top :: _ =>
      ((toLex (feeRate header top, (seed ^^^ platform.getFullHash top).toNat) : ℚ ×ₗ Nat) :
        WithBot (ℚ ×ₗ Nat))

variable {header}

theorem surgeKey_lt {top1 top2 : TransactionEnvelope} {later1 later2 : AccountTransactionQueue} :
    surgeKey platform seed header (top1 :: later1) < surgeKey platform seed header (top2 :: later2) ↔
      feeRate header top1 < feeRate header top2 ∨ feeRate header top1 = feeRate header top2 ∧
        lessThanXored (platform.getFullHash top1) (platform.getFullHash top2) seed = true := by
  unfold lessThanXored
  rw [decide_eq_true_eq]
  exact WithBot.coe_lt_coe.trans Prod.Lex.toLex_lt_toLex

theorem surgeCompare_eq (positive : 0 < header.baseFee) :
    surgeCompare platform seed header = byKey (surgeKey platform seed header) := by
  funext left right
  unfold byKey
  cases left with
  | nil =>
      cases right with
      | nil => exact (decide_eq_false (lt_irrefl _)).symm
      | cons top2 later2 => exact (decide_eq_true (WithBot.bot_lt_coe _)).symm
  | cons top1 later1 =>
      cases right with
      | nil => exact (decide_eq_false not_lt_bot).symm
      | cons top2 later2 =>
          have below := feeRate_lt_iff positive top1 top2
          have above := feeRate_lt_iff positive top2 top1
          apply Bool.eq_iff_iff.mpr
          rw [decide_eq_true_eq, surgeKey_lt]
          simp only [surgeCompare, gt_iff_lt, ← below, ← above]
          rcases lt_trichotomy (feeRate header top1) (feeRate header top2) with less | same | more
          · simp [less]
          · simp [same]
          · simp [more, more.not_gt, more.ne']

theorem popTop_rate (positive : 0 < header.baseFee) {queues rest : List AccountTransactionQueue}
    {top : TransactionEnvelope} {later : AccountTransactionQueue}
    (popped : popTop (surgeCompare platform seed header) queues = some (top :: later, rest)) :
    ∀ queue ∈ rest, ∀ front ∈ queue.head?, feeRate header front ≤ feeRate header top := by
  rw [surgeCompare_eq platform seed positive] at popped
  intro queue member front isFront
  have notBelow := popTop_greatest (byKey_weak _) popped queue member
  obtain ⟨more, same⟩ := List.head?_eq_some_iff.mp isFront
  rw [same] at notBelow
  by_contra above
  apply notBelow
  exact decide_eq_true ((surgeKey_lt platform seed).mpr (Or.inl (not_le.mp above)))

end Compare

/-! ### The loop -/

/-- No front of a queue has a higher lowest rate than a transaction that was taken. -/
structure Bottleneck (rate low : TransactionEnvelope → ℚ) (taken : List TransactionEnvelope)
    (queues : List AccountTransactionQueue) : Prop where
  chains : ∀ queue ∈ queues, ∀ early tx next late, queue = early ++ tx :: next :: late →
    low next = min (low tx) (rate next)
  fronts : ∀ queue ∈ queues, ∀ front ∈ queue.head?, low front = rate front ∨
    ∃ previous ∈ taken, low front = min (low previous) (rate front)
  ordered : ∀ queue ∈ queues, ∀ front ∈ queue.head?, ∀ tx ∈ taken, low front ≤ low tx

section Loop

variable {rate low : TransactionEnvelope → ℚ} {taken : List TransactionEnvelope}
  {queues rest : List AccountTransactionQueue} {queue later : AccountTransactionQueue}
  {top : TransactionEnvelope}

theorem Bottleneck.subset (bottleneck : Bottleneck rate low taken queues) (part : rest ⊆ queues) :
    Bottleneck rate low taken rest where
  chains := fun queue member => bottleneck.chains queue (part member)
  fronts := fun queue member => bottleneck.fronts queue (part member)
  ordered := fun queue member => bottleneck.ordered queue (part member)

theorem mem_pushBack {other : AccountTransactionQueue} (member : other ∈ pushBack later rest) :
    (other = later ∧ later ≠ []) ∨ other ∈ rest := by
  cases later with
  | nil => exact Or.inr member
  | cons next more =>
      rcases List.mem_cons.mp member with same | inRest
      · exact Or.inl ⟨same, by simp⟩
      · exact Or.inr inRest

theorem Bottleneck.take (bottleneck : Bottleneck rate low taken ((top :: later) :: rest))
    (lowest : ∀ tx, low tx ≤ rate tx)
    (highest : ∀ queue ∈ rest, ∀ front ∈ queue.head?, rate front ≤ rate top) :
    Bottleneck rate low (taken ++ [top]) (pushBack later rest) := by
  have popped : (top :: later) ∈ (top :: later) :: rest := List.mem_cons_self
  have own : ∀ next more, later = next :: more → low next = min (low top) (rate next) := by
    intro next more same
    exact bottleneck.chains _ popped [] top next more (by rw [same]; rfl)
  constructor
  · intro other member early tx next late split
    rcases mem_pushBack member with ⟨same, _⟩ | inRest
    · apply bottleneck.chains _ popped (top :: early) tx next late
      rw [← same, split]
      rfl
    · exact bottleneck.chains other (List.mem_cons_of_mem _ inRest) early tx next late split
  · intro other member front isFront
    rcases mem_pushBack member with ⟨same, _⟩ | inRest
    · obtain ⟨more, split⟩ := List.head?_eq_some_iff.mp isFront
      exact Or.inr ⟨top, by simp, own front more (same.symm.trans split)⟩
    · rcases bottleneck.fronts other (List.mem_cons_of_mem _ inRest) front isFront with
        first | ⟨previous, before, least⟩
      · exact Or.inl first
      · exact Or.inr ⟨previous, List.mem_append_left _ before, least⟩
  · intro other member front isFront tx taking
    rcases List.mem_append.mp taking with before | here
    · rcases mem_pushBack member with ⟨same, _⟩ | inRest
      · obtain ⟨more, split⟩ := List.head?_eq_some_iff.mp isFront
        rw [own front more (same.symm.trans split)]
        exact (min_le_left _ _).trans (bottleneck.ordered _ popped top rfl tx before)
      · exact bottleneck.ordered other (List.mem_cons_of_mem _ inRest) front isFront tx before
    · rw [List.mem_singleton.mp here]
      rcases mem_pushBack member with ⟨same, _⟩ | inRest
      · obtain ⟨more, split⟩ := List.head?_eq_some_iff.mp isFront
        rw [own front more (same.symm.trans split)]
        exact min_le_left _ _
      · -- the front comes after what was taken, and its rate is not above that of the top
        have below : low front ≤ rate top := (lowest front).trans (highest other inRest front isFront)
        rcases bottleneck.fronts _ popped top rfl with first | ⟨previous, before, least⟩
        · rw [first]
          exact below
        · rw [least]
          exact le_min (bottleneck.ordered other (List.mem_cons_of_mem _ inRest) front isFront
            previous before) below

/-- A transaction that has a size did not fit next to those with at least its lowest rate. -/
def NoRoom (low : TransactionEnvelope → ℚ) (opsCount : TransactionEnvelope → Nat) (limit : Nat)
    (kept : List TransactionEnvelope) (tx : TransactionEnvelope) : Prop :=
  0 < opsCount tx →
    limit < opsCount tx + ((kept.filter fun other => low tx ≤ low other).map opsCount).sum

theorem noRoom_of_taken {opsCount : TransactionEnvelope → Nat} {limit opsLeft : Nat}
    {tx : TransactionEnvelope} (budget : (taken.map opsCount).sum + opsLeft = limit)
    (higher : ∀ other ∈ taken, low tx ≤ low other) (more : List TransactionEnvelope)
    (large : 0 < opsCount tx → opsLeft < opsCount tx) :
    NoRoom low opsCount limit (taken ++ more) tx := by
  intro some
  have all : taken.filter (fun other => low tx ≤ low other) = taken := by
    apply List.filter_eq_self.mpr
    intro other member
    exact decide_eq_true (higher other member)
  rw [List.filter_append, all, List.map_append, List.sum_append]
  have exceeds := large some
  omega

theorem Separated.front (separated : Separated queues) {id : AccountID} {tx : TransactionEnvelope}
    (first : tx ∈ (ofAccount id queues.flatten).head?) : ∃ queue ∈ queues, tx ∈ queue.head? := by
  induction queues with
  | nil => cases first
  | cons queue rest ih =>
      rw [List.flatten_cons, ofAccount_append] at first
      by_cases present : ∃ other ∈ queue, sourceOf other = id
      · obtain ⟨other, queued, own⟩ := present
        have whole : ofAccount id queue = queue := ofAccount_own fun another member =>
          (separated.together queue List.mem_cons_self another member other queued).trans own
        rw [whole] at first
        cases queue with
        | nil => cases queued
        | cons head tail => exact ⟨head :: tail, List.mem_cons_self, first⟩
      · have none : ofAccount id queue = [] := ofAccount_foreign fun other queued own =>
          present ⟨other, queued, own⟩
        rw [none] at first
        obtain ⟨found, member, isFront⟩ := ih separated.tail first
        exact ⟨found, List.mem_cons_of_mem _ member, isFront⟩

/-- Of every account the loop takes a first part of its queue; the next one found no room. -/
theorem surgeLoop_best {less : AccountTransactionQueue → AccountTransactionQueue → Bool}
    {opsCount : TransactionEnvelope → Nat} {limit : Nat} (lowest : ∀ tx, low tx ≤ rate tx)
    (highest : ∀ queues rest top later, popTop less queues = some (top :: later, rest) →
      ∀ queue ∈ rest, ∀ front ∈ queue.head?, rate front ≤ rate top)
    (opsLeft : Nat) (queues : List AccountTransactionQueue)
    (updatedSet : List TransactionEnvelope) (separated : Separated queues)
    (bottleneck : Bottleneck rate low updatedSet queues)
    (budget : (updatedSet.map opsCount).sum + opsLeft = limit) :
    ∃ more, surgeLoop less opsCount opsLeft queues updatedSet = updatedSet ++ more ∧
      ∀ id, ∃ lost, ofAccount id more ++ lost = ofAccount id queues.flatten ∧
        ∀ tx ∈ lost.head?, NoRoom low opsCount limit (updatedSet ++ more) tx := by
  fun_induction surgeLoop less opsCount opsLeft queues updatedSet with
  | case1 queues updatedSet =>
      refine ⟨[], (List.append_nil _).symm, fun id => ⟨_, rfl, ?_⟩⟩
      intro tx first
      obtain ⟨queue, member, isFront⟩ := separated.front first
      exact noRoom_of_taken budget (bottleneck.ordered queue member tx isFront) [] fun some => some
  | case2 opsLeft queues updatedSet some popped =>
      refine ⟨[], (List.append_nil _).symm, fun id => ⟨_, rfl, ?_⟩⟩
      intro tx first
      rw [eq_nil_of_popTop_none popped] at first
      cases first
  | case3 opsLeft queues updatedSet some rest popped ih =>
      have permuted := popTop_perm popped
      have split := separated.perm permuted.symm
      have part : rest ⊆ queues := fun other member =>
        permuted.mem_iff.mp (List.mem_cons_of_mem _ member)
      obtain ⟨more, runs, each⟩ := ih split.tail (bottleneck.subset part) budget
      refine ⟨more, runs, fun id => ?_⟩
      obtain ⟨lost, same, refused⟩ := each id
      refine ⟨lost, same.trans ?_, refused⟩
      rw [Separated.flatten_perm permuted.symm separated id]
      rfl
  | case4 opsLeft queues updatedSet some curTopTx later rest popped fits ih =>
      have permuted := popTop_perm popped
      have split := separated.perm permuted.symm
      have part : (curTopTx :: later) :: rest ⊆ queues := fun other member =>
        permuted.mem_iff.mp member
      have taking := (bottleneck.subset part).take lowest (highest queues rest curTopTx later popped)
      have left : ((updatedSet ++ [curTopTx]).map opsCount).sum +
          (opsLeft - opsCount curTopTx) = limit := by
        rw [List.map_append, List.sum_append, List.map_singleton, List.sum_singleton]
        omega
      obtain ⟨more, runs, each⟩ := ih split.pushBack taking left
      rw [List.append_assoc] at runs each
      refine ⟨curTopTx :: more, runs, fun id => ?_⟩
      obtain ⟨lost, same, refused⟩ := each id
      refine ⟨lost, ?_, refused⟩
      rw [Separated.flatten_perm permuted.symm separated id, List.flatten_cons]
      have first : curTopTx :: more = [curTopTx] ++ more := rfl
      have whole : curTopTx :: later = [curTopTx] ++ later := rfl
      rw [first, whole, ofAccount_append, List.append_assoc, same, pushBack_flatten,
        List.append_assoc, ← ofAccount_append]
  | case5 opsLeft queues updatedSet some curTopTx later rest popped fits ih =>
      have permuted := popTop_perm popped
      have split := separated.perm permuted.symm
      have part : (curTopTx :: later) :: rest ⊆ queues := fun other member =>
        permuted.mem_iff.mp member
      have smaller := bottleneck.subset part
      obtain ⟨more, runs, each⟩ := ih split.tail
        (smaller.subset (List.subset_cons_self _ _)) budget
      refine ⟨more, runs, fun id => ?_⟩
      obtain ⟨lost, same, refused⟩ := each id
      rw [Separated.flatten_perm permuted.symm separated id, List.flatten_cons, ofAccount_append]
      by_cases own : ofAccount id (curTopTx :: later) = []
      · rw [own, List.nil_append]
        exact ⟨lost, same, refused⟩
      · have foreign : ofAccount id rest.flatten = [] := (split.split id).resolve_left own
        rw [foreign] at same ⊢
        obtain ⟨nothing, _⟩ := List.append_eq_nil_iff.mp same
        refine ⟨ofAccount id (curTopTx :: later), by rw [nothing, List.append_nil, List.nil_append],
          ?_⟩
        intro tx first
        have single : Separated [curTopTx :: later] :=
          ⟨List.pairwise_singleton _ _, fun queue member => split.together queue
            (List.mem_cons.mpr (Or.inl (List.mem_singleton.mp member)))⟩
        have inFirst : tx ∈ (ofAccount id [curTopTx :: later].flatten).head? := by
          rw [List.flatten_singleton]
          exact first
        obtain ⟨queue, member, isFront⟩ := single.front inFirst
        rw [List.mem_singleton.mp member] at isFront
        cases isFront
        exact noRoom_of_taken budget (smaller.ordered _ List.mem_cons_self curTopTx rfl) more
          fun _ => not_le.mp fits

end Loop

/-! ### The filter -/

section Filter

variable {header : LedgerHeader} {txs : List TransactionEnvelope} {id : AccountID}

theorem mem_queueOf {tx : TransactionEnvelope} :
    tx ∈ queueOf platform txs id ↔ tx ∈ ofAccount id txs :=
  (queueOf_perm txs id).mem_iff

theorem sourceOf_queueOf {tx : TransactionEnvelope} (queued : tx ∈ queueOf platform txs id) :
    sourceOf tx = id :=
  of_decide_eq_true (List.mem_filter.mp (mem_queueOf.mp queued)).2

/-- In its queue a transaction comes right after those that its lowest rate is about. -/
theorem le_lowestRate_iff (distinct : DistinctSequence txs)
    {early late : List TransactionEnvelope} {tx : TransactionEnvelope}
    (split : queueOf platform txs id = early ++ tx :: late) {rate : ℚ} :
    rate ≤ lowestRate header txs tx ↔
      (∀ other ∈ early, rate ≤ feeRate header other) ∧ rate ≤ feeRate header tx := by
  have queued : tx ∈ queueOf platform txs id := by
    rw [split]
    simp
  have sorted := @queueOf_sorted platform txs id
  rw [split, List.pairwise_append, List.pairwise_cons] at sorted
  obtain ⟨_, ⟨after, _⟩, before⟩ := sorted
  rw [le_lowestRate, sourceOf_queueOf queued]
  constructor
  · intro ⟨own, all⟩
    refine ⟨?_, own⟩
    intro other member
    apply all other
    · rw [← @mem_queueOf platform txs id, split]
      exact List.mem_append_left _ member
    · exact before other member tx List.mem_cons_self
  · intro ⟨all, own⟩
    refine ⟨own, ?_⟩
    intro other member earlier
    have inQueue := (@mem_queueOf platform txs id other).mpr member
    have split' := inQueue
    rw [split, List.mem_append, List.mem_cons] at split'
    rcases split' with isEarly | same | isLate
    · exact all other isEarly
    · rw [same]
      exact own
    · -- a later one with the same number is the transaction itself
      have sameNumber := le_antisymm earlier (after other isLate)
      have inTxs := (List.mem_filter.mp member).1
      have here := (List.mem_filter.mp (mem_queueOf.mp queued)).1
      rw [distinct other inTxs tx here
        ((sourceOf_queueOf inQueue).trans (sourceOf_queueOf queued).symm) sameNumber]
      exact own

theorem bottleneck_start (frame : TxSetFrame platform)
    (distinct : DistinctSequence frame.mTransactions) :
    Bottleneck (feeRate header) (lowestRate header frame.mTransactions) []
      (frame.buildAccountTxQueues.map Prod.snd) := by
  have queues : ∀ queue ∈ frame.buildAccountTxQueues.map Prod.snd, ∃ id,
      queueOf platform frame.mTransactions id = queue := by
    intro queue member
    rw [buildAccountTxQueues_eq, List.map_map] at member
    obtain ⟨id, _, same⟩ := List.mem_map.mp member
    exact ⟨id, same⟩
  constructor
  · intro queue member early tx next late split
    obtain ⟨id, same⟩ := queues queue member
    have ofTx := same.trans split
    have ofNext : queueOf platform frame.mTransactions id = (early ++ [tx]) ++ next :: late := by
      rw [ofTx, List.append_assoc]
      rfl
    apply eq_of_forall_le_iff
    intro rate
    rw [le_min_iff, le_lowestRate_iff distinct ofTx, le_lowestRate_iff distinct ofNext]
    simp only [List.mem_append, List.mem_singleton, or_imp, forall_and, forall_eq]
  · intro queue member front isFront
    obtain ⟨id, same⟩ := queues queue member
    obtain ⟨later, split⟩ := List.head?_eq_some_iff.mp isFront
    left
    apply eq_of_forall_le_iff
    intro rate
    have first : queueOf platform frame.mTransactions id = [] ++ front :: later := same.trans split
    rw [le_lowestRate_iff distinct first]
    simp
  · intro queue member front isFront tx impossible
    cases impossible

theorem queueOf_of_prefix (distinct : DistinctSequence txs) {kept other lost : List TransactionEnvelope}
    (split : ofAccount id kept ++ lost = queueOf platform txs id) (same : other.Perm kept) :
    queueOf platform other id = ofAccount id kept := by
  have permuted : (queueOf platform other id).Perm (ofAccount id kept) :=
    (queueOf_perm other id).trans (same.filter _)
  have member : ∀ tx ∈ queueOf platform other id, tx ∈ queueOf platform txs id := by
    intro tx queued
    rw [← split]
    exact List.mem_append_left _ (permuted.mem_iff.mp queued)
  have sorted := @queueOf_sorted platform txs id
  rw [← split] at sorted
  apply eq_of_sorted (fun tx : TransactionEnvelope => tx.tx.seqNum) permuted _
    (queueOf_sorted other id) (List.pairwise_append.mp sorted).1
  intro first inFirst second inSecond sameNumber
  have isFirst := member first inFirst
  have isSecond := member second inSecond
  exact distinct first (List.mem_filter.mp (mem_queueOf.mp isFirst)).1 second
    (List.mem_filter.mp (mem_queueOf.mp isSecond)).1
    ((sourceOf_queueOf isFirst).trans (sourceOf_queueOf isSecond).symm) sameNumber

theorem surgePricingFilter_eq (frame : TxSetFrame platform) (seed : Hash) (ledger : Ledger) :
    frame.surgePricingFilter seed ledger =
      .ok (if (frame.mTransactions.map (sizeIn ledger.header)).sum > limitOf ledger.header then
          (ofTransactions frame.mPreviousLedgerHash
            (surgeLoop (surgeCompare platform seed ledger.header) (sizeIn ledger.header)
              (limitOf ledger.header) (frame.buildAccountTxQueues.map Prod.snd) [])).sortForHash
        else frame) ledger := by
  have size : (frame.mTransactions.map (sizeIn ledger.header)).sum =
      if ledger.header.ledgerVersion ≥ 11 then frame.sizeOp else frame.sizeTx * MAX_OPS_PER_TX := by
    have counted := sum_opsCount (decide (ledger.header.ledgerVersion ≥ 11)) frame.mTransactions
    simp only [decide_eq_true_eq] at counted
    exact counted
  have filters : frame.surgePricingFilter seed ledger =
      (if (if ledger.header.ledgerVersion ≥ 11 then frame.sizeOp
            else frame.sizeTx * MAX_OPS_PER_TX) > limitOf ledger.header then
        return (ofTransactions frame.mPreviousLedgerHash
            (surgeLoop (surgeCompare platform seed ledger.header) (sizeIn ledger.header)
              (limitOf ledger.header) (frame.buildAccountTxQueues.map Prod.snd) [])).sortForHash
      else return frame : Apply (TxSetFrame platform)) ledger := by
    unfold surgePricingFilter limitOf
    simp only [bind, EStateM.bind, loadHeader, decide_eq_true_eq]
    rfl
  rw [filters, ← size]
  split <;> rfl

/-- Surge pricing keeps of every account the first transactions of its sequence, within the limit.
The first one that is dropped had no room next to those kept with at least its lowest rate. A
transaction without operations, which is never valid, has no size. -/
theorem surgePricingFilter_keepsBest {ledger : Ledger} (frame : TxSetFrame platform) (seed : Hash)
    (positive : 0 < ledger.header.baseFee) (distinct : DistinctSequence frame.mTransactions) :
    ∃ filtered : TxSetFrame platform, frame.surgePricingFilter seed ledger = .ok filtered ledger ∧
      (filtered.mTransactions.map (sizeIn ledger.header)).sum ≤ limitOf ledger.header ∧
      ∀ id, ∃ lost, queueOf platform filtered.mTransactions id ++ lost =
          queueOf platform frame.mTransactions id ∧
        ∀ tx ∈ lost.head?, NoRoom (lowestRate ledger.header frame.mTransactions)
          (sizeIn ledger.header) (limitOf ledger.header) filtered.mTransactions tx := by
  refine ⟨_, frame.surgePricingFilter_eq seed ledger, ?_⟩
  by_cases surges : (frame.mTransactions.map (sizeIn ledger.header)).sum > limitOf ledger.header
  · rw [if_pos surges]
    have lowest : ∀ tx, lowestRate ledger.header frame.mTransactions tx ≤
        feeRate ledger.header tx := fun tx => (le_lowestRate.mp (le_refl _)).1
    have separated := frame.buildAccountTxQueues_owned.separated
    have counted := (surgeLoop_spec (surgeCompare platform seed ledger.header)
      (sizeIn ledger.header) (limitOf ledger.header) _ [] separated).2
    obtain ⟨more, runs, each⟩ := surgeLoop_best lowest
      (fun queues rest top later popped => popTop_rate platform seed positive popped)
      (limitOf ledger.header) _ [] separated (bottleneck_start frame distinct)
      (show (([] : List TransactionEnvelope).map (sizeIn ledger.header)).sum +
        limitOf ledger.header = limitOf ledger.header from Nat.zero_add _)
    rw [runs] at counted ⊢
    have sorted : (platform.sorter.sort (HashTxSorter platform) ([] ++ more)).Perm more :=
      platform.sorter.perm _ _
    change ((platform.sorter.sort (HashTxSorter platform) ([] ++ more)).map _).sum ≤ _ ∧ _
    constructor
    · rw [(sorted.map (sizeIn ledger.header)).sum_eq]
      exact counted.trans_eq (Nat.zero_add _)
    · intro id
      obtain ⟨lost, same, refused⟩ := each id
      have whole : ofAccount id more ++ lost = queueOf platform frame.mTransactions id :=
        same.trans (frame.queues_ofAccount id)
      refine ⟨lost, ?_, ?_⟩
      · rw [← whole]
        congr 1
        exact queueOf_of_prefix distinct whole sorted
      · intro tx first some
        have sums := ((sorted.filter fun other => lowestRate ledger.header frame.mTransactions tx ≤
          lowestRate ledger.header frame.mTransactions other).map (sizeIn ledger.header)).sum_eq
        exact (refused tx first some).trans_eq (congrArg (sizeIn ledger.header tx + ·) sums.symm)
  · rw [if_neg surges]
    refine ⟨not_lt.mp surges, fun id => ⟨[], List.append_nil _, ?_⟩⟩
    intro tx impossible
    cases impossible

end Filter

def twoTransactions : TxSetFrame feePlatform :=
  ofTransactions 0 [signedTransaction 9 5, signedTransaction 7 4]

theorem surgePricingFilter_keepsBest_two : ∃ filtered : TxSetFrame feePlatform,
    twoTransactions.surgePricingFilter 3 soloLedger = .ok filtered soloLedger ∧
      (filtered.mTransactions.map (sizeIn soloLedger.header)).sum ≤ 1 := by
  have distinct : DistinctSequence twoTransactions.mTransactions := by
    intro first inFirst second inSecond _ same
    change first ∈ [_, _] at inFirst
    change second ∈ [_, _] at inSecond
    simp only [List.mem_cons, List.not_mem_nil, or_false] at inFirst inSecond
    rcases inFirst with rfl | rfl <;> rcases inSecond with rfl | rfl
    · rfl
    · cases same
    · cases same
    · rfl
  obtain ⟨filtered, filters, within, _⟩ := @surgePricingFilter_keepsBest feePlatform soloLedger
    twoTransactions 3 (by decide) distinct
  exact ⟨filtered, filters, within⟩

end ViiCore.Herder.TxSetFrame
