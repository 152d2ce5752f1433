import ViiCore.Herder.TxSetFrame

/-!
The order in which a transaction set is applied.

Every batch takes one transaction from the queue of each account, so the transactions of an
account stay in the order of its queue, and the batches of two sets with the same queues are
the same up to the order inside a batch, which the sort by the shuffled hash then fixes.
-/

namespace ViiCore.Herder.TxSetFrame

open ViiCore.Ledger ViiCore.FiniteMap ViiCore.Sorting ViiCore.Transactions

variable {platform : SetPlatform}

/-! ### Queues -/

def sourceOf (tx : TransactionEnvelope) : AccountID := tx.tx.sourceAccount

def ofAccount (id : AccountID) (txs : List TransactionEnvelope) : List TransactionEnvelope :=
  txs.filter fun tx => sourceOf tx = id

theorem foldl_enqueue_lookup (txs : List TransactionEnvelope)
    (queues : Map AccountID AccountTransactionQueue) (id : AccountID) :
    ((txs.foldl enqueue queues).lookup id).getD [] = (queues.lookup id).getD [] ++ ofAccount id txs := by
  induction txs generalizing queues with
  | nil => simp [ofAccount]
  | cons tx rest ih =>
      rw [List.foldl_cons, ih]
      by_cases same : sourceOf tx = id
      · subst same
        simp [enqueue, ofAccount, sourceOf]
      · have other : id ≠ tx.tx.sourceAccount := fun swapped => same swapped.symm
        simp only [enqueue, AList.lookup_insert_ne other, ofAccount, List.filter_cons, same,
          decide_false, Bool.false_eq_true, if_false]

theorem mem_foldl_enqueue (txs : List TransactionEnvelope)
    (queues : Map AccountID AccountTransactionQueue) (id : AccountID) :
    id ∈ txs.foldl enqueue queues ↔ id ∈ queues ∨ ∃ tx ∈ txs, sourceOf tx = id := by
  induction txs generalizing queues with
  | nil => simp
  | cons tx rest ih =>
      rw [List.foldl_cons, ih]
      simp only [enqueue, AList.mem_insert, List.mem_cons, sourceOf]
      constructor
      · rintro ((rfl | known) | ⟨later, member, same⟩)
        · exact .inr ⟨tx, .inl rfl, rfl⟩
        · exact .inl known
        · exact .inr ⟨later, .inr member, same⟩
      · rintro (known | ⟨later, rfl | member, same⟩)
        · exact .inl (.inr known)
        · exact .inl (.inl same.symm)
        · exact .inr ⟨later, member, same⟩

def queuedAccounts (frame : TxSetFrame platform) : List AccountID :=
  platform.iterate (frame.mTransactions.foldl enqueue ∅).keys

def queueOf (platform : SetPlatform) (txs : List TransactionEnvelope) (id : AccountID) :
    AccountTransactionQueue :=
  platform.sorter.sort SeqSorter (ofAccount id txs)

theorem buildAccountTxQueues_eq (frame : TxSetFrame platform) :
    frame.buildAccountTxQueues =
      frame.queuedAccounts.map fun id => (id, queueOf platform frame.mTransactions id) := by
  unfold buildAccountTxQueues queuedAccounts queueOf
  apply List.map_congr_left
  intro id _
  have queued := foldl_enqueue_lookup frame.mTransactions ∅ id
  simp only [AList.lookup_empty, Option.getD_none, List.nil_append] at queued
  rw [queued]

theorem mem_queuedAccounts (frame : TxSetFrame platform) (id : AccountID) :
    id ∈ frame.queuedAccounts ↔ ∃ tx ∈ frame.mTransactions, sourceOf tx = id := by
  unfold queuedAccounts
  rw [(platform.iterate_perm _).mem_iff, ← AList.mem_keys, mem_foldl_enqueue]
  simp

theorem queuedAccounts_nodup (frame : TxSetFrame platform) : frame.queuedAccounts.Nodup := by
  unfold queuedAccounts
  rw [(platform.iterate_perm _).nodup_iff]
  exact AList.keys_nodup _

theorem queueOf_perm (txs : List TransactionEnvelope) (id : AccountID) :
    (queueOf platform txs id).Perm (ofAccount id txs) :=
  platform.sorter.perm _ _

theorem queueOf_sorted (txs : List TransactionEnvelope) (id : AccountID) :
    (queueOf platform txs id).Pairwise fun left right => left.tx.seqNum ≤ right.tx.seqNum :=
  platform.sorter.sorted_byKey _ _

def DistinctSequence (txs : List TransactionEnvelope) : Prop :=
  ∀ first ∈ txs, ∀ second ∈ txs, sourceOf first = sourceOf second →
    first.tx.seqNum = second.tx.seqNum → first = second

theorem queueOf_congr {txs other : List TransactionEnvelope} (same : txs.Perm other)
    (distinct : DistinctSequence txs) (id : AccountID) :
    queueOf platform txs id = queueOf platform other id := by
  apply platform.sorter.sort_congr
  · exact same.filter _
  · intro first inFirst second inSecond equal
    have firstOf := List.mem_filter.mp inFirst
    have secondOf := List.mem_filter.mp inSecond
    have sources : sourceOf first = sourceOf second :=
      (of_decide_eq_true firstOf.2).trans (of_decide_eq_true secondOf.2).symm
    exact distinct first firstOf.1 second secondOf.1 sources equal

/-! ### Batches -/

abbrev Queues := List (AccountID × AccountTransactionQueue)

/-- Every queue holds transactions of its account, and no account has two. -/
structure Queues.Owned (queues : Queues) : Prop where
  ids : (queues.map Prod.fst).Nodup
  sources : ∀ queue ∈ queues, ∀ tx ∈ queue.2, sourceOf tx = queue.1

theorem buildAccountTxQueues_owned (frame : TxSetFrame platform) :
    Queues.Owned frame.buildAccountTxQueues where
  ids := by
    rw [buildAccountTxQueues_eq, List.map_map]
    simpa [Function.comp_def] using frame.queuedAccounts_nodup
  sources queue member tx queued := by
    rw [buildAccountTxQueues_eq] at member
    obtain ⟨id, -, rfl⟩ := List.mem_map.mp member
    have filtered := (queueOf_perm frame.mTransactions id).mem_iff.mp queued
    exact of_decide_eq_true (List.mem_filter.mp filtered).2

theorem Queues.Owned.dropFronts {queues : Queues} (owned : Queues.Owned queues) :
    Queues.Owned (dropFronts queues) where
  ids := by
    have ids : (queues.map fun queue => (queue.1, queue.2.tail)).map Prod.fst =
        queues.map Prod.fst := by
      rw [List.map_map]
      rfl
    have kept := (List.filter_sublist (p := fun queue : AccountID × AccountTransactionQueue =>
      decide (queue.2 ≠ [])) (l := queues.map fun queue => (queue.1, queue.2.tail))).map Prod.fst
    rw [ids] at kept
    exact kept.nodup owned.ids
  sources queue member tx queued := by
    obtain ⟨old, inOld, rfl⟩ := List.mem_map.mp (List.mem_of_mem_filter member)
    exact owned.sources old inOld tx (List.mem_of_mem_tail queued)

theorem takeFronts_perm {queues other : Queues} (same : queues.Perm other) :
    (takeFronts queues).Perm (takeFronts other) :=
  same.filterMap _

theorem dropFronts_perm {queues other : Queues} (same : queues.Perm other) :
    (dropFronts queues).Perm (dropFronts other) :=
  (same.map _).filter _

theorem txBatches_perm (queues : Queues) : ∀ other : Queues, queues.Perm other →
    List.Forall₂ List.Perm (txBatches queues) (txBatches other) := by
  induction queues using txBatches.induct with
  | case1 =>
      intro other same
      rw [List.nil_perm.mp same]
      rw [txBatches]
      exact .nil
  | case2 queue rest ih =>
      intro other same
      cases other with
      | nil => exact absurd same.length_eq (by simp)
      | cons otherQueue otherRest =>
          rw [txBatches, txBatches]
          exact .cons (takeFronts_perm same) (ih _ (dropFronts_perm same))

theorem takeFronts_append (queues : Queues) :
    (takeFronts queues ++ (dropFronts queues).flatMap Prod.snd).Perm (queues.flatMap Prod.snd) := by
  induction queues with
  | nil => rfl
  | cons queue rest ih =>
      obtain ⟨id, txs⟩ := queue
      cases txs with
      | nil =>
          have others : dropFronts ((id, []) :: rest) = dropFronts rest := by
            simp [dropFronts]
          rw [others]
          exact ih
      | cons tx later =>
          have fronts : takeFronts ((id, tx :: later) :: rest) = tx :: takeFronts rest := rfl
          have others : (dropFronts ((id, tx :: later) :: rest)).flatMap Prod.snd =
              later ++ (dropFronts rest).flatMap Prod.snd := by
            cases later with
            | nil => simp [dropFronts]
            | cons next more => simp [dropFronts]
          rw [fronts, others, List.flatMap_cons]
          simp only [List.cons_append, List.perm_cons]
          have swapped : (takeFronts rest ++ (later ++ (dropFronts rest).flatMap Prod.snd)).Perm
              (later ++ (takeFronts rest ++ (dropFronts rest).flatMap Prod.snd)) := by
            rw [← List.append_assoc, ← List.append_assoc]
            exact List.perm_append_comm.append_right _
          exact swapped.trans (ih.append_left later)

theorem txBatches_flatten (queues : Queues) :
    (txBatches queues).flatten.Perm (queues.flatMap Prod.snd) := by
  induction queues using txBatches.induct with
  | case1 =>
      rw [txBatches]
      rfl
  | case2 queue rest ih =>
      rw [txBatches, List.flatten_cons]
      exact (ih.append_left _).trans (takeFronts_append (queue :: rest))

/-! ### One account -/

theorem ofAccount_append (id : AccountID) (left right : List TransactionEnvelope) :
    ofAccount id (left ++ right) = ofAccount id left ++ ofAccount id right :=
  List.filter_append ..

theorem ofAccount_foreign {id : AccountID} {txs : List TransactionEnvelope}
    (foreign : ∀ tx ∈ txs, sourceOf tx ≠ id) : ofAccount id txs = [] := by
  apply List.filter_eq_nil_iff.mpr
  intro tx member
  simpa using foreign tx member

theorem ofAccount_own {id : AccountID} {txs : List TransactionEnvelope}
    (own : ∀ tx ∈ txs, sourceOf tx = id) : ofAccount id txs = txs := by
  apply List.filter_eq_self.mpr
  intro tx member
  simpa using own tx member

theorem Queues.Owned.tail {queue : AccountID × AccountTransactionQueue} {rest : Queues}
    (owned : Queues.Owned (queue :: rest)) : Queues.Owned rest where
  ids := (List.nodup_cons.mp owned.ids).2
  sources other member := owned.sources other (List.mem_cons_of_mem queue member)

theorem Queues.Owned.front {queue : AccountID × AccountTransactionQueue} {rest : Queues}
    (owned : Queues.Owned (queue :: rest)) (id : AccountID) :
    (ofAccount id (rest.flatMap Prod.snd) = [] ∧ ∀ part ⊆ queue.2, ofAccount id part = part) ∨
      ∀ part ⊆ queue.2, ofAccount id part = [] := by
  by_cases own : queue.1 = id
  · left
    constructor
    · apply ofAccount_foreign
      intro tx member same
      obtain ⟨other, inRest, queued⟩ := List.mem_flatMap.mp member
      apply (List.nodup_cons.mp owned.ids).1
      rw [own, ← same, owned.sources other (List.mem_cons_of_mem queue inRest) tx queued]
      exact List.mem_map_of_mem inRest
    · intro part within
      apply ofAccount_own
      intro tx member
      rw [← own]
      exact owned.sources queue List.mem_cons_self tx (within member)
  · right
    intro part within
    apply ofAccount_foreign
    intro tx member same
    rw [owned.sources queue List.mem_cons_self tx (within member)] at same
    exact own same

theorem fronts_ofAccount (id : AccountID) (queues : Queues) (owned : Queues.Owned queues) :
    ofAccount id (takeFronts queues) = (ofAccount id (queues.flatMap Prod.snd)).take 1 ∧
    ofAccount id ((dropFronts queues).flatMap Prod.snd) =
      (ofAccount id (queues.flatMap Prod.snd)).drop 1 := by
  induction queues with
  | nil => exact ⟨rfl, rfl⟩
  | cons queue rest ih =>
      have later := ih owned.tail
      have fronts : takeFronts (queue :: rest) = queue.2.take 1 ++ takeFronts rest := by
        obtain ⟨owner, txs⟩ := queue
        cases txs <;> rfl
      have tails : (dropFronts (queue :: rest)).flatMap Prod.snd =
          queue.2.drop 1 ++ (dropFronts rest).flatMap Prod.snd := by
        obtain ⟨owner, txs⟩ := queue
        rcases txs with _ | ⟨tx, _ | ⟨next, more⟩⟩ <;> simp [dropFronts]
      rw [fronts, tails, List.flatMap_cons, ofAccount_append, ofAccount_append, ofAccount_append,
        later.1, later.2]
      rcases owned.front id with ⟨restNone, own⟩ | foreign
      · rw [restNone, own _ (List.take_subset 1 _), own _ (List.drop_subset 1 _),
          own _ (List.Subset.refl _)]
        simp
      · rw [foreign _ (List.take_subset 1 _), foreign _ (List.drop_subset 1 _),
          foreign _ (List.Subset.refl _)]
        exact ⟨rfl, rfl⟩

theorem ofAccount_sorted {id : AccountID} {batch : List TransactionEnvelope}
    (less : TransactionEnvelope → TransactionEnvelope → Bool)
    (single : (ofAccount id batch).length ≤ 1) :
    ofAccount id (platform.sorter.sort less batch) = ofAccount id batch := by
  have same : (ofAccount id (platform.sorter.sort less batch)).Perm (ofAccount id batch) :=
    (platform.sorter.perm less batch).filter _
  match kept : ofAccount id batch with
  | [] =>
      rw [kept] at same
      exact same.eq_nil
  | [tx] =>
      rw [kept] at same
      exact same.eq_singleton
  | _ :: _ :: _ =>
      rw [kept] at single
      simp at single

theorem txBatches_ofAccount (less : TransactionEnvelope → TransactionEnvelope → Bool)
    (id : AccountID) (queues : Queues) (owned : Queues.Owned queues) :
    ofAccount id ((txBatches queues).map (platform.sorter.sort less)).flatten =
      ofAccount id (queues.flatMap Prod.snd) := by
  induction queues using txBatches.induct with
  | case1 =>
      rw [txBatches]
      rfl
  | case2 queue rest ih =>
      have parts := fronts_ofAccount id (queue :: rest) owned
      have single : (ofAccount id (takeFronts (queue :: rest))).length ≤ 1 := by
        rw [parts.1, List.length_take]
        exact Nat.min_le_left ..
      rw [txBatches, List.map_cons, List.flatten_cons, ofAccount_append,
        ofAccount_sorted less single, ih owned.dropFronts, parts.1, parts.2, List.take_append_drop]

theorem queueOf_ofAccount (txs : List TransactionEnvelope) (id : AccountID) :
    ofAccount id (queueOf platform txs id) = queueOf platform txs id := by
  apply ofAccount_own
  intro tx member
  have filtered := (queueOf_perm txs id).mem_iff.mp member
  exact of_decide_eq_true (List.mem_filter.mp filtered).2

theorem queues_ofAccount (frame : TxSetFrame platform) (id : AccountID) :
    ofAccount id (frame.buildAccountTxQueues.flatMap Prod.snd) =
      queueOf platform frame.mTransactions id := by
  have general : ∀ ids : List AccountID, ids.Nodup →
      ofAccount id (ids.flatMap (queueOf platform frame.mTransactions)) =
        if id ∈ ids then queueOf platform frame.mTransactions id else [] := by
    intro ids distinct
    induction ids with
    | nil => rfl
    | cons head tail ih =>
        have parts := List.nodup_cons.mp distinct
        rw [List.flatMap_cons, ofAccount_append, ih parts.2]
        by_cases own : head = id
        · subst own
          rw [queueOf_ofAccount, if_neg parts.1, if_pos List.mem_cons_self, List.append_nil]
        · have foreign : ofAccount id (queueOf platform frame.mTransactions head) = [] := by
            apply ofAccount_foreign
            intro tx member same
            have filtered := (queueOf_perm frame.mTransactions head).mem_iff.mp member
            exact own ((of_decide_eq_true (List.mem_filter.mp filtered).2).symm.trans same)
          have member : id ∈ head :: tail ↔ id ∈ tail := by
            simp [Ne.symm own]
          simp only [foreign, List.nil_append, member]
  have queues := general frame.queuedAccounts frame.queuedAccounts_nodup
  rw [buildAccountTxQueues_eq, List.flatMap_map]
  rw [queues]
  split
  · rfl
  · rename_i absent
    have none : ofAccount id frame.mTransactions = [] := by
      apply ofAccount_foreign
      intro tx member same
      exact absent ((frame.mem_queuedAccounts id).mpr ⟨tx, member, same⟩)
    have same : (queueOf platform frame.mTransactions id).Perm (ofAccount id frame.mTransactions) :=
      queueOf_perm frame.mTransactions id
    rw [none] at same
    exact same.eq_nil.symm

theorem perm_of_ofAccount {left right : List TransactionEnvelope}
    (same : ∀ id, (ofAccount id left).Perm (ofAccount id right)) : left.Perm right := by
  rw [List.perm_iff_count]
  intro tx
  have own : ∀ txs : List TransactionEnvelope, txs.count tx = (ofAccount (sourceOf tx) txs).count tx := by
    intro txs
    exact (List.count_filter (by simp)).symm
  rw [own left, own right]
  exact (same (sourceOf tx)).count_eq tx

theorem queues_perm (frame : TxSetFrame platform) :
    (frame.buildAccountTxQueues.flatMap Prod.snd).Perm frame.mTransactions := by
  apply perm_of_ofAccount
  intro id
  rw [queues_ofAccount]
  exact queueOf_perm frame.mTransactions id

/-! ### The order of application -/

theorem sortForApply_ofAccount (frame : TxSetFrame platform) (id : AccountID) :
    ofAccount id frame.sortForApply = queueOf platform frame.mTransactions id := by
  unfold sortForApply
  rw [txBatches_ofAccount _ id _ frame.buildAccountTxQueues_owned, queues_ofAccount]

theorem sortForApply_perm (frame : TxSetFrame platform) :
    frame.sortForApply.Perm frame.mTransactions := by
  apply perm_of_ofAccount
  intro id
  rw [sortForApply_ofAccount]
  exact queueOf_perm frame.mTransactions id

def CollisionFree (platform : SetPlatform) (txs : List TransactionEnvelope) : Prop :=
  ∀ first ∈ txs, ∀ second ∈ txs,
    platform.getFullHash first = platform.getFullHash second → first = second

theorem getContentsHash_eq (frame : TxSetFrame platform)
    (collisionFree : CollisionFree platform frame.mTransactions) :
    frame.getContentsHash.2 = platform.sha256 frame.mPreviousLedgerHash
      (platform.sorter.sort (HashTxSorter platform) frame.mTransactions) := by
  unfold getContentsHash
  cases cached : frame.mHash with
  | none => rfl
  | some hash =>
      obtain ⟨ordered, same⟩ := frame.hashIsValid hash cached
      have sorted := (inHashOrder_zero platform frame.mTransactions).mp ordered
      have kept : frame.mTransactions =
          platform.sorter.sort (HashTxSorter platform) frame.mTransactions := by
        apply eq_of_sorted (fun tx => (platform.getFullHash tx).toNat)
          (platform.sorter.perm _ _).symm _ sorted (platform.sorter.sorted_byKey _ _)
        intro first inFirst second inSecond equal
        exact collisionFree first inFirst second inSecond (BitVec.eq_of_toNat_eq equal)
      rw [← kept]
      exact same

theorem ApplyTxSorter_eq (setHash : Hash) :
    ApplyTxSorter platform setHash =
      byKey fun tx => (setHash ^^^ platform.getFullHash tx).toNat := rfl

theorem xor_injective (setHash left right : Hash)
    (same : (setHash ^^^ left).toNat = (setHash ^^^ right).toNat) : left = right := by
  have equal := BitVec.eq_of_toNat_eq same
  have undone : setHash ^^^ (setHash ^^^ left) = setHash ^^^ (setHash ^^^ right) := by rw [equal]
  simpa [← BitVec.xor_assoc] using undone

theorem sortBatches_congr (setHash : Hash) {left right : List (List TransactionEnvelope)}
    (same : List.Forall₂ List.Perm left right)
    (collisionFree : ∀ batch ∈ left, CollisionFree platform batch) :
    left.map (platform.sorter.sort (ApplyTxSorter platform setHash)) =
      right.map (platform.sorter.sort (ApplyTxSorter platform setHash)) := by
  induction same with
  | nil => rfl
  | @cons batch otherBatch batches otherBatches first _ ih =>
      rw [List.map_cons, List.map_cons,
        ih fun later member => collisionFree later (List.mem_cons_of_mem batch member)]
      congr 1
      rw [ApplyTxSorter_eq]
      apply platform.sorter.sort_congr _ first
      intro left inLeft right inRight equal
      exact collisionFree batch List.mem_cons_self left inLeft right inRight
        (xor_injective setHash _ _ equal)

theorem sortForApply_congr (frame other : TxSetFrame platform)
    (samePrevious : frame.mPreviousLedgerHash = other.mPreviousLedgerHash)
    (same : frame.mTransactions.Perm other.mTransactions)
    (distinct : DistinctSequence frame.mTransactions)
    (collisionFree : CollisionFree platform frame.mTransactions) :
    frame.sortForApply = other.sortForApply := by
  have otherFree : CollisionFree platform other.mTransactions := by
    intro first inFirst second inSecond
    exact collisionFree first (same.mem_iff.mpr inFirst) second (same.mem_iff.mpr inSecond)
  have sameHash : frame.getContentsHash.2 = other.getContentsHash.2 := by
    rw [frame.getContentsHash_eq collisionFree, other.getContentsHash_eq otherFree, samePrevious]
    congr 1
    apply platform.sorter.sort_congr _ same
    intro first inFirst second inSecond equal
    exact collisionFree first inFirst second inSecond (BitVec.eq_of_toNat_eq equal)
  have accounts : frame.queuedAccounts.Perm other.queuedAccounts := by
    rw [List.perm_ext_iff_of_nodup frame.queuedAccounts_nodup other.queuedAccounts_nodup]
    intro id
    rw [mem_queuedAccounts, mem_queuedAccounts]
    simp only [same.mem_iff]
  have queues : frame.buildAccountTxQueues.Perm other.buildAccountTxQueues := by
    rw [buildAccountTxQueues_eq, buildAccountTxQueues_eq]
    have equal : (fun id => (id, queueOf platform frame.mTransactions id)) =
        fun id => (id, queueOf platform other.mTransactions id) := by
      funext id
      rw [queueOf_congr same distinct id]
    rw [equal]
    exact accounts.map _
  have within : ∀ batch ∈ txBatches frame.buildAccountTxQueues, CollisionFree platform batch := by
    intro batch inBatches first inFirst second inSecond
    have listed : ∀ tx ∈ batch, tx ∈ frame.mTransactions := by
      intro tx inBatch
      apply (frame.queues_perm).mem_iff.mp
      apply (txBatches_flatten frame.buildAccountTxQueues).mem_iff.mp
      exact List.mem_flatten.mpr ⟨batch, inBatches, inBatch⟩
    exact collisionFree first (listed first inFirst) second (listed second inSecond)
  unfold sortForApply
  dsimp only
  rw [sameHash, sortBatches_congr _ (txBatches_perm _ _ queues) within]

/-- A set is applied in an order that its transactions alone decide. -/
theorem sortForApply_canonical (frame other : TxSetFrame platform)
    (samePrevious : frame.mPreviousLedgerHash = other.mPreviousLedgerHash)
    (same : frame.mTransactions.Perm other.mTransactions)
    (collisionFree : CollisionFree platform frame.mTransactions) :
    (DistinctSequence frame.mTransactions → frame.sortForApply = other.sortForApply) ∧
    frame.sortForApply.Perm frame.mTransactions ∧
    ∀ id, ((ofAccount id frame.mTransactions).map fun tx => tx.tx.seqNum).Nodup →
      (ofAccount id frame.sortForApply).Pairwise fun left right => left.tx.seqNum < right.tx.seqNum := by
  refine ⟨?_, frame.sortForApply_perm, ?_⟩
  · intro distinct
    exact frame.sortForApply_congr other samePrevious same distinct collisionFree
  · intro id distinct
    rw [sortForApply_ofAccount]
    have numbers : ((queueOf platform frame.mTransactions id).map fun tx => tx.tx.seqNum).Nodup :=
      ((queueOf_perm frame.mTransactions id).map _).nodup_iff.mpr distinct
    have different := List.pairwise_map.mp numbers
    apply ((queueOf_sorted frame.mTransactions id).and different).imp
    intro left right both
    exact lt_of_le_of_ne both.1 both.2

/-- A platform that takes the fee of a transaction for its hash. -/
def feePlatform : SetPlatform where
  env := { crypto := ⟨fun _ _ _ => true, fun _ => 0⟩, contentsHash := fun _ => 0,
           book := ⟨fun _ _ => false⟩ }
  getFullHash tx := BitVec.ofNat 256 tx.tx.fee
  sha256 _ _ := 0
  sorter := stableSorter TransactionEnvelope
  iterate ids := ids
  iterate_perm _ := List.Perm.refl _

def bareTransaction (fee : Nat) (seqNum : SequenceNumber) : TransactionEnvelope :=
  { tx := { sourceAccount := 1, fee, seqNum, timeBounds := none, operations := [] }
    signatures := [] }

theorem bareTransactions_collisionFree (first second : SequenceNumber) :
    CollisionFree feePlatform [bareTransaction 1 first, bareTransaction 2 second] := by
  intro left inLeft right inRight same
  simp only [List.mem_cons, List.not_mem_nil, or_false] at inLeft inRight
  have different : BitVec.ofNat 256 1 ≠ BitVec.ofNat 256 2 := by decide
  rcases inLeft with rfl | rfl <;> rcases inRight with rfl | rfl
  · rfl
  · exact absurd same different
  · exact absurd same.symm different
  · rfl

/-- Two transactions of one account, put into a set in either order. -/
theorem sortForApply_canonical_swapped :
    (ofTransactions 0 [bareTransaction 1 8, bareTransaction 2 7] :
      TxSetFrame feePlatform).sortForApply =
    (ofTransactions 0 [bareTransaction 2 7, bareTransaction 1 8] :
      TxSetFrame feePlatform).sortForApply := by
  have canonical := sortForApply_canonical
    (ofTransactions 0 [bareTransaction 1 8, bareTransaction 2 7] : TxSetFrame feePlatform)
    (ofTransactions 0 [bareTransaction 2 7, bareTransaction 1 8]) rfl (List.Perm.swap _ _ _)
    (bareTransactions_collisionFree 8 7)
  apply canonical.1
  intro left inLeft right inRight _ same
  simp only [ofTransactions, List.mem_cons, List.not_mem_nil, or_false] at inLeft inRight
  rcases inLeft with rfl | rfl <;> rcases inRight with rfl | rfl
  · rfl
  · exact absurd same (by decide)
  · exact absurd same (by decide)
  · rfl

/-- With the same sequence number they are applied in the order they came in. -/
theorem sortForApply_repeatedNumber :
    ∃ frame other : TxSetFrame feePlatform,
      frame.mPreviousLedgerHash = other.mPreviousLedgerHash ∧
      frame.mTransactions.Perm other.mTransactions ∧
      CollisionFree feePlatform frame.mTransactions ∧
      frame.sortForApply ≠ other.sortForApply := by
  refine ⟨ofTransactions 0 [bareTransaction 1 7, bareTransaction 2 7],
    ofTransactions 0 [bareTransaction 2 7, bareTransaction 1 7], rfl, List.Perm.swap _ _ _,
    bareTransactions_collisionFree 7 7, ?_⟩
  intro same
  have queues := sortForApply_ofAccount
    (ofTransactions 0 [bareTransaction 1 7, bareTransaction 2 7] : TxSetFrame feePlatform) 1
  rw [same, sortForApply_ofAccount] at queues
  revert queues
  decide

end ViiCore.Herder.TxSetFrame
