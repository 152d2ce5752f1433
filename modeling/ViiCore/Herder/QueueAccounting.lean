import ViiCore.Herder.TransactionQueue

/-!
The accounts of the transaction queue: cached totals are the totals of what is pending, a
transaction has one age, and it is banned for `banDepth` shifts after it grew too old.
-/

namespace ViiCore.Herder.TransactionQueue

open ViiCore.Ledger ViiCore.FiniteMap ViiCore.Execution ViiCore.Transactions TxSetFrame

variable {platform : SetPlatform}

/-! ### Cached totals -/

/-- The totals of a collection of transactions; no transactions count as number 0. -/
structure Counts (info : AccountTxQueueInfo) (txs : List TransactionEnvelope) : Prop where
  fees : info.mTotalFees = feeBids txs
  nonneg : (0 : Int) ≤ info.mMaxSeq
  atLeast : ∀ tx ∈ txs, tx.tx.seqNum ≤ info.mMaxSeq
  reached : info.mMaxSeq = 0 ∨ ∃ tx ∈ txs, tx.tx.seqNum = info.mMaxSeq

theorem Counts.nil : Counts .empty [] where
  fees := rfl
  nonneg := le_rfl
  atLeast _ impossible := by cases impossible
  reached := .inl rfl

theorem Counts.snoc {info : AccountTxQueueInfo} {txs : List TransactionEnvelope}
    (counts : Counts info txs) (tx : TransactionEnvelope) :
    Counts (info.count tx) (txs ++ [tx]) where
  fees := by
    rw [feeBids_append, ← counts.fees]
    simp [AccountTxQueueInfo.count, feeBids]
  nonneg := counts.nonneg.trans (le_max_right _ _)
  atLeast other member := by
    rcases List.mem_append.mp member with early | last
    · exact (counts.atLeast other early).trans (le_max_right _ _)
    · rw [List.mem_singleton.mp last]
      exact le_max_left _ _
  reached := by
    rcases le_total info.mMaxSeq tx.tx.seqNum with above | below
    · right
      exact ⟨tx, by simp, (max_eq_left above).symm⟩
    · have same : (info.count tx).mMaxSeq = info.mMaxSeq := max_eq_right below
      rw [same]
      rcases counts.reached with zero | ⟨other, member, equal⟩
      · exact .inl zero
      · exact .inr ⟨other, List.mem_append_left _ member, equal⟩

theorem Counts.perm {info : AccountTxQueueInfo} {txs other : List TransactionEnvelope}
    (counts : Counts info txs) (same : txs.Perm other) : Counts info other where
  fees := by
    rw [counts.fees]
    exact (same.map _).sum_eq
  nonneg := counts.nonneg
  atLeast tx member := counts.atLeast tx (same.mem_iff.mpr member)
  reached := by
    rcases counts.reached with zero | ⟨tx, member, equal⟩
    · exact .inl zero
    · exact .inr ⟨tx, same.mem_iff.mp member, equal⟩

theorem Counts.append {info other : AccountTxQueueInfo} {txs more : List TransactionEnvelope}
    (counts : Counts info txs) (moreCounts : Counts other more) :
    Counts { mTotalFees := info.mTotalFees + other.mTotalFees
             mMaxSeq := max info.mMaxSeq other.mMaxSeq } (txs ++ more) where
  fees := by
    rw [feeBids_append, counts.fees, moreCounts.fees]
  nonneg := counts.nonneg.trans (le_max_left _ _)
  atLeast tx member := by
    rcases List.mem_append.mp member with early | late
    · exact (counts.atLeast tx early).trans (le_max_left _ _)
    · exact (moreCounts.atLeast tx late).trans (le_max_right _ _)
  reached := by
    simp only
    rcases le_total info.mMaxSeq other.mMaxSeq with above | below
    · rw [max_eq_right above]
      rcases moreCounts.reached with zero | ⟨tx, member, equal⟩
      · exact .inl zero
      · exact .inr ⟨tx, List.mem_append_right _ member, equal⟩
    · rw [max_eq_left below]
      rcases counts.reached with zero | ⟨tx, member, equal⟩
      · exact .inl zero
      · exact .inr ⟨tx, List.mem_append_left _ member, equal⟩

def stored (map : TxMap) : List TransactionEnvelope := map.mTransactions.entries.map Sigma.snd

theorem recalculate_counts (map : TxMap) : Counts map.recalculate.mCurrentQInfo (stored map) := by
  have general : ∀ (entries : List (Sigma fun _ : Hash => TransactionEnvelope))
      (info : AccountTxQueueInfo) (txs : List TransactionEnvelope), Counts info txs →
      Counts (entries.foldl (fun info entry => info.count entry.2) info)
        (txs ++ entries.map Sigma.snd) := by
    intro entries
    induction entries with
    | nil =>
        intro info txs counts
        simpa using counts
    | cons entry rest ih =>
        intro info txs counts
        have next := ih (info.count entry.2) (txs ++ [entry.2]) (counts.snoc entry.2)
        simpa using next
  exact general map.mTransactions.entries .empty [] Counts.nil

/-! ### Maps of one age -/

/-- Every transaction of the map of an account is stored under its own hash, belongs to the
account, has been submitted, and has a positive sequence number. -/
structure MapValid (platform : SetPlatform) (submitted : List TransactionEnvelope) (id : AccountID)
    (map : TxMap) : Prop where
  nonempty : stored map ≠ []
  counts : Counts map.mCurrentQInfo (stored map)
  keyed : ∀ hash tx, map.mTransactions.lookup hash = some tx → hash = platform.getFullHash tx
  owned : ∀ tx ∈ stored map, sourceOf tx = id ∧ tx ∈ submitted ∧ (0 : Int) < tx.tx.seqNum

def AgeValid (platform : SetPlatform) (submitted : List TransactionEnvelope) (txs : AccountTxMap) :
    Prop :=
  ∀ id map, txs.lookup id = some map → MapValid platform submitted id map

def Holds (txs : AccountTxMap) (tx : TransactionEnvelope) : Prop :=
  ∃ map, txs.lookup (sourceOf tx) = some map ∧ tx ∈ stored map

theorem mem_stored {map : TxMap} {tx : TransactionEnvelope} :
    tx ∈ stored map ↔ ∃ hash, map.mTransactions.lookup hash = some tx := by
  unfold stored
  rw [List.mem_map]
  constructor
  · rintro ⟨⟨hash, other⟩, member, rfl⟩
    exact ⟨hash, AList.mem_lookup_iff.mpr member⟩
  · rintro ⟨hash, found⟩
    exact ⟨⟨hash, tx⟩, AList.mem_lookup_iff.mp found, rfl⟩

theorem MapValid.lookup {submitted : List TransactionEnvelope} {id : AccountID} {map : TxMap}
    (valid : MapValid platform submitted id map) {tx : TransactionEnvelope} (member : tx ∈ stored map) :
    map.mTransactions.lookup (platform.getFullHash tx) = some tx := by
  obtain ⟨hash, found⟩ := mem_stored.mp member
  rw [← valid.keyed hash tx found]
  exact found

theorem AgeValid.contains {submitted : List TransactionEnvelope} {txs : AccountTxMap}
    (valid : AgeValid platform submitted txs) {tx : TransactionEnvelope} (held : Holds txs tx) :
    holds platform txs tx := by
  obtain ⟨map, found, member⟩ := held
  unfold holds
  have located : txs.lookup tx.tx.sourceAccount = some map := found
  rw [located]
  simp [(valid _ _ found).lookup member]

/-! ### Adding -/

theorem stored_insert {map : TxMap} {hash : Hash} (tx : TransactionEnvelope)
    (absent : map.mTransactions.lookup hash = none) (info : AccountTxQueueInfo) :
    stored { mCurrentQInfo := info, mTransactions := map.mTransactions.insert hash tx } =
      tx :: stored map := by
  unfold stored
  have missing : hash ∉ map.mTransactions := AList.lookup_eq_none.mp absent
  rw [AList.entries_insert_of_notMem missing]
  rfl

theorem addTx_valid {submitted : List TransactionEnvelope} {map : TxMap} (tx : TransactionEnvelope)
    (valid : map = .empty ∨ MapValid platform submitted (sourceOf tx) map)
    (absent : map.mTransactions.lookup (platform.getFullHash tx) = none)
    (known : tx ∈ submitted) (positive : (0 : Int) < tx.tx.seqNum) :
    MapValid platform submitted (sourceOf tx) (map.addTx platform tx) ∧
      stored (map.addTx platform tx) = tx :: stored map := by
  have added : map.addTx platform tx =
      { mCurrentQInfo := map.mCurrentQInfo.count tx
        mTransactions := map.mTransactions.insert (platform.getFullHash tx) tx } := by
    unfold TxMap.addTx
    rw [absent]
    rfl
  have all := stored_insert tx absent (map.mCurrentQInfo.count tx)
  rw [← added] at all
  have counts : Counts map.mCurrentQInfo (stored map) := by
    rcases valid with rfl | valid
    · exact Counts.nil
    · exact valid.counts
  have owned : ∀ other ∈ stored map,
      sourceOf other = sourceOf tx ∧ other ∈ submitted ∧ (0 : Int) < other.tx.seqNum := by
    rcases valid with rfl | valid
    · intro other impossible
      cases impossible
    · exact valid.owned
  have keyed : ∀ hash other, map.mTransactions.lookup hash = some other →
      hash = platform.getFullHash other := by
    rcases valid with rfl | valid
    · intro hash other impossible
      cases impossible
    · exact valid.keyed
  refine ⟨⟨?_, ?_, ?_, ?_⟩, all⟩
  · rw [all]
    exact List.cons_ne_nil _ _
  · rw [all, added]
    exact (counts.snoc tx).perm (List.perm_append_singleton _ _)
  · intro hash other found
    rw [added] at found
    by_cases same : hash = platform.getFullHash tx
    · subst same
      rw [AList.lookup_insert] at found
      cases found
      rfl
    · rw [AList.lookup_insert_ne same] at found
      exact keyed hash other found
  · intro other member
    rw [all] at member
    rcases List.mem_cons.mp member with rfl | old
    · exact ⟨rfl, known, positive⟩
    · exact owned other old

/-! ### Ages and bans -/

/-- What holds of the queue between calls: the maps of every age are valid, a transaction has
one age, and a pending transaction is not banned. -/
structure Consistent (platform : SetPlatform) (submitted : List TransactionEnvelope)
    (queue : TransactionQueue) : Prop where
  aged : ∀ txs ∈ queue.mPendingTransactions, AgeValid platform submitted txs
  oneAge : queue.mPendingTransactions.Pairwise fun young old =>
    ∀ tx, Holds young tx → ¬ Holds old tx
  unbanned : ∀ txs ∈ queue.mPendingTransactions, ∀ tx, Holds txs tx →
    queue.isBanned (platform.getFullHash tx) = false

theorem AgeValid.empty (submitted : List TransactionEnvelope) : AgeValid platform submitted ∅ := by
  intro id map found
  cases found

theorem not_holds_empty (tx : TransactionEnvelope) : ¬ Holds ∅ tx := by
  intro held
  obtain ⟨map, found, _⟩ := held
  cases found

theorem AgeValid.submitted {submitted : List TransactionEnvelope} {txs : AccountTxMap}
    (valid : AgeValid platform submitted txs) {tx : TransactionEnvelope} (held : Holds txs tx) :
    tx ∈ submitted := by
  obtain ⟨map, found, member⟩ := held
  exact ((valid _ _ found).owned tx member).2.1

theorem Consistent.ofDepths (pendingDepth banDepth : Nat) (submitted : List TransactionEnvelope) :
    Consistent platform submitted (ofDepths pendingDepth banDepth) where
  aged txs member := by
    rw [List.eq_of_mem_replicate member]
    exact AgeValid.empty submitted
  oneAge := by
    apply List.pairwise_replicate.mpr
    right
    intro tx held
    exact (not_holds_empty tx held).elim
  unbanned txs member tx held := by
    rw [List.eq_of_mem_replicate member] at held
    exact (not_holds_empty tx held).elim

theorem addToYoungest_consistent {submitted : List TransactionEnvelope} {queue : TransactionQueue}
    (consistent : Consistent platform submitted queue) (tx : TransactionEnvelope)
    (allowed : queue.isBanned (platform.getFullHash tx) = false)
    (missing : queue.contains platform tx = false) (known : tx ∈ submitted)
    (positive : (0 : Int) < tx.tx.seqNum) :
    Consistent platform submitted (queue.addToYoungest platform tx) := by
  obtain ⟨pending, banned⟩ := queue
  cases pending with
  | nil => exact consistent
  | cons youngest older =>
      obtain ⟨aged, oneAge, unbanned⟩ := consistent
      obtain ⟨apart, oneAge⟩ := List.pairwise_cons.mp oneAge
      unfold contains at missing
      rw [List.any_cons, Bool.or_eq_false_iff] at missing
      obtain ⟨missingYoungest, missingOlder⟩ := missing
      -- the map of the account, which is a new one where the account has none yet
      obtain ⟨map, is, valid, absent⟩ : ∃ map, map = (youngest.lookup (sourceOf tx)).getD .empty ∧
          (map = .empty ∨ MapValid platform submitted (sourceOf tx) map) ∧
          map.mTransactions.lookup (platform.getFullHash tx) = none := by
        refine ⟨_, rfl, ?_⟩
        cases found : youngest.lookup (sourceOf tx) with
        | none => exact ⟨.inl rfl, rfl⟩
        | some map =>
            constructor
            · right
              exact aged youngest List.mem_cons_self _ _ found
            · have located : youngest.lookup tx.tx.sourceAccount = some map := found
              unfold holds at missingYoungest
              rw [located] at missingYoungest
              exact Option.isNone_iff_eq_none.mp (by simpa using missingYoungest)
      obtain ⟨joined, all⟩ := addTx_valid tx valid absent known positive
      have grown : ∀ other, Holds (youngest.insert (sourceOf tx) (map.addTx platform tx)) other →
          other = tx ∨ Holds youngest other := by
        rintro other ⟨otherMap, found, member⟩
        by_cases same : sourceOf other = sourceOf tx
        · rw [same, AList.lookup_insert] at found
          cases found
          rw [all] at member
          rcases List.mem_cons.mp member with rfl | old
          · exact .inl rfl
          · right
            refine ⟨map, ?_, old⟩
            rw [same]
            cases found : youngest.lookup (sourceOf tx) with
            | none =>
                rw [is, found] at old
                cases old
            | some there =>
                rw [is, found]
                rfl
        · rw [AList.lookup_insert_ne same] at found
          exact .inr ⟨otherMap, found, member⟩
      have step : addToYoungest platform ⟨youngest :: older, banned⟩ tx =
          ⟨youngest.insert (sourceOf tx) (map.addTx platform tx) :: older, banned⟩ := by
        rw [is]
        rfl
      rw [step]
      constructor
      · intro txs member
        rcases List.mem_cons.mp member with rfl | member
        · intro id other found
          by_cases same : id = sourceOf tx
          · subst same
            rw [AList.lookup_insert] at found
            cases found
            exact joined
          · rw [AList.lookup_insert_ne same] at found
            exact aged youngest List.mem_cons_self _ _ found
        · exact aged txs (List.mem_cons_of_mem _ member)
      · apply List.pairwise_cons.mpr
        constructor
        · intro old member other held
          rcases grown other held with rfl | held
          · intro there
            have present := (aged old (List.mem_cons_of_mem _ member)).contains there
            have absent := List.any_eq_false.mp missingOlder old member
            exact absent present
          · exact apart old member other held
        · exact oneAge
      · intro txs member other held
        rcases List.mem_cons.mp member with rfl | member
        · rcases grown other held with rfl | held
          · exact allowed
          · exact unbanned youngest List.mem_cons_self other held
        · exact unbanned txs (List.mem_cons_of_mem _ member) other held

/-! ### Totals of an account -/

def storedFor (id : AccountID) (txs : AccountTxMap) : List TransactionEnvelope :=
  ((txs.lookup id).map stored).getD []

def pendingFor (queue : TransactionQueue) (id : AccountID) : List TransactionEnvelope :=
  queue.mPendingTransactions.flatMap (storedFor id)

theorem addInfo_counts {submitted : List TransactionEnvelope} {id : AccountID} {txs : AccountTxMap}
    (valid : AgeValid platform submitted txs) {info : AccountTxQueueInfo}
    {before : List TransactionEnvelope} (counts : Counts info before) :
    Counts (addInfo id info txs) (before ++ storedFor id txs) := by
  unfold addInfo storedFor
  cases found : txs.lookup id with
  | none =>
      rw [Option.map_none, Option.getD_none, List.append_nil]
      exact counts
  | some map => exact counts.append (valid id map found).counts

theorem getAccountTransactionQueueInfo_counts {submitted : List TransactionEnvelope}
    {queue : TransactionQueue} (consistent : Consistent platform submitted queue) (id : AccountID) :
    Counts (queue.getAccountTransactionQueueInfo id) (queue.pendingFor id) := by
  have general : ∀ (ages : List AccountTxMap) (info : AccountTxQueueInfo)
      (before : List TransactionEnvelope),
      (∀ txs ∈ ages, AgeValid platform submitted txs) → Counts info before →
      Counts (ages.foldl (addInfo id) info) (before ++ ages.flatMap (storedFor id)) := by
    intro ages
    induction ages with
    | nil =>
        intro info before _ counts
        rw [List.flatMap_nil, List.append_nil]
        exact counts
    | cons txs rest ih =>
        intro info before valid counts
        rw [List.foldl_cons, List.flatMap_cons, ← List.append_assoc]
        apply ih
        · intro other member
          exact valid other (List.mem_cons_of_mem _ member)
        · exact addInfo_counts (valid txs List.mem_cons_self) counts
  exact general queue.mPendingTransactions .empty [] consistent.aged Counts.nil

theorem mem_storedFor {submitted : List TransactionEnvelope} {id : AccountID} {txs : AccountTxMap}
    (valid : AgeValid platform submitted txs) {tx : TransactionEnvelope} (member : tx ∈ storedFor id txs) :
    Holds txs tx ∧ (0 : Int) < tx.tx.seqNum := by
  unfold storedFor at member
  cases found : txs.lookup id with
  | none =>
      rw [found] at member
      cases member
  | some map =>
      rw [found] at member
      obtain ⟨own, _, positive⟩ := (valid id map found).owned tx member
      refine ⟨⟨map, ?_, member⟩, positive⟩
      rw [own]
      exact found

theorem Counts.isGreatest {info : AccountTxQueueInfo} {txs : List TransactionEnvelope}
    (counts : Counts info txs) (nonempty : txs ≠ [])
    (positive : ∀ tx ∈ txs, (0 : Int) < tx.tx.seqNum) :
    IsGreatest { seq : Int | ∃ tx ∈ txs, tx.tx.seqNum = seq } info.mMaxSeq := by
  constructor
  · rcases counts.reached with zero | reached
    · obtain ⟨tx, member⟩ := List.exists_mem_of_ne_nil txs nonempty
      have below := counts.atLeast tx member
      rw [zero] at below
      exact absurd (positive tx member) (not_lt.mpr below)
    · exact reached
  · rintro seq ⟨tx, member, rfl⟩
    exact counts.atLeast tx member

/-! ### The calls -/

/-- A transaction that is added has a positive number: that of its account, or the largest
pending one, has been increased. -/
theorem FollowsSequence.positive {ledger : Ledger} {tx : TransactionEnvelope}
    {current : SequenceNumber} (follows : FollowsSequence ledger tx current)
    (sequences : SequencesValid ledger) (nonneg : (0 : Int) ≤ current) :
    (0 : Int) < tx.tx.seqNum := by
  obtain ⟨account, found, good⟩ := follows
  have own : (0 : Int) ≤ account.seqNum := sequences _ account found
  simp only [isBadSeq, decide_eq_false_iff_not, not_or, not_not] at good
  have next := good.2
  split at next
  · rw [← next]
    exact Int.lt_add_one_of_le own
  · rw [← next]
    exact Int.lt_add_one_of_le nonneg

theorem tryAdd_cases (platform : SetPlatform) (queue : TransactionQueue) (tx : TransactionEnvelope) (ledger : Ledger) :
    (∃ result, queue.tryAdd platform tx ledger = .ok (queue, result) ledger) ∨
    (queue.tryAdd platform tx ledger =
        .ok (queue.addToYoungest platform tx, .ADD_STATUS_PENDING) ledger ∧
      queue.isBanned (platform.getFullHash tx) = false ∧
      queue.contains platform tx = false ∧
      FollowsSequence ledger tx
        (queue.getAccountTransactionQueueInfo tx.tx.sourceAccount).mMaxSeq) := by
  unfold tryAdd
  cases banned : queue.isBanned (platform.getFullHash tx) with
  | true => exact .inl ⟨_, rfl⟩
  | false =>
      cases present : queue.contains platform tx with
      | true => exact .inl ⟨_, rfl⟩
      | false =>
          simp only [Bool.false_eq_true, if_false]
          rw [bind_of_ok (checkValid_eq platform.env ledger _ tx)]
          cases valid : isValidAfter platform.env ledger
              (queue.getAccountTransactionQueueInfo tx.tx.sourceAccount).mMaxSeq tx with
          | false => exact .inl ⟨_, rfl⟩
          | true =>
              obtain ⟨account, found, _⟩ := isValidAfter_follows valid
              have header : loadHeader ledger = .ok ledger.header ledger := rfl
              have source : accountTable.current tx.tx.sourceAccount ledger = .ok account ledger :=
                current_ok found
              have available : computed (getAvailableBalanceOfAccount ledger.header account) ledger =
                  .ok (availableBalance ledger.header account) ledger := by
                rw [getAvailableBalanceOfAccount_eq]
                rfl
              simp only [not_true_eq_false, if_false]
              rw [bind_of_ok header, bind_of_ok source, bind_of_ok available]
              split
              · exact .inl ⟨_, rfl⟩
              · exact .inr ⟨rfl, trivial, trivial, isValidAfter_follows valid⟩

theorem perform_of_ok {queue after : TransactionQueue} {tx : TransactionEnvelope} {ledger left : Ledger}
    {result : AddResult} (ran : queue.tryAdd platform tx ledger = .ok (after, result) left) :
    queue.perform platform (.tryAdd tx ledger) = after := by
  simp only [perform, ran]

theorem tryAdd_consistent {submitted : List TransactionEnvelope} {queue : TransactionQueue}
    (consistent : Consistent platform submitted queue) {tx : TransactionEnvelope} {ledger : Ledger}
    (sequences : SequencesValid ledger) (known : tx ∈ submitted) :
    Consistent platform submitted (queue.perform platform (.tryAdd tx ledger)) := by
  rcases queue.tryAdd_cases platform tx ledger with ⟨result, ran⟩ | ⟨ran, allowed, missing, follows⟩
  · rw [perform_of_ok ran]
    exact consistent
  · rw [perform_of_ok ran]
    have counts := getAccountTransactionQueueInfo_counts consistent tx.tx.sourceAccount
    exact addToYoungest_consistent consistent tx allowed missing known
      (FollowsSequence.positive follows sequences counts.nonneg)

/-- The maps of one age while transactions are dropped: the totals of an account that has
lost some are out of date until it is recalculated. -/
structure Dropping (platform : SetPlatform) (submitted : List TransactionEnvelope)
    (before txs : AccountTxMap) (toRecalculate : List AccountID) : Prop where
  recalculated : ∀ id map, txs.lookup id = some map →
    MapValid platform submitted id map.recalculate
  upToDate : ∀ id map, txs.lookup id = some map →
    id ∈ toRecalculate ∨ MapValid platform submitted id map
  within : ∀ tx, Holds txs tx → Holds before tx

theorem MapValid.recalculated {submitted : List TransactionEnvelope} {id : AccountID} {map : TxMap}
    (valid : MapValid platform submitted id map) : MapValid platform submitted id map.recalculate where
  nonempty := valid.nonempty
  counts := recalculate_counts map
  keyed := valid.keyed
  owned := valid.owned

theorem AgeValid.dropping {submitted : List TransactionEnvelope} {txs : AccountTxMap}
    (valid : AgeValid platform submitted txs) : Dropping platform submitted txs txs [] where
  recalculated id map found := (valid id map found).recalculated
  upToDate id map found := .inr (valid id map found)
  within _ held := held

theorem stored_erase {map : TxMap} {hash : Hash} {tx : TransactionEnvelope}
    (member : tx ∈ stored { map with mTransactions := map.mTransactions.erase hash }) :
    tx ∈ stored map := by
  obtain ⟨other, found⟩ := mem_stored.mp member
  by_cases same : other = hash
  · subst same
    rw [AList.lookup_erase] at found
    cases found
  · rw [AList.lookup_erase_ne same] at found
    exact mem_stored.mpr ⟨other, found⟩

theorem dropTx_dropping {submitted : List TransactionEnvelope} {before : AccountTxMap}
    {state : AccountTxMap × List AccountID} (tx : TransactionEnvelope)
    (dropping : Dropping platform submitted before state.1 state.2) :
    Dropping platform submitted before (dropTx platform state tx).1 (dropTx platform state tx).2 := by
  unfold dropTx
  split
  · exact dropping
  · rename_i map found
    split
    · exact dropping
    · simp only
      split
      · -- the account is left without transactions
        have elsewhere : ∀ id other, (state.1.erase tx.tx.sourceAccount).lookup id = some other →
            state.1.lookup id = some other := by
          intro id other there
          by_cases same : id = tx.tx.sourceAccount
          · rw [same, AList.lookup_erase] at there
            cases there
          · rw [AList.lookup_erase_ne same] at there
            exact there
        constructor
        · intro id other there
          exact dropping.recalculated id other (elsewhere id other there)
        · intro id other there
          exact dropping.upToDate id other (elsewhere id other there)
        · rintro other ⟨otherMap, there, member⟩
          exact dropping.within other ⟨otherMap, elsewhere _ _ there, member⟩
      · rename_i nonempty
        have valid := dropping.recalculated _ _ found
        constructor
        · intro id other there
          by_cases same : id = tx.tx.sourceAccount
          · rw [same, AList.lookup_insert] at there
            cases there
            rw [same]
            constructor
            · intro empty
              exact nonempty (List.map_eq_nil_iff.mp empty)
            · exact recalculate_counts _
            · intro hash kept there
              change (map.mTransactions.erase (platform.getFullHash tx)).lookup hash = some kept at there
              by_cases dropped : hash = platform.getFullHash tx
              · rw [dropped, AList.lookup_erase] at there
                cases there
              · rw [AList.lookup_erase_ne dropped] at there
                exact valid.keyed hash kept there
            · intro kept member
              exact valid.owned kept (stored_erase member)
          · rw [AList.lookup_insert_ne same] at there
            exact dropping.recalculated id other there
        · intro id other there
          by_cases same : id = tx.tx.sourceAccount
          · rw [same]
            exact .inl List.mem_cons_self
          · rw [AList.lookup_insert_ne same] at there
            rcases dropping.upToDate id other there with noted | valid
            · exact .inl (List.mem_cons_of_mem _ noted)
            · exact .inr valid
        · rintro other ⟨otherMap, there, member⟩
          by_cases same : sourceOf other = tx.tx.sourceAccount
          · rw [same, AList.lookup_insert] at there
            cases there
            refine dropping.within other ⟨map, ?_, stored_erase member⟩
            rw [same]
            exact found
          · rw [AList.lookup_insert_ne same] at there
            exact dropping.within other ⟨otherMap, there, member⟩

theorem recalculate_dropping {submitted : List TransactionEnvelope} {before txs : AccountTxMap}
    {id : AccountID} {rest : List AccountID}
    (dropping : Dropping platform submitted before txs (id :: rest)) :
    Dropping platform submitted before (recalculate txs id) rest := by
  unfold recalculate
  split
  · rename_i missing
    constructor
    · exact dropping.recalculated
    · intro other map found
      rcases dropping.upToDate other map found with noted | valid
      · rcases List.mem_cons.mp noted with rfl | noted
        · rw [missing] at found
          cases found
        · exact .inl noted
      · exact .inr valid
    · exact dropping.within
  · rename_i map found
    have valid := dropping.recalculated id map found
    constructor
    · intro other otherMap there
      by_cases same : other = id
      · rw [same, AList.lookup_insert] at there
        cases there
        rw [same]
        exact valid
      · rw [AList.lookup_insert_ne same] at there
        exact dropping.recalculated other otherMap there
    · intro other otherMap there
      by_cases same : other = id
      · rw [same, AList.lookup_insert] at there
        cases there
        rw [same]
        exact .inr valid
      · rw [AList.lookup_insert_ne same] at there
        rcases dropping.upToDate other otherMap there with noted | valid
        · exact .inl (List.mem_of_ne_of_mem same noted)
        · exact .inr valid
    · rintro tx ⟨otherMap, there, member⟩
      by_cases same : sourceOf tx = id
      · rw [same, AList.lookup_insert] at there
        cases there
        refine dropping.within tx ⟨map, ?_, member⟩
        rw [same]
        exact found
      · rw [AList.lookup_insert_ne same] at there
        exact dropping.within tx ⟨otherMap, there, member⟩

theorem removeFrom_valid {submitted : List TransactionEnvelope} {txs : AccountTxMap}
    (valid : AgeValid platform submitted txs) (dropTxs : List TransactionEnvelope) :
    AgeValid platform submitted (removeFrom platform dropTxs txs) ∧
      ∀ tx, Holds (removeFrom platform dropTxs txs) tx → Holds txs tx := by
  have dropped : ∀ (drop : List TransactionEnvelope) (state : AccountTxMap × List AccountID),
      Dropping platform submitted txs state.1 state.2 →
      Dropping platform submitted txs (drop.foldl (dropTx platform) state).1
        (drop.foldl (dropTx platform) state).2 := by
    intro drop
    induction drop with
    | nil => exact fun _ dropping => dropping
    | cons tx rest ih => exact fun state dropping => ih _ (dropTx_dropping tx dropping)
  have recalculated : ∀ (accounts : List AccountID) (left : AccountTxMap),
      Dropping platform submitted txs left accounts →
      Dropping platform submitted txs (accounts.foldl recalculate left) [] := by
    intro accounts
    induction accounts with
    | nil => exact fun _ dropping => dropping
    | cons id rest ih => exact fun left dropping => ih _ (recalculate_dropping dropping)
  have final := recalculated _ _ (dropped dropTxs (txs, []) valid.dropping)
  constructor
  · intro id map found
    rcases final.upToDate id map found with impossible | valid
    · cases impossible
    · exact valid
  · exact final.within

theorem remove_consistent {submitted : List TransactionEnvelope} {queue : TransactionQueue}
    (consistent : Consistent platform submitted queue) (dropTxs : List TransactionEnvelope) :
    Consistent platform submitted (queue.remove platform dropTxs) where
  aged left member := by
    obtain ⟨txs, there, rfl⟩ := List.mem_map.mp member
    exact (removeFrom_valid (consistent.aged txs there) dropTxs).1
  oneAge := by
    apply List.pairwise_map.mpr
    apply consistent.oneAge.imp_of_mem
    intro young old youngThere oldThere apart tx heldYoung heldOld
    exact apart tx ((removeFrom_valid (consistent.aged young youngThere) dropTxs).2 tx heldYoung)
      ((removeFrom_valid (consistent.aged old oldThere) dropTxs).2 tx heldOld)
  unbanned left member tx held := by
    obtain ⟨txs, there, rfl⟩ := List.mem_map.mp member
    exact consistent.unbanned txs there tx
      ((removeFrom_valid (consistent.aged txs there) dropTxs).2 tx held)

theorem mem_hashes {submitted : List TransactionEnvelope} {txs : AccountTxMap}
    (valid : AgeValid platform submitted txs) (hash : Hash) :
    hash ∈ hashes txs ↔ ∃ tx, Holds txs tx ∧ platform.getFullHash tx = hash := by
  unfold hashes
  rw [List.mem_toFinset, List.mem_flatMap]
  constructor
  · rintro ⟨⟨id, map⟩, member, key⟩
    have found : txs.lookup id = some map := AList.mem_lookup_iff.mpr member
    obtain ⟨tx, there⟩ := Option.isSome_iff_exists.mp (AList.lookup_isSome.mpr key)
    have stored : tx ∈ stored map := mem_stored.mpr ⟨hash, there⟩
    refine ⟨tx, ⟨map, ?_, stored⟩, ((valid id map found).keyed hash tx there).symm⟩
    rw [((valid id map found).owned tx stored).1]
    exact found
  · rintro ⟨tx, ⟨map, found, member⟩, rfl⟩
    refine ⟨⟨sourceOf tx, map⟩, AList.mem_lookup_iff.mp found, ?_⟩
    apply AList.lookup_isSome.mp
    rw [(valid _ _ found).lookup member]
    rfl

theorem oldest_mem (queue : TransactionQueue) :
    queue.oldest = ∅ ∨ queue.mPendingTransactions = queue.mPendingTransactions.dropLast ++ [queue.oldest] := by
  unfold oldest
  rcases List.eq_nil_or_concat queue.mPendingTransactions with empty | ⟨young, last, is⟩
  · rw [empty]
    exact .inl rfl
  · rw [is]
    right
    simp

theorem oldest_pending {queue : TransactionQueue} {tx : TransactionEnvelope}
    (held : Holds queue.oldest tx) : queue.oldest ∈ queue.mPendingTransactions := by
  rcases oldest_mem queue with empty | is
  · rw [empty] at held
    exact (not_holds_empty tx held).elim
  · rw [is]
    simp

theorem Consistent.oldest {submitted : List TransactionEnvelope} {queue : TransactionQueue}
    (consistent : Consistent platform submitted queue) : AgeValid platform submitted queue.oldest := by
  rcases oldest_mem queue with empty | is
  · rw [empty]
    exact AgeValid.empty submitted
  · apply consistent.aged
    rw [is]
    simp

theorem isBanned_shift {queue : TransactionQueue} {hash : Hash}
    (banned : queue.shift.isBanned hash = true) :
    hash ∈ hashes queue.oldest ∨ queue.isBanned hash = true := by
  unfold isBanned shift at *
  simp only [List.any_cons, Bool.or_eq_true, decide_eq_true_eq] at banned
  rcases banned with dropped | banned
  · exact .inl dropped
  · right
    obtain ⟨txs, member, there⟩ := List.any_eq_true.mp banned
    exact List.any_eq_true.mpr ⟨txs, List.mem_of_mem_dropLast member, there⟩

theorem shift_consistent {submitted : List TransactionEnvelope} {queue : TransactionQueue}
    (consistent : Consistent platform submitted queue)
    (collisionFree : CollisionFree platform submitted) :
    Consistent platform submitted queue.shift where
  aged txs member := by
    rcases List.mem_cons.mp member with rfl | member
    · exact AgeValid.empty submitted
    · exact consistent.aged txs (List.mem_of_mem_dropLast member)
  oneAge := by
    apply List.pairwise_cons.mpr
    constructor
    · intro old _ tx held
      exact (not_holds_empty tx held).elim
    · exact consistent.oneAge.sublist (List.dropLast_sublist _)
  unbanned txs member tx held := by
    rcases List.mem_cons.mp member with rfl | young
    · exact (not_holds_empty tx held).elim
    · apply Bool.eq_false_iff.mpr
      intro banned
      have there := List.mem_of_mem_dropLast young
      rcases isBanned_shift banned with dropped | banned
      · obtain ⟨other, heldOldest, same⟩ := (mem_hashes consistent.oldest _).mp dropped
        have equal : other = tx :=
          collisionFree other (consistent.oldest.submitted heldOldest) tx
            ((consistent.aged _ there).submitted held) same
        subst equal
        rcases oldest_mem queue with empty | is
        · rw [empty] at heldOldest
          exact not_holds_empty other heldOldest
        · have apart := consistent.oneAge
          rw [is] at apart
          have split := (List.pairwise_append.mp apart).2.2 txs young queue.oldest List.mem_cons_self
          exact split other held heldOldest
      · have free := consistent.unbanned txs there tx held
        rw [banned] at free
        cases free

/-! ### Runs -/

def submitted (calls : List Call) : List TransactionEnvelope :=
  calls.filterMap fun call =>
    match call with
    | .tryAdd tx _ => some tx
    | _ => none

/-- In every ledger of the run the accounts have no negative sequence numbers. -/
def LedgersValid (calls : List Call) : Prop :=
  ∀ tx ledger, Call.tryAdd tx ledger ∈ calls → SequencesValid ledger

def shifts (calls : List Call) : Nat :=
  calls.countP fun call =>
    match call with
    | .shift => true
    | _ => false

theorem perform_consistent {txs : List TransactionEnvelope} {queue : TransactionQueue}
    (consistent : Consistent platform txs queue) (collisionFree : CollisionFree platform txs)
    (call : Call)
    (admissible : ∀ tx ledger, call = .tryAdd tx ledger → SequencesValid ledger ∧ tx ∈ txs) :
    Consistent platform txs (queue.perform platform call) := by
  cases call with
  | tryAdd tx ledger =>
      obtain ⟨sequences, known⟩ := admissible tx ledger rfl
      exact tryAdd_consistent consistent sequences known
  | remove dropTxs => exact remove_consistent consistent dropTxs
  | shift => exact shift_consistent consistent collisionFree

theorem run_consistent {txs : List TransactionEnvelope} (collisionFree : CollisionFree platform txs)
    (calls : List Call) (known : submitted calls ⊆ txs) (ledgers : LedgersValid calls)
    {queue : TransactionQueue} (consistent : Consistent platform txs queue) :
    Consistent platform txs (queue.run platform calls) := by
  induction calls generalizing queue with
  | nil => exact consistent
  | cons call rest ih =>
      apply ih
      · intro tx member
        apply known
        exact List.mem_filterMap.mpr (by
          obtain ⟨other, there, is⟩ := List.mem_filterMap.mp member
          exact ⟨other, List.mem_cons_of_mem _ there, is⟩)
      · intro tx ledger member
        exact ledgers tx ledger (List.mem_cons_of_mem _ member)
      · apply perform_consistent consistent collisionFree
        intro tx ledger is
        subst is
        constructor
        · exact ledgers tx ledger List.mem_cons_self
        · exact known (List.mem_filterMap.mpr ⟨_, List.mem_cons_self, rfl⟩)

theorem tryAdd_banned (queue : TransactionQueue) (tx : TransactionEnvelope) (ledger : Ledger) :
    (queue.perform platform (.tryAdd tx ledger)).mBannedTransactions = queue.mBannedTransactions := by
  rcases queue.tryAdd_cases platform tx ledger with ⟨result, ran⟩ | ⟨ran, _⟩
  · rw [perform_of_ok ran]
  · rw [perform_of_ok ran]
    unfold addToYoungest
    split <;> rfl

theorem run_snoc (queue : TransactionQueue) (calls : List Call) (call : Call) :
    queue.run platform (calls ++ [call]) = (queue.run platform calls).perform platform call := by
  unfold run
  rw [List.foldl_append]
  rfl

theorem run_bannedLength {pendingDepth banDepth : Nat} (some : 0 < banDepth) (calls : List Call) :
    ((ofDepths pendingDepth banDepth).run platform calls).mBannedTransactions.length = banDepth := by
  induction calls using List.reverseRecOn with
  | nil => exact List.length_replicate
  | append_singleton calls call ih =>
      rw [run_snoc]
      cases call with
      | tryAdd tx ledger => rw [tryAdd_banned, ih]
      | remove dropTxs => exact ih
      | shift =>
          change (_ :: List.dropLast _).length = banDepth
          rw [List.length_cons, List.length_dropLast, ih]
          omega

theorem snoc_eq_cut {calls early late : List Call} {call : Call} :
    calls ++ [call] = early ++ .shift :: late ↔
      (late = [] ∧ call = .shift ∧ calls = early) ∨
      ∃ rest, late = rest ++ [call] ∧ calls = early ++ .shift :: rest := by
  constructor
  · intro same
    rcases List.eq_nil_or_concat late with rfl | ⟨rest, last, rfl⟩
    · obtain ⟨equal, is⟩ := List.append_inj' same rfl
      left
      exact ⟨rfl, List.singleton_injective is, equal⟩
    · right
      rw [List.concat_eq_append, ← List.cons_append, ← List.append_assoc] at same
      obtain ⟨equal, is⟩ := List.append_inj' same rfl
      rw [List.concat_eq_append, List.singleton_injective is]
      exact ⟨rest, rfl, equal⟩
  · rintro (⟨rfl, rfl, rfl⟩ | ⟨rest, rfl, rfl⟩)
    · rfl
    · simp

theorem run_banned {pendingDepth banDepth : Nat} (some : 0 < banDepth) (calls : List Call)
    (hash : Hash) (depth : Nat) (within : depth ≤ banDepth) :
    (∃ txs ∈ ((ofDepths pendingDepth banDepth).run platform calls).mBannedTransactions.take depth,
        hash ∈ txs) ↔
      ∃ early late, calls = early ++ .shift :: late ∧ shifts late < depth ∧
        hash ∈ hashes ((ofDepths pendingDepth banDepth).run platform early).oldest := by
  induction calls using List.reverseRecOn generalizing depth with
  | nil =>
      constructor
      · rintro ⟨txs, member, there⟩
        rw [List.eq_of_mem_replicate (List.mem_of_mem_take member)] at there
        cases there
      · rintro ⟨early, late, same, _⟩
        simp at same
  | append_singleton calls call ih =>
      -- a call other than a shift changes neither side
      have other : (∀ rest, shifts (rest ++ [call]) = shifts rest) → call ≠ .shift →
          ((∃ early late, calls = early ++ .shift :: late ∧ shifts late < depth ∧
            hash ∈ hashes ((ofDepths pendingDepth banDepth).run platform early).oldest) ↔
          ∃ early late, calls ++ [call] = early ++ .shift :: late ∧ shifts late < depth ∧
            hash ∈ hashes ((ofDepths pendingDepth banDepth).run platform early).oldest) := by
        intro uncounted different
        constructor
        · rintro ⟨early, late, rfl, few, dropped⟩
          refine ⟨early, late ++ [call], by simp, ?_, dropped⟩
          rw [uncounted]
          exact few
        · rintro ⟨early, late, same, few, dropped⟩
          rcases snoc_eq_cut.mp same with ⟨_, impossible, _⟩ | ⟨rest, rfl, is⟩
          · exact (different impossible).elim
          · rw [uncounted] at few
            exact ⟨early, rest, is, few, dropped⟩
      rw [run_snoc]
      cases call with
      | tryAdd tx ledger =>
          rw [tryAdd_banned, ih depth within]
          apply other
          · intro rest
            simp [shifts]
          · simp
      | remove dropTxs =>
          rw [← other (by intro rest; simp [shifts]) (by simp)]
          exact ih depth within
      | shift =>
          change (∃ txs ∈ (_ :: List.dropLast _).take depth, hash ∈ txs) ↔ _
          cases depth with
          | zero => simp
          | succ depth =>
              have cut : (((ofDepths pendingDepth banDepth).run platform calls).mBannedTransactions.dropLast).take
                  depth = ((ofDepths pendingDepth banDepth).run platform calls).mBannedTransactions.take depth := by
                rw [List.dropLast_eq_take, List.take_take, run_bannedLength some, min_eq_left (by omega)]
              rw [List.take_succ_cons, cut]
              constructor
              · rintro ⟨txs, member, there⟩
                rcases List.mem_cons.mp member with rfl | older
                · exact ⟨calls, [], rfl, Nat.succ_pos _, there⟩
                · obtain ⟨early, late, is, few, dropped⟩ := (ih depth (by omega)).mp ⟨txs, older, there⟩
                  refine ⟨early, late ++ [.shift], by simp [is], ?_, dropped⟩
                  simp only [shifts, List.countP_append] at few ⊢
                  simpa using few
              · rintro ⟨early, late, same, few, dropped⟩
                rcases snoc_eq_cut.mp same with ⟨_, _, rfl⟩ | ⟨rest, rfl, is⟩
                · exact ⟨_, List.mem_cons_self, dropped⟩
                · have fewer : shifts rest < depth := by
                    simp only [shifts, List.countP_append] at few ⊢
                    simpa using few
                  obtain ⟨txs, member, there⟩ := (ih depth (by omega)).mpr ⟨early, rest, is, fewer, dropped⟩
                  exact ⟨txs, List.mem_cons_of_mem _ member, there⟩

theorem isBanned_iff {pendingDepth banDepth : Nat} (some : 0 < banDepth) (calls : List Call)
    (hash : Hash) :
    ((ofDepths pendingDepth banDepth).run platform calls).isBanned hash = true ↔
      ∃ early late, calls = early ++ .shift :: late ∧ shifts late < banDepth ∧
        hash ∈ hashes ((ofDepths pendingDepth banDepth).run platform early).oldest := by
  rw [← run_banned some calls hash banDepth le_rfl, List.take_of_length_le (run_bannedLength some calls).le]
  unfold isBanned
  rw [List.any_eq_true]
  simp only [decide_eq_true_eq]

structure Totals (info : AccountTxQueueInfo) (txs : List TransactionEnvelope) : Prop where
  fees : info.mTotalFees = feeBids txs
  maxSeq : IsGreatest { seq : Int | ∃ tx ∈ txs, tx.tx.seqNum = seq } info.mMaxSeq

/-- The accounts of a queue: the totals reported and cached are those of the transactions that
are pending, none of which is listed twice, has two ages or is banned. -/
structure Accounted (platform : SetPlatform) (queue : TransactionQueue) : Prop where
  reported : ∀ id, queue.pendingFor id ≠ [] →
    Totals (queue.getAccountTransactionQueueInfo id) (queue.pendingFor id)
  cached : ∀ txs ∈ queue.mPendingTransactions, ∀ id map, txs.lookup id = some map →
    Totals map.mCurrentQInfo (stored map)
  once : ∀ id, (queue.pendingFor id).Nodup
  oneAge : queue.mPendingTransactions.Pairwise fun young old =>
    ∀ tx, Holds young tx → ¬ Holds old tx
  unbanned : ∀ txs ∈ queue.mPendingTransactions, ∀ tx, Holds txs tx →
    queue.isBanned (platform.getFullHash tx) = false

theorem MapValid.nodup {txs : List TransactionEnvelope} {id : AccountID} {map : TxMap}
    (valid : MapValid platform txs id map) : (stored map).Nodup := by
  have keys : (map.mTransactions.entries.map Sigma.fst).Nodup := map.mTransactions.nodupKeys
  have different := List.pairwise_map.mp keys
  apply List.pairwise_map.mpr
  apply different.imp_of_mem
  intro first second inFirst inSecond apart same
  apply apart
  rw [valid.keyed first.1 first.2 (AList.mem_lookup_iff.mpr inFirst),
    valid.keyed second.1 second.2 (AList.mem_lookup_iff.mpr inSecond), same]

theorem storedFor_nodup {submitted : List TransactionEnvelope} {txs : AccountTxMap}
    (valid : AgeValid platform submitted txs) (id : AccountID) : (storedFor id txs).Nodup := by
  unfold storedFor
  cases found : txs.lookup id with
  | none => exact List.nodup_nil
  | some map => exact (valid id map found).nodup

theorem Consistent.accounted {submitted : List TransactionEnvelope} {queue : TransactionQueue}
    (consistent : Consistent platform submitted queue) : Accounted platform queue where
  reported id nonempty := by
    have counts := getAccountTransactionQueueInfo_counts consistent id
    refine ⟨counts.fees, counts.isGreatest nonempty ?_⟩
    intro tx member
    obtain ⟨txs, there, held⟩ := List.mem_flatMap.mp member
    exact (mem_storedFor (consistent.aged txs there) held).2
  cached txs member id map found := by
    have valid := consistent.aged txs member id map found
    refine ⟨valid.counts.fees, valid.counts.isGreatest valid.nonempty ?_⟩
    intro tx there
    exact (valid.owned tx there).2.2
  once id := by
    apply List.nodup_flatMap.mpr
    constructor
    · intro txs member
      exact storedFor_nodup (consistent.aged txs member) id
    · apply consistent.oneAge.imp_of_mem
      intro young old youngThere oldThere apart tx inYoung inOld
      exact apart tx (mem_storedFor (consistent.aged young youngThere) inYoung).1
        (mem_storedFor (consistent.aged old oldThere) inOld).1
  oneAge := consistent.oneAge
  unbanned := consistent.unbanned

theorem shifts_append (early late : List Call) :
    shifts (early ++ late) = shifts early + shifts late :=
  List.countP_append

/-- Of two places where the calls can be cut at a shift, the one with fewer shifts after it
comes later. -/
theorem cut_later {before after early late : List Call}
    (same : before ++ .shift :: after = early ++ .shift :: late) (fewer : shifts late < shifts after) :
    ∃ between, early = before ++ .shift :: between ∧ after = between ++ .shift :: late := by
  rcases List.append_eq_append_iff.mp same with ⟨rest, is, tails⟩ | ⟨rest, is, tails⟩
  · cases rest with
    | nil =>
        rw [List.nil_append] at tails
        cases tails
        exact absurd fewer (lt_irrefl _)
    | cons call between =>
        rw [List.cons_append] at tails
        cases tails
        exact ⟨between, is, rfl⟩
  · have longer := congrArg shifts tails
    rw [shifts_append] at longer
    cases rest with
    | nil =>
        rw [List.nil_append] at tails
        cases tails
        exact absurd fewer (lt_irrefl _)
    | cons call between =>
        rw [List.cons_append] at tails
        cases tails
        rw [shifts_append] at fewer
        have counted : shifts (.shift :: after) = shifts after + 1 := by
          simp [shifts]
        omega

/-- Every run of a queue keeps its accounts, and bans what it dropped for `banDepth` shifts: a
transaction banned later than that has been dropped again after its ban ended. -/
theorem run_accounted (platform : SetPlatform) (pendingDepth banDepth : Nat) (some : 0 < banDepth)
    (calls : List Call) (collisionFree : CollisionFree platform (submitted calls))
    (ledgers : LedgersValid calls) :
    Accounted platform ((ofDepths pendingDepth banDepth).run platform calls) ∧
    ∀ before after tx, calls = before ++ .shift :: after →
      Holds ((ofDepths pendingDepth banDepth).run platform before).oldest tx →
      (shifts after < banDepth →
        ((ofDepths pendingDepth banDepth).run platform calls).isBanned
          (platform.getFullHash tx) = true) ∧
      (banDepth ≤ shifts after →
        ((ofDepths pendingDepth banDepth).run platform calls).isBanned
          (platform.getFullHash tx) = true →
        ∃ between late, after = between ++ .shift :: late ∧ banDepth ≤ shifts between ∧
          Holds ((ofDepths pendingDepth banDepth).run platform (before ++ .shift :: between)).oldest
            tx) := by
  have reached : ∀ early late, calls = early ++ late →
      Consistent platform (submitted calls)
        ((ofDepths pendingDepth banDepth).run platform early) := by
    intro early late is
    apply run_consistent collisionFree early
    · rw [is]
      unfold submitted
      rw [List.filterMap_append]
      exact List.subset_append_left _ _
    · intro tx ledger member
      apply ledgers tx ledger
      rw [is]
      exact List.mem_append_left late member
    · exact Consistent.ofDepths pendingDepth banDepth _
  constructor
  · exact (reached calls [] (List.append_nil calls).symm).accounted
  · intro before after tx is held
    have dropped : platform.getFullHash tx ∈
        hashes ((ofDepths pendingDepth banDepth).run platform before).oldest :=
      (mem_hashes (reached before _ is).oldest _).mpr ⟨tx, held, rfl⟩
    constructor
    · intro few
      exact (isBanned_iff some calls _).mpr ⟨before, after, is, few, dropped⟩
    · intro many banned
      obtain ⟨early, late, cut, few, again⟩ := (isBanned_iff some calls _).mp banned
      obtain ⟨between, rfl, rest⟩ := cut_later (is.symm.trans cut) (by omega)
      obtain ⟨other, heldAgain, sameHash⟩ := (mem_hashes (reached _ _ cut).oldest _).mp again
      have equal : other = tx :=
        collisionFree other ((reached _ _ cut).oldest.submitted heldAgain) tx
          ((reached before _ is).oldest.submitted held) sameHash
      subst equal
      refine ⟨between, late, rest, ?_, heldAgain⟩
      -- had the ban not ended, the transaction would not be pending
      by_contra early
      have stillBanned : ((ofDepths pendingDepth banDepth).run platform
          (before ++ .shift :: between)).isBanned (platform.getFullHash other) = true :=
        (isBanned_iff some _ _).mpr ⟨before, between, rfl, not_le.mp early, dropped⟩
      have free := (reached _ _ cut).unbanned _ (oldest_pending heldAgain) other heldAgain
      rw [stillBanned] at free
      cases free

def agedCalls : List Call :=
  [.tryAdd (signedTransaction 7 4) soloLedger, .shift, .tryAdd (signedTransaction 8 5) soloLedger,
    .shift, .tryAdd (signedTransaction 9 6) soloLedger]

/-- The first has grown too old in the second shift and is banned, and the others are pending. -/
theorem run_accounted_aged :
    ((ofDepths 2 2).run feePlatform agedCalls).isBanned
        (feePlatform.getFullHash (signedTransaction 7 4)) = true ∧
      ((ofDepths 2 2).run feePlatform agedCalls).pendingFor 1 =
        [signedTransaction 9 6, signedTransaction 8 5] ∧
      ((ofDepths 2 2).run feePlatform agedCalls).getAccountTransactionQueueInfo 1 = ⟨6, 17⟩ ∧
      Accounted feePlatform ((ofDepths 2 2).run feePlatform agedCalls) := by
  have accounted := run_accounted feePlatform 2 2 (by decide) agedCalls
    (by
      unfold CollisionFree
      decide +kernel)
    (by
      intro tx ledger member
      simp only [agedCalls, List.mem_cons, Call.tryAdd.injEq, reduceCtorEq, List.not_mem_nil, or_false,
        false_or] at member
      obtain ⟨-, rfl⟩ | ⟨-, rfl⟩ | ⟨-, rfl⟩ := member
      all_goals exact soloLedger_sequences)
  have dropped : Holds ((ofDepths 2 2).run feePlatform [.tryAdd (signedTransaction 7 4) soloLedger,
      .shift, .tryAdd (signedTransaction 8 5) soloLedger]).oldest (signedTransaction 7 4) :=
    ⟨_, rfl, by decide⟩
  exact ⟨(accounted.2 _ [.tryAdd (signedTransaction 9 6) soloLedger] _ rfl dropped).1 (by decide),
    by decide +kernel, by decide +kernel, accounted.1⟩

end ViiCore.Herder.TransactionQueue
