import ViiCore.Herder.TxSetValidity

/-!
What a transaction set that passes its check has: the queue of every account is a chain of valid
transactions that the account can pay for. Trimming such a set changes nothing.
-/

namespace ViiCore.Herder.TxSetFrame

open ViiCore.Ledger ViiCore.FiniteMap ViiCore.Sorting ViiCore.Execution ViiCore.Transactions

variable {platform : SetPlatform} {ledger after : Ledger}

section Passed

variable {env : Environment}

/-- The check stops at the first transaction that is not valid after the one before it. -/
theorem checkQueue_passed {queue : AccountTransactionQueue} {check : QueueCheck}
    {result : QueueCheck × Unit}
    (passed : checkQueue env checkHandlers queue check () ledger = .ok (some result) after) :
    Chained env ledger check.lastSeq queue := by
  induction queue generalizing check with
  | nil => trivial
  | cons tx rest ih =>
      unfold checkQueue at passed
      rw [bind_of_ok (checkValid_eq env ledger check.lastSeq tx)] at passed
      by_cases valid : isValidAfter env ledger check.lastSeq tx
      · rw [if_pos valid] at passed
        exact ⟨valid, ih passed⟩
      · rw [if_neg valid] at passed
        cases passed

theorem checkAccount_passed {id : AccountID} {queue : AccountTransactionQueue}
    (own : ∀ tx ∈ queue, sourceOf tx = id)
    (passed : checkAccount env checkHandlers queue () ledger = .ok (some ()) after) :
    after = ledger ∧ Sound env ledger id queue := by
  have chained : Chained env ledger 0 queue := by
    unfold checkAccount at passed
    obtain ⟨found, between, walked, rest⟩ := bind_ok.mp passed
    cases found with
    | none => cases rest
    | some result => exact checkQueue_passed walked
  have nothing := discarded_of_chained env ledger chained
  have handled : ∀ state, ∀ tx ∈ discarded env ledger 0 queue,
      checkHandlers.processInvalidTx state tx = some state := by
    intro state tx impossible
    rw [nothing] at impossible
    cases impossible
  have checked := checkAccount_eq (fun state _ => state) own () handled
  rw [passed, kept_of_chained env ledger chained] at checked
  split at checked
  · rename_i pays
    cases checked
    exact ⟨rfl, own, chained, pays⟩
  · cases checked

theorem checkAccounts_passed {queues : Queues}
    (own : ∀ queue ∈ queues, ∀ tx ∈ queue.2, sourceOf tx = queue.1)
    (passed : checkAccounts env checkHandlers queues () ledger = .ok (some ()) after) :
    after = ledger ∧ ∀ queue ∈ queues, Sound env ledger queue.1 queue.2 := by
  induction queues with
  | nil =>
      cases passed
      exact ⟨rfl, by simp⟩
  | cons queue rest ih =>
      unfold checkAccounts at passed
      obtain ⟨found, between, checked, later⟩ := bind_ok.mp passed
      cases found with
      | none => cases later
      | some result =>
          obtain ⟨rfl, sound⟩ := checkAccount_passed (own queue List.mem_cons_self) checked
          obtain ⟨rfl, sounds⟩ :=
            ih (fun other member => own other (List.mem_cons_of_mem queue member)) later
          refine ⟨rfl, ?_⟩
          intro other member
          rcases List.mem_cons.mp member with rfl | inRest
          · exact sound
          · exact sounds other inRest

end Passed

structure Passed (lclHash : Hash) (ledger : Ledger) (frame : TxSetFrame platform) : Prop where
  previous : frame.mPreviousLedgerHash = lclHash
  size : frame.size ledger.header ≤ ledger.header.maxTxSetSize
  ordered : inHashOrder platform 0 frame.mTransactions
  sound : ∀ id, Sound platform.env ledger id (queueOf platform frame.mTransactions id)

theorem checkValid_passed {frame : TxSetFrame platform} {lclHash : Hash}
    (passed : frame.checkValid lclHash ledger = .ok true after) :
    after = ledger ∧ Passed lclHash ledger frame := by
  unfold checkValid at passed
  obtain ⟨header, between, loaded, rest⟩ := bind_ok.mp passed
  cases loaded
  split at rest
  · cases rest
  · rename_i previous
    split at rest
    · cases rest
    · rename_i size
      obtain ⟨found, last, checked, ends⟩ := bind_ok.mp rest
      cases found with
      | none => cases ends
      | some _ =>
          cases ends
          unfold checkOrTrim at checked
          split at checked
          · rename_i ordered
            obtain ⟨same, sound⟩ :=
              checkAccounts_passed frame.buildAccountTxQueues_owned.sources checked
            refine ⟨same, (not_not.mp previous).symm, not_lt.mp size, ordered, ?_⟩
            intro id
            by_cases queued : id ∈ frame.queuedAccounts
            · apply sound (id, queueOf platform frame.mTransactions id)
              rw [buildAccountTxQueues_eq]
              exact List.mem_map.mpr ⟨id, queued, rfl⟩
            · have empty : queueOf platform frame.mTransactions id = [] := by
                rw [← List.length_eq_zero_iff, (queueOf_perm frame.mTransactions id).length_eq,
                  List.length_eq_zero_iff, ofAccount, List.filter_eq_nil_iff]
                intro tx member own
                exact queued ((frame.mem_queuedAccounts id).mpr ⟨tx, member, by simpa using own⟩)
              rw [empty]
              exact Sound.nil platform.env id
          · cases checked

/-! ### Trimming -/

theorem Passed.sort_eq {frame : TxSetFrame platform} {lclHash : Hash}
    (passed : Passed lclHash ledger frame)
    (collisionFree : CollisionFree platform frame.mTransactions) :
    platform.sorter.sort (HashTxSorter platform) frame.mTransactions = frame.mTransactions := by
  apply eq_of_sorted (fun tx => (platform.getFullHash tx).toNat)
    (platform.sorter.perm _ frame.mTransactions)
  · intro first inFirst second inSecond same
    exact collisionFree first ((platform.sorter.perm _ _).mem_iff.mp inFirst) second
      ((platform.sorter.perm _ _).mem_iff.mp inSecond) (BitVec.eq_of_toNat_eq same)
  · exact platform.sorter.sorted_byKey _ _
  · exact (inHashOrder_zero platform _).mp passed.ordered

theorem Passed.trimInvalid {frame : TxSetFrame platform} {lclHash : Hash}
    (passed : Passed lclHash ledger frame)
    (collisionFree : CollisionFree platform frame.mTransactions) :
    ∃ trimmed : TxSetFrame platform, frame.trimInvalid ledger = .ok (trimmed, []) ledger ∧
      trimmed.getContentsHash.2 =
        platform.sha256 frame.mPreviousLedgerHash frame.mTransactions := by
  have sorted := passed.sort_eq collisionFree
  have ordered : inHashOrder platform 0 frame.sortForHash.mTransactions :=
    sort_inHashOrder platform frame.mTransactions
  have checked : frame.sortForHash.checkOrTrim trimHandlers (frame.sortForHash, []) ledger =
      .ok (some (frame.sortForHash, [])) ledger := by
    unfold checkOrTrim
    rw [if_pos ordered]
    apply checkAccounts_sound
    intro queue member
    rw [buildAccountTxQueues_eq] at member
    obtain ⟨id, _, rfl⟩ := List.mem_map.mp member
    have same : frame.sortForHash.mTransactions = frame.mTransactions := sorted
    rw [same]
    exact passed.sound id
  refine ⟨frame.sortForHash, ?_, ?_⟩
  · unfold TxSetFrame.trimInvalid
    rw [bind_of_ok checked]
    rfl
  · have free : CollisionFree platform frame.sortForHash.mTransactions := by
      change CollisionFree platform (platform.sorter.sort _ _)
      rw [sorted]
      exact collisionFree
    rw [frame.sortForHash.getContentsHash_eq free]
    change platform.sha256 _ (platform.sorter.sort _ (platform.sorter.sort _ _)) = _
    rw [sorted, sorted]
    rfl

end ViiCore.Herder.TxSetFrame
