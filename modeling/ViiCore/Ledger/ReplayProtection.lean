import ViiCore.Ledger.LedgerManager
import ViiCore.Transactions.Conservation

/-!
No transaction is applied twice.

The number every later sequence number of an account is above, `sequenceFloor`, never
falls: not when the account is merged away, not when it is created again and not when a
ledger is closed. A transaction that passes the sequence check raises the floor of its
source to its own number. That the floor is raised also needs that `apply` does not
throw between the check and the end of its first nested transaction; the only step that
could is the removal of a one-time signer, and it cannot as long as the numbers of
sub-entries are exact.
-/

namespace ViiCore.LedgerManager

open ViiCore.Ledger ViiCore.FiniteMap ViiCore.Execution ViiCore.Transactions ViiCore.Herder

variable {ledger : Ledger}

structure Advances (ledgers : Nat) (before after : Ledger) : Prop where
  version : before.header.ledgerVersion ≤ after.header.ledgerVersion
  ledgerSeq : after.header.ledgerSeq = before.header.ledgerSeq + ledgers
  floors : ∀ accountID, sequenceFloor accountID before ≤ sequenceFloor accountID after
  counted : ∀ accountID, surplus accountID after = surplus accountID before
  fits : SubEntriesFit before → SubEntriesFit after

theorem Advances.refl (ledger : Ledger) : Advances 0 ledger ledger where
  version := le_rfl
  ledgerSeq := rfl
  floors _ := le_rfl
  counted _ := rfl
  fits fit := fit

theorem Advances.trans {early late : Nat} {first second third : Ledger}
    (one : Advances early first second) (two : Advances late second third) :
    Advances (early + late) first third where
  version := one.version.trans two.version
  ledgerSeq := by
    rw [two.ledgerSeq, one.ledgerSeq]
    omega
  floors accountID := (one.floors accountID).trans (two.floors accountID)
  counted accountID := (two.counted accountID).trans (one.counted accountID)
  fits fit := two.fits (one.fits fit)

theorem Advances.ofFollows {moves : List Movement} {before after : Ledger}
    (version : 10 ≤ before.header.ledgerVersion) (follows : Follows moves 0 before after) :
    Advances 0 before after where
  version := by rw [follows.header]
  ledgerSeq := by rw [follows.header]; rfl
  floors := follows.floors version
  counted accountID := by simpa using follows.counted accountID
  fits := follows.fits

/-- The states the program keeps: the numbers of sub-entries are exact and fit. -/
structure Sound (ledger : Ledger) : Prop where
  version : 10 ≤ ledger.header.ledgerVersion
  exact : ∀ accountID, surplus accountID ledger = 0
  fits : SubEntriesFit ledger

theorem Sound.advance {ledgers : Nat} {before after : Ledger} (sound : Sound before)
    (advances : Advances ledgers before after) : Sound after where
  version := sound.version.trans advances.version
  exact accountID := by rw [advances.counted, sound.exact]
  fits := advances.fits sound.fits

/-! ### The sequence check -/

theorem commonValidPreSeqNum_reads (ledger : Ledger) (envelope : TransactionEnvelope) :
    ∃ result, commonValidPreSeqNum envelope ledger = .ok result ledger ∧
      ∀ source, result = .ok source →
        ledger.accounts.lookup envelope.tx.sourceAccount = some source := by
  have reads : wp (commonValidPreSeqNum envelope) (fun result after => after = ledger ∧
      ∀ source, result = .ok source →
        ledger.accounts.lookup envelope.tx.sourceAccount = some source)
      (fun _ _ => False) ledger := by
    unfold commonValidPreSeqNum
    simp only [wp_bind, wp_loadHeader, wp_ite, wp_pure, wp_load, accountTable_read]
    refine ⟨fun _ => by simp, fun _ => ⟨fun _ => by simp, fun _ => ⟨fun _ => by simp, fun _ =>
      ⟨fun _ => by simp, fun _ => ?_⟩⟩⟩⟩
    cases found : ledger.accounts.lookup envelope.tx.sourceAccount with
    | none => simp
    | some source => simp
  unfold wp at reads
  split at reads
  · rename_i result after ran
    rw [reads.1] at ran
    exact ⟨result, ran, reads.2⟩
  · exact reads.elim

theorem passesSequenceCheck_source {envelope : TransactionEnvelope}
    (passes : passesSequenceCheck envelope ledger = true) :
    ∃ source, ledger.accounts.lookup envelope.tx.sourceAccount = some source ∧
      source.seqNum + 1 = envelope.tx.seqNum := by
  obtain ⟨result, ran, found⟩ := commonValidPreSeqNum_reads ledger envelope
  unfold passesSequenceCheck at passes
  rw [ran] at passes
  cases result with
  | error code => cases passes
  | ok source =>
      refine ⟨source, found source rfl, ?_⟩
      have good : ¬ isBadSeq envelope 0 source.seqNum = true := of_decide_eq_true passes
      simp only [isBadSeq, if_true, decide_eq_true_eq, not_or, not_not] at good
      exact good.2

/-- From version 10 on `commonValid` does not throw, and what it returns tells whether its
sequence check was passed. -/
theorem commonValid_spec (env : Environment) (envelope : TransactionEnvelope)
    (checker : SignatureChecker) (version : 10 ≤ ledger.header.ledgerVersion) :
    wp (commonValid env envelope checker 0 true) (fun result after => after = ledger ∧
      (result.2.type ≠ .kInvalid ↔ passesSequenceCheck envelope ledger = true))
      (fun _ _ => False) ledger := by
  obtain ⟨result, ran, found⟩ := commonValidPreSeqNum_reads ledger envelope
  unfold commonValid
  simp only [wp_rolledBack, wp_bind]
  rw [wp_of_ok ran]
  unfold passesSequenceCheck
  cases result with
  | error code => simp [ran]
  | ok source =>
      simp only [ran, decide_eq_true_eq]
      simp only [wp_bind, wp_loadHeader, wp_ite, wp_pure, wp_computed]
      refine ⟨fun bad => by simp [bad.2], fun good => ?_⟩
      have passed : ¬ isBadSeq envelope 0 source.seqNum = true :=
        fun bad => good ⟨.inl version, bad⟩
      have available : getAvailableBalanceOfAccount ledger.header source =
          .ok (source.balance - getMinBalance ledger.header source.numSubEntries -
            (source.ext.getD ⟨0, 0⟩).selling) := by
        unfold getAvailableBalanceOfAccount getReservedBalance getSellingLiabilities getLiabilities
        rw [if_pos version, if_neg (by omega)]
        rfl
      rw [available]
      refine ⟨fun _ => by simp [passed], fun _ => ⟨fun _ => by simp [passed], fun _ => by simp [passed]⟩⟩

/-! ### The first part of `apply` -/

theorem processSeqNum_spec {envelope : TransactionEnvelope} {source : AccountEntry}
    (version : 10 ≤ ledger.header.ledgerVersion)
    (found : ledger.accounts.lookup envelope.tx.sourceAccount = some source)
    (behind : source.seqNum ≤ envelope.tx.seqNum) :
    wp (processSeqNum envelope) (fun _ after => Advances 0 ledger after ∧
      sequenceFloor envelope.tx.sourceAccount after = envelope.tx.seqNum)
      (fun _ _ => False) ledger := by
  unfold processSeqNum
  simp only [wp_bind, wp_loadHeader, wp_ite, wp_current, accountTable_read, found, wp_store,
    accountTable_write]
  refine ⟨fun _ => ⟨fun ahead => absurd behind (not_le.mpr ahead), fun _ => ⟨?_, ?_⟩⟩,
    fun old => absurd version old⟩
  · apply Advances.ofFollows version
    exact SetOptionsOp.follows_retains found ⟨rfl, behind, rfl, le_rfl⟩
  · exact sequenceFloor_insert ledger envelope.tx.sourceAccount _

theorem Sound.signers_le (sound : Sound ledger) {accountID : AccountID} {account : AccountEntry}
    (found : ledger.accounts.lookup accountID = some account) :
    account.signers.length ≤ account.numSubEntries ∧ (account.numSubEntries : Int) ≤ INT32_MAX := by
  have exact := sound.exact accountID
  have owned := ownedEntries_nonneg accountID ledger
  simp only [surplus, found, Option.map_some, Option.getD_some] at exact
  exact ⟨by omega, sound.fits accountID account found⟩

theorem addNumEntries_drop {header : LedgerHeader} {account : AccountEntry}
    (version : 10 ≤ header.ledgerVersion) (positive : 0 < account.numSubEntries)
    (fits : (account.numSubEntries : Int) ≤ INT32_MAX) :
    addNumEntries header account (-1) =
      .ok (.SUCCESS, { account with numSubEntries := account.numSubEntries - 1 }) := by
  have reserved : getReservedBalance header account.ext =
      .ok (account.ext.getD ⟨0, 0⟩).selling := by
    unfold getReservedBalance getSellingLiabilities getLiabilities
    rw [if_pos version, if_neg (by omega)]
    rfl
  have signed : unsignedToSigned account.numSubEntries = .ok (account.numSubEntries : Int) := by
    unfold unsignedToSigned
    rw [if_neg (by omega)]
    rfl
  have count : ((account.numSubEntries : Int) + -1).toNat = account.numSubEntries - 1 := by omega
  unfold addNumEntries
  simp only [signed, reserved, bind, Except.bind]
  rw [if_neg (by omega), if_neg (by omega), if_neg (by omega), if_neg (by omega), count]
  rfl

theorem removeFirstSigner_total {header : LedgerHeader} {account : AccountEntry}
    (version : 10 ≤ header.ledgerVersion)
    (covered : account.signers.length ≤ account.numSubEntries)
    (fits : (account.numSubEntries : Int) ≤ INT32_MAX) (keys : List SignerKey) :
    ∃ result, removeFirstSigner header account keys = .ok result := by
  induction keys with
  | nil => exact ⟨none, rfl⟩
  | cons key rest ih =>
      unfold removeFirstSigner removeAccountSigner
      by_cases has : account.signers.any fun signer => signer.key = key
      · obtain ⟨signer, member, -⟩ := List.any_eq_true.mp has
        have nonempty : 0 < account.signers.length := List.length_pos_of_mem member
        rw [if_pos has, addNumEntries_drop version (Nat.lt_of_lt_of_le nonempty covered) fits]
        exact ⟨_, rfl⟩
      · rw [if_neg has]
        exact ih

theorem removeUsedOneTimeSignerKeys_spec (checker : SignatureChecker) (sound : Sound ledger) :
    wp (removeUsedOneTimeSignerKeys checker) (fun _ after => Advances 0 ledger after)
      (fun _ _ => False) ledger := by
  have one : ∀ (accountID : AccountID) (keys : List SignerKey) (start : Ledger), Sound start →
      wp (removeUsedOneTimeSignerKeysOf accountID keys) (fun _ after => Advances 0 start after)
        (fun _ _ => False) start := by
    intro accountID keys start soundStart
    unfold removeUsedOneTimeSignerKeysOf
    simp only [wp_bind, wp_load, accountTable_read]
    cases found : start.accounts.lookup accountID with
    | none => exact Advances.refl start
    | some account =>
        have counts := soundStart.signers_le found
        obtain ⟨result, ran⟩ := removeFirstSigner_total soundStart.version counts.1 counts.2 keys
        simp only [wp_bind, wp_loadHeader, wp_computed, ran]
        cases result with
        | none => exact Advances.refl start
        | some updated =>
            apply Advances.ofFollows soundStart.version
            exact SetOptionsOp.follows_retains found (removeFirstSigner_retains ran)
  unfold removeUsedOneTimeSignerKeys
  generalize checker.usedOneTimeSignerKeys.entries = entries
  induction entries generalizing ledger with
  | nil => exact Advances.refl ledger
  | cons entry rest ih =>
      change wp (removeUsedOneTimeSignerKeysOf entry.1 entry.2 >>= fun _ => rest.forM _) _ _ ledger
      rw [wp_bind]
      apply wp_mono (one entry.1 entry.2 ledger sound)
      · intro _ middle early
        apply wp_mono (ih (sound.advance early))
        · intro _ after late
          exact early.trans late
        · intro _ _ impossible
          exact impossible
      · intro _ _ impossible
        exact impossible

theorem checkOperationSignatures_spec (env : Environment) (envelope : TransactionEnvelope)
    (ops : List Operation) (checker : SignatureChecker) :
    wp (checkOperationSignatures env envelope ops checker) (fun _ after => after = ledger)
      (fun _ _ => False) ledger := by
  induction ops generalizing checker with
  | nil => exact rfl
  | cons op rest ih =>
      have single : wp (op.checkSignature env envelope checker false)
          (fun _ after => after = ledger) (fun _ _ => False) ledger := by
        unfold Operation.checkSignature
        simp only [wp_bind, wp_load, accountTable_read]
        cases ledger.accounts.lookup (op.getSourceID envelope) with
        | some source => exact rfl
        | none => cases op.sourceAccount <;> exact rfl
      unfold checkOperationSignatures
      rw [wp_bind]
      apply wp_mono single
      · rintro ⟨next, result⟩ _ rfl
        rw [wp_bind]
        apply wp_mono (ih next)
        · rintro ⟨last, valid⟩ _ rfl
          exact rfl
        · intro _ _ impossible
          exact impossible
      · intro _ _ impossible
        exact impossible

theorem processSignatures_spec (env : Environment) (envelope : TransactionEnvelope)
    (checker : SignatureChecker) (sound : Sound ledger) :
    wp (processSignatures env envelope checker) (fun _ after => Advances 0 ledger after)
      (fun _ _ => False) ledger := by
  unfold processSignatures
  simp only [wp_bind, wp_loadHeader, wp_ite, wp_rolledBack]
  refine ⟨fun old => absurd sound.version (not_le.mpr old), fun _ => ?_⟩
  apply wp_mono (checkOperationSignatures_spec env envelope envelope.tx.operations checker)
  · rintro ⟨next, allOpsValid⟩ _ _
    apply wp_mono (removeUsedOneTimeSignerKeys_spec next sound)
    · intro _ after advances
      exact ⟨fun _ => advances, fun _ => ⟨fun _ => advances, fun _ => advances⟩⟩
    · intro _ _ impossible
      exact impossible
  · intro _ _ impossible
    exact impossible

/-- What `apply` has done when its first nested transaction is committed. -/
structure HeaderApplied (envelope : TransactionEnvelope) (before after : Ledger) : Prop where
  advances : Advances 0 before after
  raised : passesSequenceCheck envelope before = true →
    envelope.tx.seqNum ≤ sequenceFloor envelope.tx.sourceAccount after
  unchanged : passesSequenceCheck envelope before = false → after = before

theorem applyHeader_spec (env : Environment) (envelope : TransactionEnvelope)
    (sound : Sound ledger) :
    wp (applyHeader env envelope) (fun result after => HeaderApplied envelope ledger after ∧
      (result.2.2 = .ok () → passesSequenceCheck envelope ledger = true)) (fun _ _ => False)
      ledger := by
  unfold applyHeader
  simp only [wp_bind, wp_loadHeader]
  apply wp_mono (commonValid_spec env envelope _ sound.version)
  · rintro ⟨checker, validation⟩ _ ⟨rfl, typed⟩
    rename_i start
    simp only at typed ⊢
    simp only [wp_ite, wp_bind]
    refine ⟨fun invalid => ?_, fun valid => ?_⟩
    · have kInvalid : validation.type = .kInvalid := by
        revert invalid
        cases validation.type <;> simp [ValidationType.rank]
      have fails : ¬ passesSequenceCheck envelope start = true := fun passes => typed.mpr passes kInvalid
      exact ⟨⟨Advances.refl start, fun passes => absurd passes fails, fun _ => rfl⟩,
        fun impossible => by cases impossible⟩
    · have passes : passesSequenceCheck envelope start = true := by
        apply typed.mp
        intro kInvalid
        rw [kInvalid] at valid
        exact valid (by decide)
      obtain ⟨source, found, next⟩ := passesSequenceCheck_source passes
      apply wp_mono (processSeqNum_spec sound.version found (Int.le_of_lt (Int.lt_iff_add_one_le.mpr next.le)))
      · rintro _ numbered ⟨advances, floor⟩
        have raised : HeaderApplied envelope start numbered :=
          ⟨advances, fun _ => floor.ge, fun fails => by simp [passes] at fails⟩
        refine ⟨fun _ => ⟨raised, fun impossible => by cases impossible⟩, fun _ => ?_⟩
        apply wp_mono (processSignatures_spec env envelope checker (sound.advance advances))
        · rintro ⟨last, signatures⟩ after signed
          have applied : HeaderApplied envelope start after :=
            ⟨advances.trans signed, fun _ => floor.ge.trans (signed.floors _),
              fun fails => by simp [passes] at fails⟩
          cases signatures with
          | error code => exact ⟨applied, fun _ => passes⟩
          | ok _ => cases validation.code <;> exact ⟨applied, fun _ => passes⟩
        · intro _ _ impossible
          exact impossible
      · intro _ _ impossible
        exact impossible
  · intro _ _ impossible
    exact impossible

/-! ### The operations -/

theorem applyEach_follows (env : Environment) (envelope : TransactionEnvelope)
    (ops : List Operation) (checker : SignatureChecker) :
    Ensures (applyEach env envelope ops checker) ledger fun result after =>
      result.2.all Except.isOk = true → ∃ moves, Follows moves 0 ledger after := by
  induction ops generalizing checker ledger with
  | nil => exact fun _ => ⟨[], Follows.refl ledger⟩
  | cons op rest ih =>
      unfold applyEach
      have single : Ensures (op.apply env envelope checker) ledger fun result after =>
          ∀ success, result.2 = .ok success → ∃ moves, Follows moves 0 ledger after := by
        apply Operation.apply_succeeds
        intro valid
        apply Succeeds.mono (op.body.doApply_settles (op.getSourceID envelope) env.book valid)
        rintro success after ⟨_, lost, follows, _⟩
        exact ⟨_, follows⟩
      apply Ensures.bind single
      rintro ⟨next, result⟩ middle early
      apply Ensures.bind (ih next)
      rintro ⟨last, results⟩ after late all
      cases result with
      | error code => simp [Except.isOk, Except.toBool] at all
      | ok success =>
          obtain ⟨first, toMiddle⟩ := early success rfl
          obtain ⟨second, toAfter⟩ := late (by simpa [Except.isOk, Except.toBool] using all)
          exact ⟨_, toMiddle.trans toAfter⟩

theorem applyOperations_advances (env : Environment) (envelope : TransactionEnvelope)
    (checker : SignatureChecker) (version : 10 ≤ ledger.header.ledgerVersion) :
    Ensures (applyOperations env envelope checker) ledger fun _ after =>
      Advances 0 ledger after := by
  unfold applyOperations
  simp only [Ensures, wp_bind, wp_get]
  apply Ensures.mono (applyEach_follows env envelope envelope.tx.operations checker)
  rintro ⟨last, results⟩ after follows
  simp only [wp_ite, wp_bind, wp_set, wp_loadHeader, wp_pure]
  refine ⟨fun _ => Advances.refl ledger, fun succeeded => ?_⟩
  obtain ⟨moves, follows⟩ := follows (not_not.mp succeeded)
  have same : after.header.ledgerVersion = ledger.header.ledgerVersion := by rw [follows.header]
  exact ⟨fun old => by omega, fun _ => Advances.ofFollows version follows⟩

theorem apply_spec (env : Environment) (envelope : TransactionEnvelope) (sound : Sound ledger) :
    wp (apply env envelope) (fun _ after => HeaderApplied envelope ledger after)
      (fun _ after => HeaderApplied envelope ledger after) ledger := by
  unfold apply
  rw [wp_bind, wp_inLedgerTxn]
  apply wp_mono (applyHeader_spec env envelope sound)
  · rintro ⟨checker, validation, valid⟩ middle ⟨header, passes⟩
    cases valid with
    | error code => exact header
    | ok _ =>
        have passed := passes rfl
        simp only [wp_bind, wp_inLedgerTxn]
        apply wp_mono (applyOperations_advances env envelope checker
          (sound.version.trans header.advances.version))
        · intro _ after advances
          exact ⟨header.advances.trans advances, fun _ => (header.raised passed).trans (advances.floors _),
            fun fails => by simp [passed] at fails⟩
        · intro _ _ _
          exact header
  · intro _ _ impossible
    exact impossible.elim

/-! ### Fees, upgrades and new ledgers -/

theorem Advances.ofHeader {ledgers : Nat} (header : LedgerHeader)
    (version : ledger.header.ledgerVersion ≤ header.ledgerVersion)
    (ledgerSeq : header.ledgerSeq = ledger.header.ledgerSeq + ledgers)
    (starts : toSigned64 (getStartingSequenceNumber ledger.header) ≤
      toSigned64 (getStartingSequenceNumber header)) :
    Advances ledgers ledger { ledger with header } where
  version := version
  ledgerSeq := ledgerSeq
  floors accountID := by
    cases found : ledger.accounts.lookup accountID with
    | some account =>
        have kept : sequenceFloor accountID { ledger with header } = account.seqNum :=
          sequenceFloor_some found
        rw [sequenceFloor_some found, kept]
    | none =>
        have started : sequenceFloor accountID { ledger with header } =
            toSigned64 (getStartingSequenceNumber header) - 1 := sequenceFloor_none found
        rw [sequenceFloor_none found, started]
        exact Int.sub_le_sub_right starts 1
  counted accountID := rfl
  fits fit := fit

theorem toSigned64_small {value : Nat} (small : value < 2 ^ 63) : toSigned64 value = value := by
  have low : value % 2 ^ 64 = value := Nat.mod_eq_of_lt (by omega)
  unfold toSigned64
  simp only [low, small, if_true]

theorem toSigned64_start {header : LedgerHeader} (bounded : header.ledgerSeq < 2 ^ 31) :
    toSigned64 (getStartingSequenceNumber header) = (header.ledgerSeq * 2 ^ 32 : Nat) := by
  have exact : getStartingSequenceNumber header = header.ledgerSeq * 2 ^ 32 :=
    Nat.mod_eq_of_lt (by omega)
  rw [exact]
  exact toSigned64_small (by omega)

theorem openLedger_advances (closeTime : Nat) (bounded : ledger.header.ledgerSeq + 1 < 2 ^ 31) :
    Advances 1 ledger (openLedger closeTime ledger) := by
  have next : (ledger.header.ledgerSeq + 1) % 2 ^ 32 = ledger.header.ledgerSeq + 1 :=
    Nat.mod_eq_of_lt (by omega)
  apply Advances.ofHeader
  · exact le_rfl
  · exact next
  · rw [toSigned64_start (by omega), toSigned64_start (by simp only [next]; exact bounded)]
    simp only [next]
    exact Int.ofNat_le.mpr (Nat.mul_le_mul_right _ (Nat.le_succ _))

theorem chargeFee_ok {source paid : AccountEntry} {fee charged : Int}
    (computed : chargeFee source fee = .ok (charged, paid)) :
    ∃ balance, paid = { source with balance } := by
  unfold chargeFee at computed
  split at computed
  · obtain ⟨newBalance, -, same⟩ := except_bind_ok.mp computed
    cases same
    exact ⟨_, rfl⟩
  · cases computed
    exact ⟨source.balance, rfl⟩

theorem storeBalance_advances {accountID : AccountID} {account : AccountEntry} {balance : Int}
    (version : 10 ≤ ledger.header.ledgerVersion)
    (found : ledger.accounts.lookup accountID = some account) :
    Advances 0 ledger
      { ledger with accounts := ledger.accounts.insert accountID { account with balance } } := by
  have stored := follows_storeAccount { account with balance } (balance - account.balance) 0 found
    le_rfl (by simp) (by simp) id
  have counted : Follows [⟨accountID, .native, balance - account.balance⟩] 0 ledger
      { ledger with accounts := ledger.accounts.insert accountID { account with balance } } :=
    stored.congr (fun _ => rfl) (by simp [only])
  exact Advances.ofFollows version counted

theorem processFeeSeqNum_advances (envelope : TransactionEnvelope) (baseFee : Int)
    (version : 10 ≤ ledger.header.ledgerVersion) :
    Ensures (processFeeSeqNum envelope baseFee) ledger fun _ after => Advances 0 ledger after := by
  unfold processFeeSeqNum
  simp only [Ensures, wp_bind, wp_loadHeader, wp_load, accountTable_read]
  cases found : ledger.accounts.lookup envelope.tx.sourceAccount with
  | none => trivial
  | some source =>
      simp only [wp_bind, wp_computed]
      cases charging : chargeFee source (getFee envelope ledger.header baseFee) with
      | error fault => trivial
      | ok result =>
          obtain ⟨charged, paid⟩ := result
          obtain ⟨balance, rfl⟩ := chargeFee_ok charging
          simp only [wp_modify, wp_ite, wp_store, accountTable_read, accountTable_write]
          refine ⟨fun old => absurd version (by omega), fun _ => ?_⟩
          have pooled : Advances 0 ledger { ledger with
              header := { ledger.header with feePool := ledger.header.feePool + charged } } :=
            Advances.ofHeader _ le_rfl rfl le_rfl
          refine pooled.trans (storeBalance_advances ?_ ?_)
          · exact version
          · exact found

theorem processFeesSeqNums_advances (txs : List TransactionEnvelope) (baseFee : Int)
    (version : 10 ≤ ledger.header.ledgerVersion) :
    Ensures (processFeesSeqNums txs baseFee) ledger fun _ after => Advances 0 ledger after := by
  unfold processFeesSeqNums
  induction txs generalizing ledger with
  | nil => exact Advances.refl ledger
  | cons envelope rest ih =>
      change Ensures (processFeeSeqNum envelope baseFee >>= fun _ => rest.forM _) ledger _
      apply Ensures.bind (processFeeSeqNum_advances envelope baseFee version)
      intro _ middle early
      apply Ensures.mono (ih (version.trans early.version))
      intro _ after late
      exact early.trans late

theorem applyTo_advances (upgrade : LedgerUpgrade) (maxLedgerVersion : Nat)
    (valid : isValidForApply upgrade ledger.header maxLedgerVersion = true)
    (version : 10 ≤ ledger.header.ledgerVersion) :
    Ensures (applyTo upgrade) ledger fun _ after => Advances 0 ledger after := by
  cases upgrade with
  | LEDGER_UPGRADE_VERSION newVersion =>
      have raised : newVersion > ledger.header.ledgerVersion :=
        (of_decide_eq_true (valid : decide _ = true)).2
      unfold applyTo applyVersionUpgrade modifyHeader
      simp only [Ensures, wp_bind, wp_loadHeader, wp_modify, wp_ite]
      refine ⟨fun crossing => absurd version (by omega), fun _ => ?_⟩
      exact Advances.ofHeader _ raised.le rfl le_rfl
  | LEDGER_UPGRADE_BASE_FEE newBaseFee => exact Advances.ofHeader _ le_rfl rfl le_rfl
  | LEDGER_UPGRADE_MAX_TX_SET_SIZE newMaxTxSetSize => exact Advances.ofHeader _ le_rfl rfl le_rfl
  | LEDGER_UPGRADE_BASE_RESERVE newReserve =>
      have reserved : Advances 0 ledger { ledger with
          header := { ledger.header with baseReserve := newReserve } } :=
        Advances.ofHeader _ le_rfl rfl le_rfl
      unfold applyTo applyReserveUpgrade modifyHeader
      simp only [Ensures, wp_bind, wp_loadHeader, wp_modify, wp_ite]
      refine ⟨fun _ => ?_, fun _ => reserved⟩
      apply Ensures.mono prepareLiabilities_follows
      intro _ after follows
      exact reserved.trans (Advances.ofFollows version follows)

theorem applyUpgrades_advances (maxLedgerVersion : Nat) (upgrades : List LedgerUpgrade)
    {before after : Ledger} (version : 10 ≤ before.header.ledgerVersion)
    (applied : applyUpgrades maxLedgerVersion upgrades before = .ok after) :
    Advances 0 before after := by
  induction upgrades generalizing before with
  | nil =>
      cases applied
      exact Advances.refl _
  | cons upgrade rest ih =>
      unfold applyUpgrades at applied
      split at applied
      · rename_i valid
        have advances := applyTo_advances upgrade maxLedgerVersion valid version
        unfold inLedgerTxn at applied
        unfold Ensures wp at advances
        cases ran : applyTo upgrade before with
        | ok _ middle =>
            simp only [ran] at applied advances
            exact advances.trans (ih (version.trans advances.version) applied)
        | error fault middle =>
            simp only [ran] at applied
            split at applied
            · exact ih version applied
            · cases applied
      · cases applied

/-! ### Runs -/

/-- Of two applications with one source that passed, the later has the larger number. -/
def Increasing (history : List Application) : Prop :=
  history.Pairwise fun early late => early.passed = true → late.passed = true →
    early.envelope.tx.sourceAccount = late.envelope.tx.sourceAccount →
    early.envelope.tx.seqNum < late.envelope.tx.seqNum

structure Guarded (history : List Application) (ledger : Ledger) : Prop where
  sound : Sound ledger
  increasing : Increasing history
  floor : ∀ application ∈ history, application.passed = true →
    application.envelope.tx.seqNum ≤ sequenceFloor application.envelope.tx.sourceAccount ledger

theorem Guarded.advance {ledgers : Nat} {history : List Application} {before after : Ledger}
    (guarded : Guarded history before) (advances : Advances ledgers before after) :
    Guarded history after where
  sound := guarded.sound.advance advances
  increasing := guarded.increasing
  floor application member passed :=
    (guarded.floor application member passed).trans (advances.floors _)

/-- An application without effect on a failed check, and without a fault in the
sequence number on a passed one. -/
structure Checked (application : Application) : Prop where
  unchanged : application.passed = false → application.after = application.before
  numbered : application.passed = true →
    ∃ after, processSeqNum application.envelope application.before = .ok () after

theorem processSeqNum_ok {envelope : TransactionEnvelope} (sound : Sound ledger)
    (passes : passesSequenceCheck envelope ledger = true) :
    ∃ after, processSeqNum envelope ledger = .ok () after := by
  obtain ⟨source, found, next⟩ := passesSequenceCheck_source passes
  have numbered := processSeqNum_spec sound.version found
    (Int.le_of_lt (Int.lt_iff_add_one_le.mpr next.le))
  unfold wp at numbered
  split at numbered
  · rename_i after ran
    exact ⟨after, ran⟩
  · exact numbered.elim

theorem Guarded.apply {history : List Application} {application : Application}
    (guarded : Guarded history application.before)
    (applied : HeaderApplied application.envelope application.before application.after) :
    Guarded (history ++ [application]) application.after ∧ Checked application := by
  refine ⟨⟨guarded.sound.advance applied.advances, ?_, ?_⟩, applied.unchanged,
    processSeqNum_ok guarded.sound⟩
  · apply List.pairwise_append.mpr
    refine ⟨guarded.increasing, List.pairwise_singleton _ _, ?_⟩
    intro early earlyMember late lateMember earlyPassed latePassed same
    cases List.mem_singleton.mp lateMember
    obtain ⟨source, found, next⟩ := passesSequenceCheck_source latePassed
    have floor := guarded.floor early earlyMember earlyPassed
    rw [same, sequenceFloor_some found] at floor
    exact Int.lt_of_le_of_lt floor (Int.lt_iff_add_one_le.mpr next.le)
  · intro earlier member passed
    rcases List.mem_append.mp member with old | new
    · exact (guarded.floor earlier old passed).trans (applied.advances.floors _)
    · cases List.mem_singleton.mp new
      exact applied.raised passed

/-- What a part of a run adds to the history before it. -/
structure Reaches (ledgers : Nat) (history later : List Application) (before : Ledger)
    (result : Except Fault Ledger) : Prop where
  increasing : Increasing (history ++ later)
  checked : ∀ application ∈ later, Checked application
  reached : ∀ after, result = .ok after → Guarded (history ++ later) after ∧
    after.header.ledgerSeq = before.header.ledgerSeq + ledgers

theorem applyTransactions_reaches (env : Environment) (txs : List TransactionEnvelope)
    (history : List Application) (guarded : Guarded history ledger) :
    Reaches 0 history (applyTransactions env txs ledger).1 ledger
      (applyTransactions env txs ledger).2 := by
  induction txs generalizing ledger history with
  | nil =>
      unfold applyTransactions
      refine ⟨by simpa using guarded.increasing, fun application absent => (by cases absent), ?_⟩
      rintro _ ⟨⟩
      exact ⟨by simpa using guarded, rfl⟩
  | cons envelope rest ih =>
      have spec := apply_spec env envelope guarded.sound
      have goOn : ∀ application : Application, application.before = ledger →
          HeaderApplied application.envelope ledger application.after →
          Reaches 0 history (application :: (applyTransactions env rest application.after).1) ledger
            (applyTransactions env rest application.after).2 := by
        intro application started applied
        rw [← started] at applied guarded
        obtain ⟨next, checked⟩ := guarded.apply applied
        have later := ih (history ++ [application]) next
        refine ⟨by simpa using later.increasing, ?_, ?_⟩
        · intro other member
          rcases List.mem_cons.mp member with rfl | member
          · exact checked
          · exact later.checked other member
        · intro after same
          obtain ⟨reached, ledgerSeq⟩ := later.reached after same
          refine ⟨by simpa using reached, ?_⟩
          rw [ledgerSeq, applied.advances.ledgerSeq, started]
      unfold wp at spec
      unfold applyTransactions
      cases ran : apply env envelope ledger with
      | ok applied after =>
          simp only [ran] at spec
          exact goOn ⟨envelope, ledger, after, .ok applied⟩ rfl spec
      | error fault after =>
          simp only [ran] at spec
          dsimp only
          split
          · exact goOn ⟨envelope, ledger, after, .error fault⟩ rfl spec
          · have alone : Guarded (history ++ [⟨envelope, ledger, after, .error fault⟩]) after ∧
                Checked ⟨envelope, ledger, after, .error fault⟩ := Guarded.apply guarded spec
            refine ⟨alone.1.increasing, ?_, fun _ impossible => by cases impossible⟩
            intro application member
            cases List.mem_singleton.mp member
            exact alone.2

theorem closeLedger_reaches (env : Environment) (maxLedgerVersion : Nat)
    (ledgerData : LedgerCloseData) (history : List Application) (guarded : Guarded history ledger)
    (bounded : ledger.header.ledgerSeq + 1 < 2 ^ 31) :
    Reaches 1 history (closeLedger env maxLedgerVersion ledgerData ledger).1 ledger
      (closeLedger env maxLedgerVersion ledgerData ledger).2 := by
  have opened := openLedger_advances ledgerData.closeTime bounded
  have charges := processFeesSeqNums_advances ledgerData.txs ledgerData.baseFee
    (guarded.sound.version.trans opened.version)
  unfold Ensures wp at charges
  unfold closeLedger
  cases ran : processFeesSeqNums ledgerData.txs ledgerData.baseFee
      (openLedger ledgerData.closeTime ledger) with
  | error fault after =>
      dsimp only
      exact ⟨by simpa using guarded.increasing, fun _ absent => (by cases absent),
        fun _ impossible => (by cases impossible)⟩
  | ok _ charged =>
      simp only [ran] at charges
      have started := opened.trans charges
      have applied := applyTransactions_reaches env ledgerData.txs history (guarded.advance started)
      dsimp only
      split
      · rename_i applications fault same
        rw [same] at applied
        exact ⟨applied.increasing, applied.checked, fun _ impossible => (by cases impossible)⟩
      · rename_i applications after same
        rw [same] at applied
        refine ⟨applied.increasing, applied.checked, ?_⟩
        intro final upgraded
        obtain ⟨reached, ledgerSeq⟩ := applied.reached after rfl
        have upgrades := applyUpgrades_advances maxLedgerVersion ledgerData.upgrades
          reached.sound.version upgraded
        refine ⟨reached.advance upgrades, ?_⟩
        rw [upgrades.ledgerSeq, ledgerSeq, started.ledgerSeq]

theorem closeLedgers_reaches (env : Environment) (maxLedgerVersion : Nat)
    (closes : List LedgerCloseData) (history : List Application) (guarded : Guarded history ledger)
    (bounded : ledger.header.ledgerSeq + closes.length < 2 ^ 31) :
    Reaches closes.length history (closeLedgers env maxLedgerVersion closes ledger).1 ledger
      (closeLedgers env maxLedgerVersion closes ledger).2 := by
  induction closes generalizing ledger history with
  | nil =>
      unfold closeLedgers
      refine ⟨by simpa using guarded.increasing, fun _ absent => (by cases absent), ?_⟩
      rintro _ ⟨⟩
      exact ⟨by simpa using guarded, rfl⟩
  | cons ledgerData rest ih =>
      rw [List.length_cons] at bounded
      have closed := closeLedger_reaches env maxLedgerVersion ledgerData history guarded (by omega)
      unfold closeLedgers
      split
      · rename_i applications fault same
        rw [same] at closed
        exact ⟨closed.increasing, closed.checked, fun _ impossible => (by cases impossible)⟩
      · rename_i applications after same
        rw [same] at closed
        obtain ⟨reached, ledgerSeq⟩ := closed.reached after rfl
        have later := ih (history ++ applications) reached (by rw [ledgerSeq]; omega)
        dsimp only
        refine ⟨by simpa using later.increasing, ?_, ?_⟩
        · intro application member
          rcases List.mem_append.mp member with early | late
          · exact closed.checked application early
          · exact later.checked application late
        · intro final same
          obtain ⟨ended, finalSeq⟩ := later.reached final same
          refine ⟨by simpa using ended, ?_⟩
          rw [finalSeq, ledgerSeq, List.length_cons]
          omega

def passedEnvelopes (history : List Application) : List TransactionEnvelope :=
  (history.filter Application.passed).map Application.envelope

theorem increasing_passed {history : List Application} (increasing : Increasing history) :
    (passedEnvelopes history).Pairwise fun early late =>
      early.tx.sourceAccount = late.tx.sourceAccount → early.tx.seqNum < late.tx.seqNum := by
  unfold passedEnvelopes
  apply List.pairwise_map.mpr
  apply List.pairwise_filter.mpr
  exact increasing.imp fun ordered earlyPassed latePassed => ordered earlyPassed latePassed

/-- Over any run of ledger closes, the numbers of the transactions of one account that pass
the sequence check only grow, so none passes twice; the others change nothing, and the
number is written without an exception. -/
theorem closeLedgers_replayProtected (env : Environment) (maxLedgerVersion : Nat)
    (closes : List LedgerCloseData) (start : Ledger) (sound : Sound start)
    (bounded : start.header.ledgerSeq + closes.length < 2 ^ 31) :
    let history := (closeLedgers env maxLedgerVersion closes start).1
    (∀ accountID, (((passedEnvelopes history).filter fun envelope =>
      envelope.tx.sourceAccount = accountID).map fun envelope => envelope.tx.seqNum).Pairwise (· < ·)) ∧
    (passedEnvelopes history).Nodup ∧
    ∀ application ∈ history,
      (application.passed = false → application.after = application.before) ∧
      (application.passed = true →
        ∃ after, processSeqNum application.envelope application.before = .ok () after) := by
  intro history
  have guarded : Guarded [] start :=
    ⟨sound, List.Pairwise.nil, fun _ absent => (by cases absent)⟩
  have reaches := closeLedgers_reaches env maxLedgerVersion closes [] guarded bounded
  have ordered := increasing_passed reaches.increasing
  refine ⟨?_, ?_, ?_⟩
  · intro accountID
    apply List.pairwise_map.mpr
    apply List.pairwise_filter.mpr
    apply ordered.imp
    intro early late less earlySource lateSource
    apply less
    rw [of_decide_eq_true earlySource, of_decide_eq_true lateSource]
  · apply ordered.imp
    rintro early late less rfl
    exact lt_irrefl _ (less rfl)
  · intro application member
    have checked := reaches.checked application member
    exact ⟨checked.unchanged, checked.numbered⟩

/-- A ledger with one account, 2, at sequence number 3. -/
def lonelyLedger : Ledger where
  header := { ledgerVersion := 11, closeTime := 0, ledgerSeq := 5, totalCoins := 1000,
              feePool := 0, inflationSeq := 0, idPool := 0, baseFee := 100, baseReserve := 10,
              maxTxSetSize := 50 }
  accounts := (∅ : Map AccountID AccountEntry).insert 2
    { balance := 1000, seqNum := 3, numSubEntries := 0, inflationDest := none, flags := 0,
      homeDomain := [], thresholds := ⟨1, 0, 0, 0⟩, signers := [], ext := none }
  trustLines := ∅
  offers := ∅
  data := ∅

theorem lonelyLedger_sound : Sound lonelyLedger where
  version := by decide
  exact accountID := by
    by_cases same : accountID = 2
    · subst same
      rfl
    · have absent : lonelyLedger.accounts.lookup accountID = none := by
        change AList.lookup accountID (AList.insert _ _ _) = _
        rw [AList.lookup_insert_ne same]
        rfl
      unfold surplus
      rw [absent]
      rfl
  fits accountID account found := by
    have stored := AList.mem_lookup_iff.mp found
    change _ ∈ [_] at stored
    rw [List.mem_singleton] at stored
    cases stored
    decide

def bumpEnvelope (seqNum : SequenceNumber) : TransactionEnvelope :=
  { tx := { sourceAccount := 2, fee := 100, seqNum, timeBounds := none,
            operations := [{ sourceAccount := none, body := .BUMP_SEQUENCE 0 }] }
    signatures := [{ hint := 2, signature := [] }] }

/-- Two ledgers, of which the second tries the first transaction again. -/
def replayedCloses : List LedgerCloseData :=
  [{ closeTime := 1, txs := [bumpEnvelope 4], baseFee := 100, upgrades := [] },
   { closeTime := 2, txs := [bumpEnvelope 4, bumpEnvelope 5], baseFee := 100, upgrades := [] }]

theorem closeLedgers_replayProtected_twice :
    let history := (closeLedgers silentEnvironment 11 replayedCloses lonelyLedger).1
    history.map Application.passed = [true, false, true] ∧ (passedEnvelopes history).Nodup :=
  ⟨by decide +kernel, (closeLedgers_replayProtected silentEnvironment 11 replayedCloses lonelyLedger
    lonelyLedger_sound (by decide)).2.1⟩

end ViiCore.LedgerManager
