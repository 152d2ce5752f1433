import Mathlib.Data.List.Perm.Basic
import ViiCore.Transactions.Conservation

/-!
What a transaction that fails leaves behind.

Only the part of `apply` before the operations is kept when a transaction fails: it may
write the sequence number of the source account and remove signers that were used once,
and nothing else. An exception inside that part takes it back as well.
-/

namespace ViiCore.Transactions

open ViiCore.Ledger ViiCore.FiniteMap ViiCore.Execution

variable {ledger : Ledger}

/-! ### One-time signers -/

def TransactionEnvelope.sources (envelope : TransactionEnvelope) : List AccountID :=
  envelope.tx.sourceAccount :: envelope.tx.operations.map fun op => op.getSourceID envelope

/-- The used keys all belong to `sources` and stand for the transaction with the hash `hash`. -/
def PreAuthOnly (hash : Uint256) (sources : List AccountID)
    (used : Map AccountID (List SignerKey)) : Prop :=
  ∀ accountID keys, used.lookup accountID = some keys →
    accountID ∈ sources ∧ ∀ key ∈ keys, key = .preAuthTx hash

structure ChecksOnly (hash : Uint256) (sources : List AccountID) (checker : SignatureChecker) :
    Prop where
  contents : checker.contentsHash = hash
  used : PreAuthOnly hash sources checker.usedOneTimeSignerKeys

section Checker

variable {hash : Uint256} {sources : List AccountID} {checker : SignatureChecker}

theorem ChecksOnly.ofSignatures (version : Nat) (hash : Uint256) (sources : List AccountID)
    (signatures : List DecoratedSignature) :
    ChecksOnly hash sources (.ofSignatures version hash signatures) where
  contents := rfl
  used := by
    intro accountID keys found
    cases found

theorem ChecksOnly.useOneTimeSigner (checks : ChecksOnly hash sources checker)
    {accountID : AccountID} (source : accountID ∈ sources) :
    ChecksOnly hash sources (checker.useOneTimeSigner accountID (.preAuthTx hash)) where
  contents := checks.contents
  used := by
    intro other keys found
    simp only [SignatureChecker.useOneTimeSigner] at found
    by_cases same : other = accountID
    · subst same
      refine ⟨source, ?_⟩
      intro key member
      rw [AList.lookup_insert] at found
      cases found
      have old : ∀ key ∈ (checker.usedOneTimeSignerKeys.lookup other).getD [],
          key = .preAuthTx hash := by
        intro key member
        cases used : checker.usedOneTimeSignerKeys.lookup other with
        | none =>
            rw [used] at member
            cases member
        | some keys =>
            rw [used] at member
            exact (checks.used other keys used).2 key member
      split at member
      · exact old key member
      · rcases List.mem_cons.mp member with rfl | member
        · rfl
        · exact old key member
    · rw [AList.lookup_insert_ne same] at found
      exact checks.used other keys found

theorem ChecksOnly.checkPreAuth {accountID : AccountID} (source : accountID ∈ sources)
    (neededWeight : Int) (signers : List Signer) {checker : SignatureChecker} (totalWeight : Int)
    (checks : ChecksOnly hash sources checker) :
    ChecksOnly hash sources
      (SignatureChecker.checkPreAuth accountID neededWeight checker signers totalWeight).1 := by
  induction signers generalizing checker totalWeight with
  | nil => exact checks
  | cons signer rest ih =>
      unfold SignatureChecker.checkPreAuth
      split
      · rename_i own
        rw [own, checks.contents]
        dsimp only
        split
        · exact checks.useOneTimeSigner source
        · exact ih _ (checks.useOneTimeSigner source)
      · exact ih _ checks

theorem ChecksOnly.verifyWith (checks : ChecksOnly hash sources checker)
    (verify : DecoratedSignature → Signer → Bool) (neededWeight : Int) (signers : List Signer)
    (totalWeight : Int) :
    ChecksOnly hash sources (checker.verifyWith verify neededWeight signers totalWeight).1 :=
  ⟨checks.contents, checks.used⟩

theorem ChecksOnly.checkSignature (checks : ChecksOnly hash sources checker) (crypto : Crypto)
    {accountID : AccountID} (source : accountID ∈ sources) (signers : List Signer)
    (neededWeight : Int) :
    ChecksOnly hash sources (checker.checkSignature crypto accountID signers neededWeight).1 := by
  unfold SignatureChecker.checkSignature
  split
  · exact checks
  · dsimp only
    have first := ChecksOnly.checkPreAuth source neededWeight
      (signers.filter SignatureChecker.isPreAuthTx) 0 checks
    split
    · exact first
    · have second := first.verifyWith crypto.verifyHashX neededWeight
        (signers.filter SignatureChecker.isHashX)
      split
      · exact second _
      · exact (second _).verifyWith _ neededWeight _ _

end Checker

/-! ### What may be left -/

/-- An account after a failed transaction: signers with one of the used keys `keys` are gone
with their sub-entries, and `numbers` are the sequence numbers it may have been given. -/
structure Bookkept (keys : List SignerKey) (numbers : SequenceNumber → Prop)
    (account updated : AccountEntry) : Prop where
  number : updated.seqNum = account.seqNum ∨ numbers updated.seqNum
  retired : ∃ removed : List Signer, (∀ signer ∈ removed, signer.key ∈ keys) ∧
    (updated.signers ++ removed).Perm account.signers ∧
    (removed = [] → updated.signers = account.signers) ∧
    updated.numSubEntries + removed.length = account.numSubEntries
  others : updated = { account with
    seqNum := updated.seqNum, signers := updated.signers, numSubEntries := updated.numSubEntries }

theorem Bookkept.refl (keys : List SignerKey) (numbers : SequenceNumber → Prop)
    (account : AccountEntry) : Bookkept keys numbers account account where
  number := .inl rfl
  retired := ⟨[], fun _ absent => (by cases absent), by simp, fun _ => rfl, rfl⟩
  others := rfl

theorem Bookkept.trans {keys : List SignerKey} {numbers : SequenceNumber → Prop}
    {first second third : AccountEntry} (early : Bookkept keys numbers first second)
    (late : Bookkept keys numbers second third) : Bookkept keys numbers first third where
  number := by
    rcases late.number with same | given
    · rw [same]
      exact early.number
    · exact .inr given
  retired := by
    obtain ⟨gone, goneKeys, goneSigners, noneGone, goneCount⟩ := early.retired
    obtain ⟨lost, lostKeys, lostSigners, noneLost, lostCount⟩ := late.retired
    refine ⟨lost ++ gone, ?_, ?_, ?_, ?_⟩
    · intro signer member
      rcases List.mem_append.mp member with old | new
      · exact lostKeys signer old
      · exact goneKeys signer new
    · rw [← List.append_assoc]
      exact (lostSigners.append_right gone).trans goneSigners
    · intro nothing
      obtain ⟨noLost, noGone⟩ := List.append_eq_nil_iff.mp nothing
      rw [noneLost noLost, noneGone noGone]
    · rw [List.length_append]
      omega
  others := by
    rw [late.others, early.others]

theorem Bookkept.unchanged {numbers : SequenceNumber → Prop} {account updated : AccountEntry}
    (kept : Bookkept [] numbers account updated) (numberless : ∀ number, ¬ numbers number) :
    updated = account := by
  obtain ⟨removed, keys, -, same, count⟩ := kept.retired
  have nothing : removed = [] :=
    List.eq_nil_iff_forall_not_mem.mpr fun signer member => (List.not_mem_nil) (keys signer member)
  have number : updated.seqNum = account.seqNum :=
    kept.number.resolve_right (numberless updated.seqNum)
  rw [nothing, List.length_nil, Nat.add_zero] at count
  rw [kept.others, number, same nothing, count]

/-- A ledger after a failed transaction of `envelope`, where `used` are the keys of one-time
signers that its signatures were checked with. -/
structure Leaves (envelope : TransactionEnvelope) (used : Map AccountID (List SignerKey))
    (before after : Ledger) : Prop where
  header : after.header = before.header
  trustLines : after.trustLines = before.trustLines
  offers : after.offers = before.offers
  data : after.data = before.data
  accounts : ∀ accountID, Option.Rel (Bookkept ((used.lookup accountID).getD []) fun number =>
      10 ≤ before.header.ledgerVersion ∧ accountID = envelope.tx.sourceAccount ∧
        number = envelope.tx.seqNum)
    (before.accounts.lookup accountID) (after.accounts.lookup accountID)

theorem optionRel_refl {α : Type} {rel : α → α → Prop} (refl : ∀ value, rel value value)
    (value : Option α) : Option.Rel rel value value := by
  cases value with
  | none => exact .none
  | some value => exact .some (refl value)

theorem optionRel_trans {α : Type} {rel : α → α → Prop}
    (trans : ∀ first second third, rel first second → rel second third → rel first third)
    {first second third : Option α} (early : Option.Rel rel first second)
    (late : Option.Rel rel second third) : Option.Rel rel first third := by
  cases early with
  | none => exact late
  | some one =>
      cases late with
      | some two => exact .some (trans _ _ _ one two)

section Ledgers

variable {envelope : TransactionEnvelope} {used : Map AccountID (List SignerKey)}

theorem Leaves.refl (envelope : TransactionEnvelope) (used : Map AccountID (List SignerKey))
    (ledger : Ledger) : Leaves envelope used ledger ledger where
  header := rfl
  trustLines := rfl
  offers := rfl
  data := rfl
  accounts _ := optionRel_refl (Bookkept.refl _ _) _

theorem Leaves.trans {first second third : Ledger} (early : Leaves envelope used first second)
    (late : Leaves envelope used second third) : Leaves envelope used first third where
  header := late.header.trans early.header
  trustLines := late.trustLines.trans early.trustLines
  offers := late.offers.trans early.offers
  data := late.data.trans early.data
  accounts accountID := by
    have two := late.accounts accountID
    rw [early.header] at two
    refine optionRel_trans ?_ (early.accounts accountID) two
    intro one middle last oneKept middleKept
    exact oneKept.trans middleKept

theorem leaves_store {accountID : AccountID} {account updated : AccountEntry}
    (found : ledger.accounts.lookup accountID = some account)
    (kept : Bookkept ((used.lookup accountID).getD []) (fun number =>
      10 ≤ ledger.header.ledgerVersion ∧ accountID = envelope.tx.sourceAccount ∧
        number = envelope.tx.seqNum) account updated) :
    Leaves envelope used ledger
      { ledger with accounts := ledger.accounts.insert accountID updated } where
  header := rfl
  trustLines := rfl
  offers := rfl
  data := rfl
  accounts other := by
    by_cases same : other = accountID
    · subst same
      simp only [AList.lookup_insert, found]
      exact .some kept
    · simp only [AList.lookup_insert_ne same]
      exact optionRel_refl (Bookkept.refl _ _) _

theorem Leaves.bystander {before after : Ledger} (leaves : Leaves envelope used before after)
    {hash : Uint256} (preAuth : PreAuthOnly hash envelope.sources used) {accountID : AccountID}
    (stranger : accountID ∉ envelope.sources) :
    after.accounts.lookup accountID = before.accounts.lookup accountID := by
  have unused : used.lookup accountID = none := by
    cases found : used.lookup accountID with
    | none => rfl
    | some keys => exact absurd (preAuth accountID keys found).1 stranger
  have account := leaves.accounts accountID
  rw [unused] at account
  cases old : before.accounts.lookup accountID with
  | none =>
      rw [old] at account
      cases new : after.accounts.lookup accountID with
      | none => rfl
      | some updated =>
          rw [new] at account
          cases account
  | some account' =>
      rw [old] at account
      cases new : after.accounts.lookup accountID with
      | none =>
          rw [new] at account
          cases account
      | some updated =>
          rw [new] at account
          cases account with
          | some kept =>
              rw [kept.unchanged]
              intro number given
              exact stranger (given.2.1 ▸ List.mem_cons_self)

/-! ### The part that is kept -/

theorem processSeqNum_leaves (envelope : TransactionEnvelope) :
    Ensures (processSeqNum envelope) ledger fun _ after =>
      ∀ used, Leaves envelope used ledger after := by
  unfold processSeqNum
  simp only [Ensures, wp_bind, wp_loadHeader, wp_ite, wp_current, accountTable_read]
  constructor
  · intro version
    cases found : ledger.accounts.lookup envelope.tx.sourceAccount with
    | none => trivial
    | some source =>
        constructor
        · intro _
          trivial
        · intro _ used
          apply leaves_store found
          exact ⟨.inr ⟨version, rfl, rfl⟩,
            ⟨[], fun _ absent => (by cases absent), by simp, fun _ => rfl, rfl⟩, rfl⟩
  · intro _ used
    exact Leaves.refl envelope used ledger

theorem removeAccountSigner_bookkept {header : LedgerHeader} {account updated : AccountEntry}
    {keys : List SignerKey} {key : SignerKey} (numbers : SequenceNumber → Prop)
    (member : key ∈ keys) (removed : removeAccountSigner header account key = .ok (some updated)) :
    Bookkept keys numbers account (normalizeSigners updated) := by
  unfold removeAccountSigner at removed
  split at removed
  · rename_i has
    obtain ⟨⟨result, counted⟩, added, rest⟩ := except_bind_ok.mp removed
    obtain ⟨_, rest⟩ := assertThat_bind_ok.mp rest
    cases rest
    obtain ⟨signer, present, named⟩ := List.any_eq_true.mp has
    obtain ⟨gone, early, late, _, goneKey, split, erased⟩ := List.exists_of_eraseP
      (p := fun signer : Signer => decide (signer.key = key)) present named
    rcases addNumEntries_ok added with ⟨-, entries, rfl, count, -⟩ | ⟨-, -, impossible⟩
    · refine ⟨.inl rfl, ⟨[gone], ?_, ?_, ?_, ?_⟩, rfl⟩
      · intro other single
        cases List.mem_singleton.mp single
        rw [of_decide_eq_true goneKey]
        exact member
      · refine ((List.perm_insertionSort _ _).append_right [gone]).trans ?_
        simp only [erased]
        rw [split]
        exact (List.perm_append_singleton gone (early ++ late)).trans List.perm_middle.symm
      · intro nothing
        cases nothing
      · simp only [normalizeSigners, List.length_singleton]
        omega
    · omega
  · cases removed

theorem removeUsedOneTimeSignerKeysOf_leaves (envelope : TransactionEnvelope)
    {accountID : AccountID} {keys : List SignerKey} (known : used.lookup accountID = some keys)
    (start : Ledger) :
    Ensures (removeUsedOneTimeSignerKeysOf accountID keys) start fun _ after =>
      Leaves envelope used start after := by
  unfold removeUsedOneTimeSignerKeysOf
  simp only [Ensures, wp_bind, wp_load, accountTable_read]
  cases found : start.accounts.lookup accountID with
  | none => exact Leaves.refl envelope used start
  | some account =>
      simp only [wp_bind, wp_loadHeader, wp_computed]
      cases removed : removeFirstSigner start.header account keys with
      | error fault => trivial
      | ok result =>
          cases result with
          | none => exact Leaves.refl envelope used start
          | some updated =>
              apply leaves_store found
              obtain ⟨key, member, found⟩ := removeFirstSigner_some removed
              rw [known]
              exact removeAccountSigner_bookkept _ member found

theorem removeUsedOneTimeSignerKeys_leaves (envelope : TransactionEnvelope)
    (checker : SignatureChecker) :
    Ensures (removeUsedOneTimeSignerKeys checker) ledger fun _ after =>
      Leaves envelope checker.usedOneTimeSignerKeys ledger after := by
  unfold removeUsedOneTimeSignerKeys
  have known : ∀ entry ∈ checker.usedOneTimeSignerKeys.entries,
      checker.usedOneTimeSignerKeys.lookup entry.1 = some entry.2 := by
    intro entry member
    exact AList.mem_lookup_iff.mpr member
  generalize checker.usedOneTimeSignerKeys.entries = entries at known
  induction entries generalizing ledger with
  | nil => exact Leaves.refl envelope checker.usedOneTimeSignerKeys ledger
  | cons entry rest ih =>
      change Ensures (removeUsedOneTimeSignerKeysOf entry.1 entry.2 >>= fun _ => rest.forM _) ledger _
      apply Ensures.bind (removeUsedOneTimeSignerKeysOf_leaves envelope
        (known entry List.mem_cons_self) ledger)
      intro _ middle early
      apply Ensures.mono (ih fun other member => known other (List.mem_cons_of_mem entry member))
      intro _ after late
      exact early.trans late

end Ledgers

section Checks

variable {hash : Uint256} {sources : List AccountID} {checker : SignatureChecker}

theorem checkAccountSignature_checksOnly (env : Environment)
    (checks : ChecksOnly hash sources checker) {accountID : AccountID}
    (source : accountID ∈ sources) (account : AccountEntry) (neededWeight : Int) :
    ChecksOnly hash sources (checkAccountSignature env checker accountID account neededWeight).1 :=
  checks.checkSignature env.crypto source _ neededWeight

theorem checkOperationSignature_checksOnly (env : Environment) (envelope : TransactionEnvelope)
    {op : Operation} (checks : ChecksOnly hash sources checker)
    (source : op.getSourceID envelope ∈ sources) :
    Ensures (op.checkSignature env envelope checker false) ledger fun result _ =>
      ChecksOnly hash sources result.1 := by
  unfold Operation.checkSignature
  simp only [Ensures, wp_bind, wp_load, accountTable_read]
  cases ledger.accounts.lookup (op.getSourceID envelope) with
  | some account => exact checkAccountSignature_checksOnly env checks source _ _
  | none =>
      cases own : op.sourceAccount with
      | none => exact checks
      | some sourceID =>
          unfold Operation.getSourceID at source
          rw [own] at source
          exact checks.checkSignature env.crypto source _ 0

theorem checkOperationSignatures_checksOnly (env : Environment) (envelope : TransactionEnvelope)
    {ops : List Operation} (checks : ChecksOnly hash sources checker)
    (own : ∀ op ∈ ops, op.getSourceID envelope ∈ sources) :
    Ensures (checkOperationSignatures env envelope ops checker) ledger fun result _ =>
      ChecksOnly hash sources result.1 := by
  induction ops generalizing checker ledger with
  | nil => exact checks
  | cons op rest ih =>
      unfold checkOperationSignatures
      apply Ensures.bind
        (checkOperationSignature_checksOnly env envelope checks (own op List.mem_cons_self))
      intro first middle firstChecks
      apply Ensures.bind (ih firstChecks fun other member => own other (List.mem_cons_of_mem op member))
      intro second after secondChecks
      exact secondChecks

theorem processSignatures_leaves (env : Environment) (envelope : TransactionEnvelope)
    (checks : ChecksOnly hash envelope.sources checker) :
    Ensures (processSignatures env envelope checker) ledger fun result after =>
      Leaves envelope result.1.usedOneTimeSignerKeys ledger after ∧
        PreAuthOnly hash envelope.sources result.1.usedOneTimeSignerKeys := by
  unfold processSignatures
  simp only [Ensures, wp_bind, wp_loadHeader, wp_ite, wp_rolledBack]
  constructor
  · intro _
    exact ⟨Leaves.refl envelope _ ledger, checks.used⟩
  · intro _
    have own : ∀ op ∈ envelope.tx.operations, op.getSourceID envelope ∈ envelope.sources := by
      intro op member
      exact List.mem_cons_of_mem _ (List.mem_map.mpr ⟨op, member, rfl⟩)
    apply Ensures.mono (checkOperationSignatures_checksOnly env envelope checks own)
    intro checked _ checkedOnly
    apply Ensures.mono (removeUsedOneTimeSignerKeys_leaves envelope checked.1)
    intro _ after leaves
    constructor
    · intro _
      exact ⟨leaves, checkedOnly.used⟩
    · intro _
      constructor
      · intro _
        exact ⟨leaves, checkedOnly.used⟩
      · intro _
        exact ⟨leaves, checkedOnly.used⟩

theorem commonValid_checksOnly (env : Environment) (envelope : TransactionEnvelope)
    (checks : ChecksOnly hash envelope.sources checker) :
    Ensures (commonValid env envelope checker 0 true) ledger fun result after =>
      after = ledger ∧ ChecksOnly hash envelope.sources result.1 := by
  unfold commonValid
  rw [Ensures, wp_rolledBack, wp_bind]
  apply Ensures.mono (ensures_true (commonValidPreSeqNum envelope))
  intro result middle _
  cases result with
  | error code => exact ⟨rfl, checks⟩
  | ok source =>
      have signed := checkAccountSignature_checksOnly env checks
        (show envelope.tx.sourceAccount ∈ envelope.sources from List.mem_cons_self) source
        source.thresholds.low
      simp only [wp_bind, wp_loadHeader, wp_ite]
      constructor
      · intro _
        exact ⟨trivial, checks⟩
      · intro _
        constructor
        · intro _
          exact ⟨trivial, signed⟩
        · intro _
          apply Ensures.mono (ensures_true _)
          intro available _ _
          constructor
          · intro _
            exact ⟨trivial, signed⟩
          · intro _
            exact ⟨trivial, signed⟩

end Checks

/-- What the kept part leaves is told by the keys that its checker has used up. -/
theorem applyHeader_leaves (env : Environment) (envelope : TransactionEnvelope) :
    Ensures (applyHeader env envelope) ledger fun result after =>
      Leaves envelope result.1.usedOneTimeSignerKeys ledger after ∧
        PreAuthOnly (env.contentsHash envelope.tx) envelope.sources
          result.1.usedOneTimeSignerKeys := by
  unfold applyHeader
  simp only [Ensures, wp_bind, wp_loadHeader]
  apply Ensures.mono (commonValid_checksOnly env envelope (ChecksOnly.ofSignatures _ _ _ _))
  intro result start started
  obtain ⟨rfl, checks⟩ := started
  simp only [wp_ite, wp_bind]
  constructor
  · intro _
    exact ⟨Leaves.refl envelope _ start, checks.used⟩
  · intro _
    apply Ensures.mono (processSeqNum_leaves envelope)
    intro _ numbered early
    constructor
    · intro _
      exact ⟨early _, checks.used⟩
    · intro _
      apply Ensures.mono (processSignatures_leaves env envelope checks)
      intro signed after late
      obtain ⟨last, signatures⟩ := signed
      cases signatures with
      | error code => exact ⟨(early _).trans late.1, late.2⟩
      | ok _ =>
          cases result.2.code with
          | none => exact ⟨(early _).trans late.1, late.2⟩
          | some code => exact ⟨(early _).trans late.1, late.2⟩

/-! ### Failure -/

theorem applyOperations_failed (env : Environment) (envelope : TransactionEnvelope)
    (checker : SignatureChecker) :
    Ensures (applyOperations env envelope checker) ledger fun result after =>
      result.1 ≠ .txSUCCESS → after = ledger := by
  unfold applyOperations
  simp only [Ensures, wp_bind, wp_get]
  apply Ensures.mono (ensures_true _)
  intro result middle _
  simp only [wp_ite, wp_bind, wp_set, wp_loadHeader, wp_pure]
  constructor
  · intro _ _
    trivial
  · intro _
    constructor
    · intro _
      constructor
      · intro _ _
        trivial
      · intro _
        apply Ensures.mono (ensures_true _)
        intro _ _ _ impossible
        exact absurd rfl impossible
    · intro _ impossible
      exact absurd rfl impossible

/-- The keys of one-time signers that `apply` uses up before the operations, by account. -/
def usedOneTimeSignerKeys (env : Environment) (envelope : TransactionEnvelope) (before : Ledger) :
    Map AccountID (List SignerKey) :=
  match applyHeader env envelope before with
  | .ok (checker, _) _ => checker.usedOneTimeSignerKeys
  | .error _ _ => ∅

theorem usedOneTimeSignerKeys_preAuth (env : Environment) (envelope : TransactionEnvelope)
    (before : Ledger) :
    PreAuthOnly (env.contentsHash envelope.tx) envelope.sources
      (usedOneTimeSignerKeys env envelope before) := by
  have kept : Ensures (applyHeader env envelope) before _ := applyHeader_leaves env envelope
  unfold usedOneTimeSignerKeys
  unfold Ensures wp at kept
  cases ran : applyHeader env envelope before with
  | ok result middle =>
      rw [ran] at kept
      exact kept.2
  | error fault middle =>
      intro accountID keys found
      cases found

theorem applyHeader_leavesUsed (env : Environment) (envelope : TransactionEnvelope)
    (before : Ledger) :
    Ensures (applyHeader env envelope) before fun _ after =>
      Leaves envelope (usedOneTimeSignerKeys env envelope before) before after := by
  have kept : Ensures (applyHeader env envelope) before _ := applyHeader_leaves env envelope
  apply Ensures.of_ran
  intro result middle ran
  unfold usedOneTimeSignerKeys
  unfold Ensures wp at kept
  rw [ran] at kept ⊢
  exact kept.1

theorem apply_leaves (env : Environment) (envelope : TransactionEnvelope) (before : Ledger) :
    wp (apply env envelope)
      (fun applied after => applied.code ≠ .txSUCCESS →
        Leaves envelope (usedOneTimeSignerKeys env envelope before) before after)
      (fun _ after => Leaves envelope (usedOneTimeSignerKeys env envelope before) before after)
      before := by
  unfold apply
  rw [wp_bind, wp_inLedgerTxn]
  apply wp_mono (applyHeader_leavesUsed env envelope before)
  · intro result middle header
    obtain ⟨checker, validation, valid⟩ := result
    cases valid with
    | error code =>
        intro _
        exact header
    | ok _ =>
        simp only [wp_bind, wp_inLedgerTxn]
        apply wp_mono (applyOperations_failed env envelope checker)
        · intro result after unchanged failed
          rw [unchanged failed]
          exact header
        · intro _ _ _
          exact header
  · intro _ _ _
    exact Leaves.refl envelope _ before

/-- A transaction that fails, with a result or by an exception at any point, leaves the
sequence number of its source and the removal of signers it has used once at most. The used keys
all stand for the transaction itself, and only its sources have any: every other account is as it
was. -/
theorem apply_failure_leaves (env : Environment) (envelope : TransactionEnvelope)
    (before after : Ledger)
    (failed : (∃ applied, apply env envelope before = .ok applied after ∧
        applied.code ≠ .txSUCCESS) ∨
      ∃ fault, apply env envelope before = .error fault after) :
    Leaves envelope (usedOneTimeSignerKeys env envelope before) before after ∧
      PreAuthOnly (env.contentsHash envelope.tx) envelope.sources
        (usedOneTimeSignerKeys env envelope before) ∧
      ∀ accountID, accountID ∉ envelope.sources →
        after.accounts.lookup accountID = before.accounts.lookup accountID := by
  have leaves : Leaves envelope (usedOneTimeSignerKeys env envelope before) before after := by
    have spec := apply_leaves env envelope before
    unfold wp at spec
    rcases failed with ⟨applied, ran, code⟩ | ⟨fault, ran⟩
    · rw [ran] at spec
      exact spec code
    · rw [ran] at spec
      exact spec
  have preAuth := usedOneTimeSignerKeys_preAuth env envelope before
  exact ⟨leaves, preAuth, fun accountID stranger => leaves.bystander preAuth stranger⟩

/-- Three accounts with a one-time signer for the transaction with the hash 0. -/
def preAuthLedger : Ledger where
  header := { ledgerVersion := 10, closeTime := 0, ledgerSeq := 5, totalCoins := 3000,
              feePool := 0, inflationSeq := 0, idPool := 0, baseFee := 100, baseReserve := 10,
              maxTxSetSize := 50 }
  accounts := ((((∅ : Map AccountID AccountEntry).insert 2 account).insert 3 account).insert 5 account)
  trustLines := ∅
  offers := ∅
  data := ∅
where account : AccountEntry :=
  { balance := 1000, seqNum := 3, numSubEntries := 1, inflationDest := none, flags := 0,
    homeDomain := [], thresholds := ⟨1, 0, 0, 0⟩, signers := [⟨.preAuthTx 0, 1⟩], ext := none }

def failingEnvelope : TransactionEnvelope :=
  { tx := { sourceAccount := 2, fee := 200, seqNum := 4, timeBounds := none,
            operations := [{ sourceAccount := some 5, body := .BUMP_SEQUENCE 100 },
              { sourceAccount := none, body := .PAYMENT ⟨7, .native, 5⟩ }] }
    signatures := [] }

/-- The number 4 stays and two signers are gone; the bump to 100 is not there, and the account
that has no part in the transaction keeps its signer. -/
theorem apply_failure_leaves_bump :
    ∃ applied after, apply silentEnvironment failingEnvelope preAuthLedger = .ok applied after ∧
      applied.code = .txFAILED ∧
      [2, 3, 5].map (fun accountID => (after.accounts.lookup accountID).map fun account =>
        (account.seqNum, account.signers)) =
          [some (4, []), some (3, [⟨.preAuthTx 0, 1⟩]), some (3, [])] ∧
      Leaves failingEnvelope
        (usedOneTimeSignerKeys silentEnvironment failingEnvelope preAuthLedger)
        preAuthLedger after ∧
      PreAuthOnly (silentEnvironment.contentsHash failingEnvelope.tx) failingEnvelope.sources
        (usedOneTimeSignerKeys silentEnvironment failingEnvelope preAuthLedger) ∧
      ∀ accountID, accountID ∉ failingEnvelope.sources →
        after.accounts.lookup accountID = preAuthLedger.accounts.lookup accountID := by
  refine ⟨_, _, rfl, rfl, rfl, ?_⟩
  apply apply_failure_leaves
  left
  refine ⟨_, rfl, ?_⟩
  intro impossible
  cases impossible

end ViiCore.Transactions
