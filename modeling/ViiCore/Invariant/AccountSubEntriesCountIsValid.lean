import ViiCore.Transactions.OperationFaults

/-!
The number of sub-entries recorded in an account (`AccountSubEntriesCountIsValid.cpp`).

The checker of the source compares changes; the property behind it is that every account
records one sub-entry for each of its signers, trust lines, offers and data entries.
-/

namespace ViiCore.Invariant

open ViiCore.Ledger ViiCore.FiniteMap ViiCore.Execution ViiCore.Transactions ViiCore.Herder

variable {ledger : Ledger}

def recordedSubEntries (accountID : AccountID) (ledger : Ledger) : Nat :=
  ((ledger.accounts.lookup accountID).map AccountEntry.numSubEntries).getD 0

def signerCount (accountID : AccountID) (ledger : Ledger) : Nat :=
  ((ledger.accounts.lookup accountID).map fun account => account.signers.length).getD 0

/-- An account that does not exist records nothing, so nothing is owned in its name. -/
def SubEntriesCountIsValid (ledger : Ledger) : Prop :=
  ∀ accountID, (recordedSubEntries accountID ledger : Int) =
    signerCount accountID ledger + ownedEntries accountID ledger

theorem valid_iff_surplus :
    SubEntriesCountIsValid ledger ↔ ∀ accountID, surplus accountID ledger = 0 := by
  unfold SubEntriesCountIsValid
  apply forall_congr'
  intro accountID
  unfold recordedSubEntries signerCount surplus
  cases ledger.accounts.lookup accountID with
  | none =>
      simp only [Option.map_none, Option.getD_none]
      omega
  | some account =>
      simp only [Option.map_some, Option.getD_some]
      omega

theorem SubEntriesCountIsValid.covered (valid : SubEntriesCountIsValid ledger) : Covered ledger := by
  intro accountID
  rw [valid_iff_surplus.mp valid accountID]

theorem SubEntriesCountIsValid.follow {before after : Ledger} {moves : List Movement}
    (valid : SubEntriesCountIsValid before) (follows : Follows moves 0 before after) :
    SubEntriesCountIsValid after := by
  rw [valid_iff_surplus] at valid ⊢
  intro accountID
  rw [follows.counted, valid accountID]
  rfl

/-! ### Runs -/

inductive Step (before after : Ledger) : Prop where
  | operation (env : Environment) (envelope : TransactionEnvelope) (op : Operation)
      (checker checker' : SignatureChecker) (success : OperationSuccess)
      (version : 8 ≤ before.header.ledgerVersion)
      (applied : op.apply env envelope checker before = .ok (checker', .ok success) after)
  | usedSigners (checker : SignatureChecker) (version : 8 ≤ before.header.ledgerVersion)
      (removed : removeUsedOneTimeSignerKeys checker before = .ok () after)
  | upgrade (upgrade : LedgerUpgrade) (version : 8 ≤ before.header.ledgerVersion)
      (applied : applyTo upgrade before = .ok () after)

theorem applyTo_counted (valid : SubEntriesCountIsValid ledger) (upgrade : LedgerUpgrade) :
    Ensures (applyTo upgrade) ledger fun _ after => SubEntriesCountIsValid after := by
  have prepared : ∀ header, Ensures prepareLiabilities { ledger with header } fun _ after =>
      SubEntriesCountIsValid after := by
    intro header
    apply Ensures.mono prepareLiabilities_follows
    intro _ after follows
    have kept : SubEntriesCountIsValid { ledger with header } := valid
    exact kept.follow follows
  cases upgrade with
  | LEDGER_UPGRADE_BASE_FEE newBaseFee => exact valid
  | LEDGER_UPGRADE_MAX_TX_SET_SIZE newMaxTxSetSize => exact valid
  | LEDGER_UPGRADE_VERSION newVersion =>
      unfold applyTo applyVersionUpgrade
      simp only [Ensures, modifyHeader, wp_bind, wp_loadHeader, wp_modify, wp_ite]
      constructor
      · intro _
        exact prepared _
      · intro _
        exact valid
  | LEDGER_UPGRADE_BASE_RESERVE newReserve =>
      unfold applyTo applyReserveUpgrade
      simp only [Ensures, modifyHeader, wp_bind, wp_loadHeader, wp_modify, wp_ite]
      constructor
      · intro _
        exact prepared _
      · intro _
        exact valid

theorem Step.keepsCount {before after : Ledger} (step : Step before after)
    (valid : SubEntriesCountIsValid before) : SubEntriesCountIsValid after := by
  cases step with
  | operation env envelope op checker checker' success version applied =>
      obtain ⟨_, lost, follows, _⟩ := Operation.apply_settles applied
      exact valid.follow follows
  | usedSigners checker version removed =>
      have follows : Ensures (removeUsedOneTimeSignerKeys checker) before fun _ after =>
          Follows [] 0 before after := removeUsedOneTimeSignerKeys_follows checker
      rw [Ensures, wp_of_ok removed] at follows
      exact valid.follow follows
  | upgrade upgrade version applied =>
      have counted := applyTo_counted valid upgrade
      rw [Ensures, wp_of_ok applied] at counted
      exact counted

theorem merge_counts {sourceID destination : AccountID} :
    Succeeds (AccountMerge.doApply sourceID destination) ledger fun _ _ =>
      recordedSubEntries sourceID ledger = signerCount sourceID ledger := by
  unfold AccountMerge.doApply
  simp only [Succeeds, Ensures, wp_bind, wp_loadHeader, wp_load, accountTable_read]
  cases ledger.accounts.lookup destination with
  | none => exact Succeeds.error
  | some existing =>
      simp only [wp_bind, wp_current, accountTable_read]
      cases found : ledger.accounts.lookup sourceID with
      | none => trivial
      | some source =>
          simp only [wp_ite]
          refine ⟨fun _ => Succeeds.error, fun _ => ⟨fun _ => Succeeds.error, fun same => ?_⟩⟩
          have counted : recordedSubEntries sourceID ledger = signerCount sourceID ledger := by
            simpa [recordedSubEntries, signerCount, found] using same
          refine ⟨fun _ => Succeeds.error, fun _ => ?_⟩
          rw [wp_bind]
          apply Ensures.mono (ensures_true _)
          intro ok after _
          cases ok with
          | false => exact Succeeds.error
          | true =>
              apply Ensures.bind (ensures_true _)
              intro _ _ _
              exact Succeeds.ok counted

theorem run_countsSubEntries {start ledger : Ledger} (valid : SubEntriesCountIsValid start)
    (run : Relation.ReflTransGen Step start ledger) :
    SubEntriesCountIsValid ledger ∧
    (∀ env envelope checker (op : Operation) fault after,
      op.apply env envelope checker ledger = .error fault after → fault ≠ invalidAccountState) ∧
    (∀ checker fault after,
      removeUsedOneTimeSignerKeys checker ledger = .error fault after →
        fault ≠ invalidAccountState) ∧
    (∀ upgrade fault after, applyTo upgrade ledger = .error fault after →
      fault ≠ invalidAccountState) ∧
    (∀ env envelope checker checker' (op : Operation) destination success after,
      op.body = .ACCOUNT_MERGE destination →
      op.apply env envelope checker ledger = .ok (checker', .ok success) after →
        OwnsNothing (op.getSourceID envelope) ledger) := by
  have reached : SubEntriesCountIsValid ledger := by
    induction run with
    | refl => exact valid
    | tail _ step ih => exact step.keepsCount ih
  have unfaulted : ∀ {α : Type} {x : Apply α} {fault : Fault} {after : Ledger},
      Safe x ledger → x ledger = .error fault after → fault ≠ invalidAccountState := by
    intro α x fault after safe ended
    unfold Safe wp at safe
    rw [ended] at safe
    exact safe
  refine ⟨reached, ?_, ?_, ?_, ?_⟩
  · intro env envelope checker op fault after ended
    exact unfaulted (op.apply_safe reached.covered env envelope checker) ended
  · intro checker fault after ended
    exact unfaulted (removeUsedOneTimeSignerKeys_safe reached.covered checker) ended
  · intro upgrade fault after ended
    exact unfaulted (applyTo_safe reached.covered upgrade) ended
  · intro env envelope checker checker' op destination success after merges applied
    rw [← ownsNothing_iff]
    have counted : Ensures (op.apply env envelope checker) ledger fun result _ =>
        ∀ success, result.2 = .ok success →
          recordedSubEntries (op.getSourceID envelope) ledger =
            signerCount (op.getSourceID envelope) ledger := by
      have succeeds : Succeeds (op.body.doApply (op.getSourceID envelope) env.book) ledger
          fun _ _ => recordedSubEntries (op.getSourceID envelope) ledger =
            signerCount (op.getSourceID envelope) ledger := by
        rw [merges]
        exact merge_counts
      exact Operation.apply_succeeds fun _ => succeeds
    rw [Ensures, wp_of_ok applied] at counted
    have same := counted success rfl
    have total := reached (op.getSourceID envelope)
    omega

theorem issuerLedger_counted : SubEntriesCountIsValid issuerLedger := by
  intro accountID
  by_cases first : accountID = 1
  · subst first
    decide
  by_cases second : accountID = 2
  · subst second
    decide
  have absent : issuerLedger.accounts.lookup accountID = none := by
    unfold issuerLedger
    rw [AList.lookup_insert_ne second, AList.lookup_insert_ne first]
    rfl
  have nothing : OwnsNothing accountID issuerLedger := by
    constructor
    · intro key owned
      have other : key ≠ ⟨2, issuedAsset⟩ := by
        rintro rfl
        exact second owned.symm
      unfold issuerLedger
      rw [AList.lookup_insert_ne other]
      rfl
    · intro key _
      rfl
    · intro key _
      rfl
  rw [(ownsNothing_iff accountID issuerLedger).mpr nothing]
  simp [recordedSubEntries, signerCount, absent]

def recordsData : Operation :=
  { sourceAccount := some 2, body := .MANAGE_DATA ⟨[100], some [1]⟩ }

def addsSigner : Operation :=
  { sourceAccount := some 1
    body := .SET_OPTIONS ⟨none, none, none, none, none, none, none, none, some ⟨.preAuthTx 0, 1⟩⟩ }

def dataLedger : Ledger :=
  finalState (recordsData.apply silentEnvironment issueEnvelope (.ofSignatures 10 0 []))
    issuerLedger

def signedLedger : Ledger :=
  finalState (addsSigner.apply silentEnvironment issueEnvelope (.ofSignatures 10 0 []))
    dataLedger

def retiredLedger : Ledger :=
  finalState (removeUsedOneTimeSignerKeys
    ((SignatureChecker.ofSignatures 10 0 []).useOneTimeSigner 1 (.preAuthTx 0))) signedLedger

/-- A data entry and a signer are added, and the signer is used and removed. -/
theorem run_countsSubEntries_signer :
    [issuerLedger, dataLedger, signedLedger, retiredLedger].map
        (fun ledger => (recordedSubEntries 1 ledger, recordedSubEntries 2 ledger)) =
      [(0, 1), (0, 2), (1, 2), (0, 2)] ∧
    Relation.ReflTransGen Step issuerLedger retiredLedger ∧
    SubEntriesCountIsValid retiredLedger := by
  have first : Step issuerLedger dataLedger :=
    .operation silentEnvironment issueEnvelope recordsData (.ofSignatures 10 0 [])
      (.ofSignatures 10 0 []) .manageData (by decide) rfl
  have second : Step dataLedger signedLedger :=
    .operation silentEnvironment issueEnvelope addsSigner (.ofSignatures 10 0 [])
      (.ofSignatures 10 0 []) .setOptions (by decide) rfl
  have third : Step signedLedger retiredLedger :=
    .usedSigners ((SignatureChecker.ofSignatures 10 0 []).useOneTimeSigner 1 (.preAuthTx 0))
      (by decide) rfl
  have run : Relation.ReflTransGen Step issuerLedger retiredLedger :=
    ((Relation.ReflTransGen.single first).tail second).tail third
  exact ⟨by decide +kernel, run, (run_countsSubEntries issuerLedger_counted run).1⟩

end ViiCore.Invariant
