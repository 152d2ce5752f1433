import ViiCore.Herder.ValuePipeline
import ViiCore.Ledger.ReplayProtection
import ViiCore.Transactions.Rollback

/-!
Closing a ledger on what consensus has agreed on.

`closeLedger` checks the transaction set and, after everything else has been applied, every upgrade
step once more. The steps were checked against the last closed header; neither fees nor transactions
change the version in it, and no step but the first can.
-/

namespace ViiCore.LedgerManager

open ViiCore.Ledger ViiCore.FiniteMap ViiCore.Execution ViiCore.Transactions ViiCore.Herder

/-- What `closeLedger` throws of its own, and everything else that ends it. -/
inductive CloseFault where
  | notSupportedVersion
  | txsetMismatch
  | corruptTransactionSet
  | unknownUpgrade (index : Nat)
  | invalidUpgrade (index : Nat)
  | other (fault : Fault)
  deriving DecidableEq

section Close

variable {platform : DriverPlatform} (driver : HerderSCPDriver platform)

/-- The upgrade steps from the one at `index` on. An exception in an upgrade is caught. -/
def applySteps : Nat → List UpgradeType → ViiCore.Ledger → Except CloseFault ViiCore.Ledger
  | _, [], ledger => .ok ledger
  | index, step :: rest, ledger =>
      match Upgrades.isValidForApply platform.xdr step ledger.header
          driver.LEDGER_PROTOCOL_VERSION with
      | (.VALID, some lupgrade) =>
          match inLedgerTxn (applyTo lupgrade) ledger with
          | .ok _ after => applySteps (index + 1) rest after
          | .error fault after =>
              if fault.isException then applySteps (index + 1) rest after
              else .error (.other fault)
      | (.XDR_INVALID, _) => .error (.unknownUpgrade index)
      | _ => .error (.invalidUpgrade index)

/-- `closeLedger` on the last closed ledger of a node, with the checks it makes of its own. -/
def closeExternalized (txSet : TxSetFrame platform.toSetPlatform) (value : VIIValue) :
    Except CloseFault ViiCore.Ledger :=
  let opened := openLedger value.closeTime.toNat driver.ledger
  if opened.header.ledgerVersion > driver.LEDGER_PROTOCOL_VERSION then
    .error .notSupportedVersion
  else if txSet.mPreviousLedgerHash ≠ driver.lclHash then .error .txsetMismatch
  else
    let (txSet, contentsHash) := txSet.getContentsHash
    if contentsHash ≠ value.txSetHash then .error .corruptTransactionSet
    else
      let txs := txSet.sortForApply
      match txSet.getBaseFee opened.header with
      | .error fault => .error (.other fault)
      | .ok baseFee =>
          match processFeesSeqNums txs baseFee opened with
          | .error fault _ => .error (.other fault)
          | .ok _ charged =>
              match applyTransactions platform.env txs charged with
              | (_, .error fault) => .error (.other fault)
              | (_, .ok applied) => applySteps driver 0 value.upgrades.1 applied

end Close

/-! ### The numbers in the header -/

variable {ledger : ViiCore.Ledger}

def numbers (ledger : ViiCore.Ledger) : Nat × Nat :=
  (ledger.header.ledgerVersion, ledger.header.ledgerSeq)

theorem numbers_of_header {after : ViiCore.Ledger} (same : after.header = ledger.header) :
    numbers after = numbers ledger := by
  unfold numbers
  rw [same]

theorem removeUsedOneTimeSignerKeysOf_header (accountID : AccountID) (keys : List SignerKey) :
    Ensures (removeUsedOneTimeSignerKeysOf accountID keys) ledger fun _ after =>
      after.header = ledger.header := by
  unfold removeUsedOneTimeSignerKeysOf
  simp only [Ensures, wp_bind, wp_load, accountTable_read]
  cases ledger.accounts.lookup accountID with
  | none => rfl
  | some account =>
      simp only [wp_bind, wp_loadHeader, wp_computed]
      cases removeFirstSigner ledger.header account keys with
      | error fault => trivial
      | ok updated =>
          cases updated with
          | none => rfl
          | some updated => rfl

theorem removeUsedOneTimeSignerKeys_header (checker : SignatureChecker) :
    Ensures (removeUsedOneTimeSignerKeys checker) ledger fun _ after =>
      after.header = ledger.header := by
  unfold removeUsedOneTimeSignerKeys
  generalize checker.usedOneTimeSignerKeys.entries = used
  induction used generalizing ledger with
  | nil => rfl
  | cons entry rest ih =>
      change Ensures (removeUsedOneTimeSignerKeysOf entry.1 entry.2 >>= fun _ => rest.forM _)
        ledger _
      apply Ensures.bind (removeUsedOneTimeSignerKeysOf_header entry.1 entry.2)
      intro _ middle early
      apply Ensures.mono ih
      intro _ after late
      exact late.trans early

theorem applyOperations_numbers (env : Environment) (envelope : TransactionEnvelope)
    (checker : SignatureChecker) :
    Ensures (applyOperations env envelope checker) ledger fun _ after =>
      numbers after = numbers ledger := by
  unfold applyOperations
  simp only [Ensures, wp_bind, wp_get]
  apply Ensures.mono (applyEach_follows env envelope envelope.tx.operations checker)
  intro result after follows
  simp only [wp_ite, wp_bind, wp_set, wp_loadHeader, wp_pure]
  constructor
  · intro _
    trivial
  · intro succeeded
    obtain ⟨moves, follows⟩ := follows (not_not.mp succeeded)
    have same : numbers after = numbers ledger := by
      unfold numbers
      rw [follows.header]
    constructor
    · intro _
      constructor
      · intro _
        trivial
      · intro _
        apply Ensures.mono (removeUsedOneTimeSignerKeys_header result.1)
        intro _ last kept
        exact (numbers_of_header kept).trans same
    · intro _
      exact same

theorem apply_numbers (env : Environment) (envelope : TransactionEnvelope) :
    wp (apply env envelope)
      (fun _ after => numbers after = numbers ledger)
      (fun _ after => numbers after = numbers ledger) ledger := by
  unfold apply
  rw [wp_bind, wp_inLedgerTxn]
  apply wp_mono (applyHeader_leaves env envelope)
  · intro result middle leaves
    have early : numbers middle = numbers ledger := numbers_of_header leaves.1.header
    obtain ⟨checker, validation, valid⟩ := result
    cases valid with
    | error code => exact early
    | ok _ =>
        simp only [wp_bind, wp_inLedgerTxn]
        apply wp_mono (applyOperations_numbers env envelope checker)
        · intro _ after late
          exact late.trans early
        · intro _ _ _
          exact early
  · intro _ _ _
    rfl

theorem applyTransactions_numbers (env : Environment) {txs : List TransactionEnvelope}
    {applications : List Application} {after : ViiCore.Ledger}
    (applied : applyTransactions env txs ledger = (applications, .ok after)) :
    numbers after = numbers ledger := by
  induction txs generalizing ledger applications with
  | nil =>
      cases applied
      rfl
  | cons envelope rest ih =>
      have one : wp (apply env envelope)
          (fun _ after => numbers after = numbers ledger)
          (fun _ after => numbers after = numbers ledger) ledger :=
        apply_numbers env envelope
      unfold wp at one
      unfold applyTransactions at applied
      cases ran : apply env envelope ledger with
      | ok result middle =>
          simp only [ran] at applied one
          obtain ⟨_, same⟩ := Prod.mk.inj applied
          exact (ih (Prod.ext rfl same)).trans one
      | error fault middle =>
          simp only [ran] at applied one
          split at applied
          · obtain ⟨_, same⟩ := Prod.mk.inj applied
            exact (ih (Prod.ext rfl same)).trans one
          · cases applied

theorem processFeesSeqNums_numbers (txs : List TransactionEnvelope) (baseFee : Int) :
    Ensures (processFeesSeqNums txs baseFee) ledger fun _ after =>
      numbers after = numbers ledger := by
  have one : ∀ (envelope : TransactionEnvelope) (ledger : ViiCore.Ledger),
      Ensures (processFeeSeqNum envelope baseFee) ledger fun _ after =>
        numbers after = numbers ledger := by
    intro envelope ledger
    unfold processFeeSeqNum
    simp only [Ensures, wp_bind, wp_loadHeader, wp_load, accountTable_read]
    cases ledger.accounts.lookup envelope.tx.sourceAccount with
    | none => trivial
    | some source =>
        simp only [wp_bind, wp_computed]
        cases chargeFee source (getFee envelope ledger.header baseFee) with
        | error fault => trivial
        | ok result =>
            simp only [wp_modify, wp_ite, wp_store, accountTable_read, accountTable_write]
            exact ⟨fun _ => ⟨fun _ => trivial, fun _ => rfl⟩, fun _ => rfl⟩
  unfold processFeesSeqNums
  induction txs generalizing ledger with
  | nil => rfl
  | cons envelope rest ih =>
      change Ensures (processFeeSeqNum envelope baseFee >>= fun _ => rest.forM _) ledger _
      apply Ensures.bind (one envelope ledger)
      intro _ middle early
      apply Ensures.mono ih
      intro _ after late
      exact late.trans early

/-! ### The steps -/

section Steps

variable {platform : DriverPlatform} (driver : HerderSCPDriver platform)

/-- The errors that a value validated beforehand must not lead to. -/
def CloseFault.isRejection : CloseFault → Bool
  | .txsetMismatch => true
  | .corruptTransactionSet => true
  | .unknownUpgrade _ => true
  | .invalidUpgrade _ => true
  | .notSupportedVersion => false
  | .other _ => false

theorem isValidForApply_header {upgrade : LedgerUpgrade} {header other : LedgerHeader}
    {maxLedgerVersion : Nat} (valid : isValidForApply upgrade header maxLedgerVersion = true)
    (same : upgrade.type = .LEDGER_UPGRADE_VERSION → other.ledgerVersion = header.ledgerVersion) :
    isValidForApply upgrade other maxLedgerVersion = true := by
  cases upgrade with
  | LEDGER_UPGRADE_VERSION newVersion =>
      simp only [isValidForApply] at valid ⊢
      rw [same rfl]
      exact valid
  | LEDGER_UPGRADE_BASE_FEE newBaseFee => exact valid
  | LEDGER_UPGRADE_MAX_TX_SET_SIZE newMaxTxSetSize => exact valid
  | LEDGER_UPGRADE_BASE_RESERVE newBaseReserve => exact valid

/-- A step has a type above the ones before it, so it is not the one of the version. -/
theorem ne_version_of_later {type : LedgerUpgradeType} {rest : List LedgerUpgradeType}
    (ascending : HerderSCPDriver.Ascending (type :: rest)) :
    ∀ later ∈ rest, later ≠ .LEDGER_UPGRADE_VERSION := by
  intro later member isVersion
  have above := (List.pairwise_cons.mp ascending).1 later.code (List.mem_map_of_mem member)
  have lowest : 1 ≤ type.code := by cases type <;> decide
  rw [isVersion] at above
  exact absurd above (not_lt.mpr lowest)

theorem applySteps_accepts {steps : List UpgradeType} {index : Nat} {fault : CloseFault}
    (valid : ∀ step ∈ steps, (driver.isValid false step).isSome)
    (ascending : HerderSCPDriver.Ascending (driver.validTypes false steps))
    (sameVersion : .LEDGER_UPGRADE_VERSION ∈ driver.validTypes false steps →
      ledger.header.ledgerVersion = driver.ledger.header.ledgerVersion)
    (fails : applySteps driver index steps ledger = .error fault) :
    fault.isRejection = false := by
  induction steps generalizing ledger index with
  | nil => cases fails
  | cons step rest ih =>
      obtain ⟨upgrade, decoded, applies, accepted⟩ :=
        driver.isValid_isSome (valid step List.mem_cons_self)
      have types : driver.validTypes false (step :: rest) =
          upgrade.type :: driver.validTypes false rest := by
        simp [HerderSCPDriver.validTypes, accepted]
      rw [types] at ascending sameVersion
      have here : isValidForApply upgrade ledger.header driver.LEDGER_PROTOCOL_VERSION = true := by
        apply isValidForApply_header applies
        intro isVersion
        apply sameVersion
        rw [isVersion]
        exact List.mem_cons_self
      have later := fun {middle : ViiCore.Ledger} => @ih middle (index + 1)
        (fun other member => valid other (List.mem_cons_of_mem step member))
        (List.pairwise_cons.mp ascending).2
        fun impossible => absurd rfl (ne_version_of_later ascending _ impossible)
      unfold applySteps at fails
      simp only [Upgrades.isValidForApply, decoded, here, if_true] at fails
      cases ran : inLedgerTxn (applyTo upgrade) ledger with
      | ok _ after =>
          rw [ran] at fails
          exact later fails
      | error caught after =>
          rw [ran] at fails
          dsimp only at fails
          split at fails
          · exact later fails
          · cases fails
            rfl

theorem applyTo_ledgerSeq (upgrade : LedgerUpgrade) (ledger : ViiCore.Ledger) :
    Ensures (applyTo upgrade) ledger fun _ after =>
      after.header.ledgerSeq = ledger.header.ledgerSeq := by
  have prepared : ∀ changed : ViiCore.Ledger,
      changed.header.ledgerSeq = ledger.header.ledgerSeq →
        Ensures prepareLiabilities changed fun _ after =>
          after.header.ledgerSeq = ledger.header.ledgerSeq := by
    intro changed same
    apply Ensures.mono prepareLiabilities_follows
    intro _ after follows
    rw [follows.header]
    exact same
  cases upgrade with
  | LEDGER_UPGRADE_VERSION newVersion =>
      simp only [applyTo, applyVersionUpgrade, modifyHeader, Ensures, wp_bind, wp_loadHeader,
        wp_modify, wp_ite]
      exact ⟨fun _ => prepared _ rfl, fun _ => rfl⟩
  | LEDGER_UPGRADE_BASE_FEE newBaseFee => rfl
  | LEDGER_UPGRADE_MAX_TX_SET_SIZE newMaxTxSetSize => rfl
  | LEDGER_UPGRADE_BASE_RESERVE newReserve =>
      simp only [applyTo, applyReserveUpgrade, modifyHeader, Ensures, wp_bind, wp_loadHeader,
        wp_modify, wp_ite]
      exact ⟨fun _ => prepared _ rfl, fun _ => rfl⟩

theorem applySteps_ledgerSeq {steps : List UpgradeType} {index : Nat} {ledger after : ViiCore.Ledger}
    (applied : applySteps driver index steps ledger = .ok after) :
    after.header.ledgerSeq = ledger.header.ledgerSeq := by
  induction steps generalizing ledger index with
  | nil =>
      cases applied
      rfl
  | cons step rest ih =>
      unfold applySteps at applied
      split at applied
      · rename_i upgrade _
        have kept := applyTo_ledgerSeq upgrade ledger
        unfold Ensures wp at kept
        unfold inLedgerTxn at applied
        cases ran : applyTo upgrade ledger with
        | ok _ middle =>
            rw [ran] at applied kept
            exact (ih applied).trans kept
        | error fault middle =>
            rw [ran] at applied
            dsimp only at applied
            split at applied
            · exact ih applied
            · cases applied
      · cases applied
      · cases applied

theorem closeExternalized_ledgerSeq {txSet : TxSetFrame platform.toSetPlatform} {b : VIIValue}
    {after : ViiCore.Ledger} (closed : closeExternalized driver txSet b = .ok after) :
    after.header.ledgerSeq = (driver.ledger.header.ledgerSeq + 1) % 2 ^ 32 := by
  unfold closeExternalized at closed
  dsimp only at closed
  split at closed
  · cases closed
  · split at closed
    · cases closed
    · split at closed
      · cases closed
      · split at closed
        · cases closed
        · rename_i baseFee _
          have charging := @processFeesSeqNums_numbers
            (openLedger b.closeTime.toNat driver.ledger) txSet.getContentsHash.1.sortForApply baseFee
          unfold Ensures wp at charging
          split at closed
          · cases closed
          · rename_i charged runs
            rw [runs] at charging
            split at closed
            · cases closed
            · rename_i applications applied runsAll
              have numbered := (applyTransactions_numbers platform.env runsAll).trans charging
              exact (applySteps_ledgerSeq driver closed).trans (congrArg Prod.snd numbered)

theorem closeExternalized_accepts {slotIndex : UInt64} {value : Value} {b : VIIValue}
    {txSet : TxSetFrame platform.toSetPlatform} {fault : CloseFault}
    (full : driver.validateValue slotIndex value false = .ok .kFullyValidatedValue)
    (decoded : platform.xdr.valueFromOpaque value = some b)
    (cached : driver.getTxSet b.txSetHash = some txSet)
    (fails : closeExternalized driver txSet b = .error fault) : fault.isRejection = false := by
  obtain ⟨_, same, helper, checked⟩ := driver.validateValue_eq_full.mp full
  rw [decoded] at same
  cases same
  obtain ⟨valid, ascending⟩ := (driver.checkUpgrades_iff false none b.upgrades.1).mp checked
  obtain ⟨_, found, ran⟩ := (driver.validateValueHelper_full.mp helper).passes
  rw [cached] at found
  cases found
  obtain ⟨_, passes⟩ := HerderSCPDriver.runOn_eq_ok.mp ran
  have previous := (TxSetFrame.checkValid_passed passes).2.previous
  have contents : txSet.getContentsHash = (txSet, b.txSetHash) := by
    unfold TxSetFrame.getContentsHash
    split
    · rename_i hash stored
      have key := driver.cached b.txSetHash txSet cached
      rw [stored] at key
      rw [Option.some.inj key]
    · rename_i unset
      have key := driver.cached b.txSetHash txSet cached
      rw [unset] at key
      cases key
  unfold closeExternalized at fails
  dsimp only at fails
  split at fails
  · cases fails
    rfl
  · rw [if_neg (not_not.mpr previous), contents] at fails
    dsimp only at fails
    rw [if_neg (not_not.mpr rfl)] at fails
    split at fails
    · cases fails
      rfl
    · rename_i baseFee _
      have charging := @processFeesSeqNums_numbers (openLedger b.closeTime.toNat driver.ledger)
        txSet.sortForApply baseFee
      unfold Ensures wp at charging
      split at fails
      · cases fails
        rfl
      · rename_i charged runs
        rw [runs] at charging
        split at fails
        · cases fails
          rfl
        · rename_i applications applied runsAll
          apply applySteps_accepts driver valid ascending _ fails
          intro _
          exact congrArg Prod.fst ((applyTransactions_numbers platform.env runsAll).trans charging)

/-- Candidates that were validated for nomination are combined to a value that is valid for the
ballot protocol, and no value that is gets rejected when the ledger is closed. -/
theorem combineCandidates_closes {slotIndex : UInt64} {candidates : List Value}
    (compat : driver.isSlotCompatibleWithCurrentState slotIndex = true)
    (coins : TxSetFrame.CoinsAddUp driver.ledger)
    (typed : ∀ hash txSet, driver.getTxSet hash = some txSet →
      TxSetFrame.Typed driver.ledger.header txSet.mTransactions)
    (collisionFree : ∀ hash txSet, driver.getTxSet hash = some txSet →
      TxSetFrame.CollisionFree platform.toSetPlatform txSet.mTransactions)
    (clock : driver.timeNow.toNat + 60 < 2 ^ 64) (nonempty : candidates ≠ [])
    (validated : ∀ value ∈ candidates, ∃ earlier ≤ driver.timeNow,
      (driver.atTime earlier).validateValue slotIndex value true = .ok .kFullyValidatedValue) :
    (∃ value b txSet, driver.combineCandidates candidates = .ok (value, none) ∧
      platform.xdr.valueFromOpaque value = some b ∧
      driver.getTxSet b.txSetHash = some txSet ∧
      driver.validateValue slotIndex value false = .ok .kFullyValidatedValue) ∧
    ∀ value b txSet fault,
      driver.validateValue slotIndex value false = .ok .kFullyValidatedValue →
      platform.xdr.valueFromOpaque value = some b →
      driver.getTxSet b.txSetHash = some txSet →
      closeExternalized driver txSet b = .error fault →
        fault ≠ .txsetMismatch ∧ fault ≠ .corruptTransactionSet ∧
        (∀ index, fault ≠ .unknownUpgrade index) ∧ ∀ index, fault ≠ .invalidUpgrade index := by
  constructor
  · obtain ⟨b, txSet, combines, cached, full⟩ := driver.combineCandidates_validated coins typed
      nonempty collisionFree compat fun value member => by
        obtain ⟨earlier, before, full⟩ := validated value member
        exact (driver.votable_of_validated before clock full).2
    exact ⟨_, b, txSet, combines, platform.xdr.value_roundTrip b, cached, full⟩
  · intro value b txSet fault full decoded cached fails
    have accepted := closeExternalized_accepts driver full decoded cached fails
    refine ⟨?_, ?_, ?_, ?_⟩
    · rintro rfl
      cases accepted
    · rintro rfl
      cases accepted
    · rintro index rfl
      cases accepted
    · rintro index rfl
      cases accepted

end Steps

/-! ### Two candidates -/

open TxSetFrame

theorem soloDriver_found {hash : Hash} {txSet : TxSetFrame soloDriverPlatform.toSetPlatform}
    (found : soloDriver.getTxSet hash = some txSet) :
    txSet.mTransactions ∈ ([[], [signedTransaction 9 4],
      [signedTransaction 7 4, signedTransaction 8 5]] : List (List TransactionEnvelope)) := by
  unfold soloDriver at found
  dsimp only at found
  split at found
  · cases found
    exact List.mem_cons_self
  · split at found
    · cases found
      exact List.mem_cons_of_mem _ List.mem_cons_self
    · split at found
      · cases found
        exact List.mem_cons_of_mem _ (List.mem_cons_of_mem _ List.mem_cons_self)
      · cases found

theorem soloDriver_typed {hash : Hash} {txSet : TxSetFrame soloDriverPlatform.toSetPlatform}
    (found : soloDriver.getTxSet hash = some txSet) :
    Typed soloDriver.ledger.header txSet.mTransactions := by
  have seen := soloDriver_found found
  simp only [List.mem_cons, List.not_mem_nil, or_false] at seen
  rcases seen with seen | seen | seen
  · rw [seen]
    exact ⟨by decide, by simp, by simp⟩
  · rw [seen]
    exact ⟨by decide, by simp [signedTransaction], by simp [signedTransaction, MAX_OPS_PER_TX]⟩
  · rw [seen]
    exact ⟨by decide, by simp [signedTransaction], by simp [signedTransaction, MAX_OPS_PER_TX]⟩

theorem soloDriver_collisionFree {hash : Hash}
    {txSet : TxSetFrame soloDriverPlatform.toSetPlatform}
    (found : soloDriver.getTxSet hash = some txSet) :
    CollisionFree soloDriverPlatform.toSetPlatform txSet.mTransactions := by
  have seen := soloDriver_found found
  simp only [List.mem_cons, List.not_mem_nil, or_false] at seen
  rcases seen with seen | seen | seen
  · rw [seen]
    simp [CollisionFree]
  · rw [seen]
    simp [CollisionFree]
  · rw [seen]
    intro first inFirst second inSecond same
    simp only [List.mem_cons, List.not_mem_nil, or_false] at inFirst inSecond
    have different : BitVec.ofNat 256 7 ≠ BitVec.ofNat 256 8 := by decide
    rcases inFirst with rfl | rfl <;> rcases inSecond with rfl | rfl
    · rfl
    · exact absurd same different
    · exact absurd same.symm different
    · rfl

def largerSets : VIIValue :=
  signedValue 15 50 [.LEDGER_UPGRADE_MAX_TX_SET_SIZE 70] (by decide)

def higherFee : VIIValue := signedValue 9 60 [.LEDGER_UPGRADE_BASE_FEE 2] (by decide)

theorem largerSets_validated :
    (soloDriver.atTime 90).validateValue 6 (ValueXdr.value.encode largerSets) true =
      .ok .kFullyValidatedValue := by
  rw [(soloDriver.atTime 90).validateValue_eq_full]
  refine ⟨largerSets, ValueXdr.value.fromOpaque_encode largerSets, rfl, ?_⟩
  have size := (soloDriver.atTime 90).isValid_upgradeToOpaque true
    (.LEDGER_UPGRADE_MAX_TX_SET_SIZE 70) (by decide)
  rw [if_pos (by decide)] at size
  change (soloDriver.atTime 90).checkUpgrades true none
    [soloDriverPlatform.xdr.upgradeToOpaque (.LEDGER_UPGRADE_MAX_TX_SET_SIZE 70)] = true
  simp only [HerderSCPDriver.checkUpgrades, size]
  rfl

theorem higherFee_validated :
    soloDriver.validateValue 6 (ValueXdr.value.encode higherFee) true =
      .ok .kFullyValidatedValue := by
  rw [soloDriver.validateValue_eq_full]
  refine ⟨higherFee, ValueXdr.value.fromOpaque_encode higherFee, rfl, ?_⟩
  have fee := soloDriver.isValid_upgradeToOpaque true (.LEDGER_UPGRADE_BASE_FEE 2) (by decide)
  rw [if_pos (by decide)] at fee
  change soloDriver.checkUpgrades true none
    [soloDriverPlatform.xdr.upgradeToOpaque (.LEDGER_UPGRADE_BASE_FEE 2)] = true
  simp only [HerderSCPDriver.checkUpgrades, fee]
  rfl

/-- The two transactions pay more than the one, and they are applied with both steps at the later
time. -/
theorem combineCandidates_closes_two :
    ∃ value b txSet,
      soloDriver.combineCandidates
        [ValueXdr.value.encode largerSets, ValueXdr.value.encode higherFee] = .ok (value, none) ∧
      ValueXdr.value.fromOpaque value = some b ∧ soloDriver.getTxSet b.txSetHash = some txSet ∧
      soloDriver.validateValue 6 value false = .ok .kFullyValidatedValue ∧
      (b.txSetHash, b.closeTime, b.upgrades.1.length) = (15, 60, 2) := by
  have closes := @combineCandidates_closes _ soloDriver 6
    [ValueXdr.value.encode largerSets, ValueXdr.value.encode higherFee] rfl
    roomyLedger_coins (fun _ _ found => soloDriver_typed found)
    (fun _ _ found => soloDriver_collisionFree found) (by decide) (by simp)
    fun value member => by
      simp only [List.mem_cons, List.not_mem_nil, or_false] at member
      rcases member with rfl | rfl
      · exact ⟨90, by decide, largerSets_validated⟩
      · exact ⟨soloDriver.timeNow, UInt64.le_refl _, higherFee_validated⟩
  obtain ⟨value, b, txSet, combines, decoded, cached, full⟩ := closes.1
  have combined : (soloDriver.combineCandidates
      [ValueXdr.value.encode largerSets, ValueXdr.value.encode higherFee]).toOption.map
        (fun result => (ValueXdr.value.fromOpaque result.1).map fun b =>
          (b.txSetHash, b.closeTime, b.upgrades.1.length)) = some (some (15, 60, 2)) := by
    decide +kernel
  have read : ValueXdr.value.fromOpaque value = some b := decoded
  rw [combines] at combined
  simp only [Except.toOption, Option.map_some, read, Option.some.injEq] at combined
  exact ⟨value, b, txSet, combines, decoded, cached, full, combined⟩

end ViiCore.LedgerManager
