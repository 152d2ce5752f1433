import ViiCore.Herder.TxSetValidity
import ViiCore.Herder.ValueXdr

/-!
What a node extracts from a value it does not fully validate.

Extraction throws out the upgrade steps that are not valid, one by one. It does not look at the
order of those that stay, which validation does.
-/

namespace ViiCore.Herder

open ViiCore.Ledger ViiCore.Transactions

namespace HerderSCPDriver

variable {platform : DriverPlatform} (driver : HerderSCPDriver platform)

/-- The types of the upgrade steps that are valid for nomination, in the order of the value. -/
def validTypes (nomination : Bool) (upgrades : List UpgradeType) : List LedgerUpgradeType :=
  upgrades.filterMap (driver.isValid nomination)

def Ascending (types : List LedgerUpgradeType) : Prop :=
  (types.map LedgerUpgradeType.code).Pairwise (· < ·)

theorem checkUpgrades_iff (nomination : Bool) (last : Option LedgerUpgradeType)
    (upgrades : List UpgradeType) :
    driver.checkUpgrades nomination last upgrades = true ↔
      (∀ upgrade ∈ upgrades, (driver.isValid nomination upgrade).isSome) ∧
      Ascending (last.toList ++ driver.validTypes nomination upgrades) := by
  induction upgrades generalizing last with
  | nil => cases last <;> simp [checkUpgrades, validTypes, Ascending]
  | cons upgrade rest ih =>
      cases valid : driver.isValid nomination upgrade with
      | none => simp [checkUpgrades, valid]
      | some type =>
          have later := ih (some type)
          have types : driver.validTypes nomination (upgrade :: rest) =
              type :: driver.validTypes nomination rest := by
            simp [validTypes, valid]
          simp only [checkUpgrades, valid, types, List.mem_cons, forall_eq_or_imp,
            Option.isSome_some, true_and]
          cases last with
          | none => exact later
          | some before =>
              have chained : Ascending (before :: type :: driver.validTypes nomination rest) ↔
                  before.code < type.code ∧
                    Ascending (type :: driver.validTypes nomination rest) :=
                List.pairwise_cons_cons_iff_of_trans
              simp only [Option.any_some, decide_eq_true_eq, Option.toList_some,
                List.singleton_append, chained]
              split
              · rename_i notBelow
                constructor
                · intro impossible
                  cases impossible
                · intro ⟨_, below, _⟩
                  omega
              · rename_i below
                have smaller : before.code < type.code := by omega
                rw [later]
                simp [smaller]

theorem isValid_upgradeToOpaque (nomination : Bool) (upgrade : LedgerUpgrade)
    (fits : upgrade.number < 2 ^ 32) :
    driver.isValid nomination (platform.xdr.upgradeToOpaque upgrade) =
      if isValidForApply upgrade driver.ledger.header driver.LEDGER_PROTOCOL_VERSION = true ∧
          (nomination = true → Upgrades.isValidForNomination driver.mUpgrades platform.from_time_t
            upgrade driver.ledger.header = true) then some upgrade.type
      else none := by
  simp only [isValid, Upgrades.isValid, Upgrades.isValidForApply,
    platform.xdr.upgrade_roundTrip upgrade fits]
  cases isValidForApply upgrade driver.ledger.header driver.LEDGER_PROTOCOL_VERSION with
  | false => rfl
  | true =>
      cases nomination <;> simp
      split <;> simp_all

theorem isValid_withValidUpgrades (b : VIIValue) :
    (∀ upgrade ∈ (driver.withValidUpgrades b).upgrades.1,
      (driver.isValid true upgrade).isSome) ∧
    driver.validTypes true (driver.withValidUpgrades b).upgrades.1 =
      driver.validTypes true b.upgrades.1 := by
  constructor
  · intro upgrade member
    exact (List.mem_filter.mp member).2
  · simp only [validTypes, withValidUpgrades, List.filterMap_filter]
    apply List.filterMap_congr
    intro upgrade _
    cases driver.isValid true upgrade <;> rfl

theorem validateValueHelper_withValidUpgrades (slotIndex : UInt64) (b : VIIValue)
    (nomination : Bool) :
    driver.validateValueHelper slotIndex (driver.withValidUpgrades b) nomination =
      driver.validateValueHelper slotIndex b nomination := rfl

theorem validateValue_eq_full {slotIndex : UInt64} {value : Value} {nomination : Bool} :
    driver.validateValue slotIndex value nomination = .ok .kFullyValidatedValue ↔
      ∃ b, platform.xdr.valueFromOpaque value = some b ∧
        driver.validateValueHelper slotIndex b nomination = .ok .kFullyValidatedValue ∧
        driver.checkUpgrades nomination none b.upgrades.1 = true := by
  unfold validateValue
  cases decoded : platform.xdr.valueFromOpaque value with
  | none => simp [pure, Except.pure]
  | some b =>
      simp only [Option.some.injEq, exists_eq_left']
      rw [except_bind_ok]
      constructor
      · intro ⟨res, helper, level⟩
        split at level
        · cases level
        · rename_i passes
          cases level
          rw [not_and_or, not_not, not_not] at passes
          exact ⟨helper, passes.resolve_left (by decide)⟩
      · intro ⟨helper, passes⟩
        exact ⟨_, helper, by simp [passes, pure, Except.pure]⟩

/-- What a node votes for instead of a value it does not fully validate should be fully valid, and
a value that is stays as it is. -/
def ExtractsVotable (slotIndex : UInt64) (value : Value) : Prop :=
  (∀ extracted, driver.extractValidValue slotIndex value = .ok extracted → extracted ≠ [] →
    driver.validateValue slotIndex extracted true = .ok .kFullyValidatedValue) ∧
  (driver.validateValue slotIndex value true = .ok .kFullyValidatedValue →
    driver.extractValidValue slotIndex value = .ok value)

theorem extractValidValue_of_full {slotIndex : UInt64} {value : Value} {b : VIIValue}
    (decoded : platform.xdr.valueFromOpaque value = some b)
    (full : driver.validateValueHelper slotIndex b true = .ok .kFullyValidatedValue) :
    driver.extractValidValue slotIndex value =
      .ok (platform.xdr.valueToOpaque (driver.withValidUpgrades b)) := by
  simp [extractValidValue, decoded, full, bind, Except.bind, pure, Except.pure]

theorem extractValidValue_ne_nil {slotIndex : UInt64} {value extracted : Value}
    (extracts : driver.extractValidValue slotIndex value = .ok extracted) (some : extracted ≠ []) :
    ∃ b, platform.xdr.valueFromOpaque value = .some b ∧
      driver.validateValueHelper slotIndex b true = .ok .kFullyValidatedValue ∧
      extracted = platform.xdr.valueToOpaque (driver.withValidUpgrades b) := by
  unfold extractValidValue at extracts
  split at extracts
  · cases extracts
    exact absurd rfl some
  · rename_i b decoded
    obtain ⟨level, helper, rest⟩ := except_bind_ok.mp extracts
    split at rest
    · rename_i full
      cases rest
      exact ⟨b, decoded, full ▸ helper, rfl⟩
    · cases rest
      exact absurd rfl some

theorem validateValue_withValidUpgrades {slotIndex : UInt64} {b : VIIValue}
    (full : driver.validateValueHelper slotIndex b true = .ok .kFullyValidatedValue) :
    driver.validateValue slotIndex (platform.xdr.valueToOpaque (driver.withValidUpgrades b)) true =
        .ok .kFullyValidatedValue ↔
      Ascending (driver.validTypes true b.upgrades.1) := by
  obtain ⟨valid, types⟩ := driver.isValid_withValidUpgrades b
  have checked := driver.checkUpgrades_iff true none (driver.withValidUpgrades b).upgrades.1
  rw [types] at checked
  rw [validateValue_eq_full, platform.xdr.value_roundTrip]
  simp only [Option.some.injEq, exists_eq_left', validateValueHelper_withValidUpgrades, full,
    true_and, checked]
  exact and_iff_right valid

theorem withValidUpgrades_of_checked {b : VIIValue}
    (checked : driver.checkUpgrades true none b.upgrades.1 = true) :
    driver.withValidUpgrades b = b := by
  have valid := ((driver.checkUpgrades_iff true none b.upgrades.1).mp checked).1
  have same : b.upgrades.1.filter (fun upgrade => (driver.isValid true upgrade).isSome) =
      b.upgrades.1 := List.filter_eq_self.mpr valid
  unfold withValidUpgrades
  congr 1
  exact Subtype.ext same

/-- What is extracted is valid unless the steps that are valid by themselves are out of order or
repeat a type. -/
theorem extractValidValue_votable_iff (slotIndex : UInt64) (value : Value) :
    driver.ExtractsVotable slotIndex value ↔
      ∀ b, platform.xdr.valueFromOpaque value = some b →
        driver.validateValueHelper slotIndex b true = .ok .kFullyValidatedValue →
          Ascending (driver.validTypes true b.upgrades.1) := by
  constructor
  · intro ⟨votable, _⟩ b decoded full
    rw [← driver.validateValue_withValidUpgrades full]
    exact votable _ (driver.extractValidValue_of_full decoded full)
      (platform.xdr.value_ne_nil _)
  · intro ascending
    constructor
    · intro extracted extracts some
      obtain ⟨b, decoded, full, rfl⟩ := driver.extractValidValue_ne_nil extracts some
      exact (driver.validateValue_withValidUpgrades full).mpr (ascending b decoded full)
    · intro valid
      obtain ⟨b, decoded, full, checked⟩ := driver.validateValue_eq_full.mp valid
      rw [driver.extractValidValue_of_full decoded full,
        driver.withValidUpgrades_of_checked checked, platform.xdr.value_canonical decoded]

end HerderSCPDriver

/-! ### Two valid steps in the wrong order -/

open TxSetFrame

/-- The hash of a set is the sum of its fees. -/
def soloDriverPlatform : DriverPlatform where
  toSetPlatform := { feePlatform with
    sha256 := fun _ txs => BitVec.ofNat 256 (txs.map fun tx => tx.tx.fee).sum }
  xdr := ValueXdr.xdr
  verifySig _ _ _ _ := true
  sha256Value _ := 0
  from_time_t time := time

def seenTxSet (txs : List TransactionEnvelope) : TxSetFrame soloDriverPlatform.toSetPlatform :=
  (TxSetFrame.ofTransactions 0 txs).getContentsHash.1

def soloDriver : HerderSCPDriver soloDriverPlatform where
  ledger := roomyLedger
  lclHash := 0
  isSynced := true
  LEDGER_PROTOCOL_VERSION := 11
  mUpgrades := { mUpgradeTime := 0, mProtocolVersion := none, mBaseFee := some 2,
                 mMaxTxSize := some 70, mBaseReserve := none }
  timeNow := 100
  getTxSet hash :=
    if hash = 0 then some (seenTxSet [])
    else if hash = 9 then some (seenTxSet [signedTransaction 9 4])
    else if hash = 15 then some (seenTxSet [signedTransaction 7 4, signedTransaction 8 5])
    else none
  mTrackingSCP := none
  cached hash txSet found := by
    split at found
    · rename_i zero
      cases found
      rw [zero]
      rfl
    · split at found
      · rename_i nine
        cases found
        rw [nine]
        rfl
      · split at found
        · rename_i fifteen
          cases found
          rw [fifteen]
          rfl
        · cases found

def signedValue (txSetHash : Hash) (closeTime : UInt64) (steps : List LedgerUpgrade)
    (few : steps.length ≤ 6) : VIIValue where
  txSetHash
  closeTime
  upgrades := ⟨steps.map ValueXdr.upgradeToOpaque, by simpa using few⟩
  ext := .VII_VALUE_SIGNED { nodeID := 1, signature := ⟨[], by decide⟩ }

/-- The sets are made larger before the fee is raised. -/
theorem extractValidValue_outOfOrder :
    ¬ soloDriver.ExtractsVotable 6 (ValueXdr.value.encode (signedValue 15 50
      [.LEDGER_UPGRADE_MAX_TX_SET_SIZE 70, .LEDGER_UPGRADE_BASE_FEE 2] (by decide))) := by
  intro ⟨votable, _⟩
  have decoded := ValueXdr.value.fromOpaque_encode (signedValue 15 50
    [.LEDGER_UPGRADE_MAX_TX_SET_SIZE 70, .LEDGER_UPGRADE_BASE_FEE 2] (by decide))
  have full : soloDriver.validateValueHelper 6 (signedValue 15 50
      [.LEDGER_UPGRADE_MAX_TX_SET_SIZE 70, .LEDGER_UPGRADE_BASE_FEE 2] (by decide)) true =
        .ok .kFullyValidatedValue := rfl
  have valid := votable _ (soloDriver.extractValidValue_of_full decoded full)
    (soloDriverPlatform.xdr.value_ne_nil _)
  rw [soloDriver.validateValue_withValidUpgrades full] at valid
  have types : soloDriver.validTypes true (signedValue 15 50
      [.LEDGER_UPGRADE_MAX_TX_SET_SIZE 70, .LEDGER_UPGRADE_BASE_FEE 2] (by decide)).upgrades.1 =
      [.LEDGER_UPGRADE_MAX_TX_SET_SIZE, .LEDGER_UPGRADE_BASE_FEE] := by
    have size := soloDriver.isValid_upgradeToOpaque true (.LEDGER_UPGRADE_MAX_TX_SET_SIZE 70)
      (by decide)
    have fee := soloDriver.isValid_upgradeToOpaque true (.LEDGER_UPGRADE_BASE_FEE 2) (by decide)
    rw [if_pos (by decide)] at size fee
    simp only [HerderSCPDriver.validTypes, signedValue, List.map_cons, List.map_nil]
    change List.filterMap _
      [soloDriverPlatform.xdr.upgradeToOpaque (.LEDGER_UPGRADE_MAX_TX_SET_SIZE 70),
        soloDriverPlatform.xdr.upgradeToOpaque (.LEDGER_UPGRADE_BASE_FEE 2)] = _
    simp only [List.filterMap_cons, size, fee, List.filterMap_nil, LedgerUpgrade.type]
  rw [types] at valid
  simp [HerderSCPDriver.Ascending, LedgerUpgradeType.code] at valid

end ViiCore.Herder
