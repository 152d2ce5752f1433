import ViiCore.Herder.ExtractedValues
import ViiCore.Herder.SetFees

/-!
The way of a value from nomination to the ballot protocol.

Candidates are fully validated for nomination, each when it came in. What they are combined to is
fully validated for the ballot protocol: its close time is the one of a candidate, every upgrade
step is one of a candidate, and its transaction set is one that a candidate named, from which
nothing has to be trimmed.
-/

namespace ViiCore.Herder.HerderSCPDriver

open ViiCore.Ledger ViiCore.Transactions ViiCore.Execution TxSetFrame

variable {platform : DriverPlatform} (driver : HerderSCPDriver platform)

/-! ### Full validation -/

theorem validateOtherSlot_ne_full (slotIndex : UInt64) (b : VIIValue) :
    driver.validateOtherSlot slotIndex b ≠ .ok .kFullyValidatedValue := by
  intro full
  unfold validateOtherSlot at full
  dsimp only at full
  generalize (if slotIndex.toNat = driver.ledger.header.ledgerSeq then
      decide (b.closeTime.toNat = driver.ledger.header.closeTime)
    else if slotIndex.toNat < driver.ledger.header.ledgerSeq then
      decide (b.closeTime.toNat < driver.ledger.header.closeTime)
    else driver.checkCloseTime driver.ledger.header.closeTime b) = fits at full
  cases fits with
  | false => cases full
  | true =>
      cases tracking : driver.mTrackingSCP with
      | none =>
          rw [tracking] at full
          cases full
      | some data =>
          rw [tracking] at full
          obtain ⟨next, _, rest⟩ := except_bind_ok.mp full
          split_ifs at rest <;> cases rest

/-- What full validation has found about a value, apart from its upgrade steps. -/
structure Validated (slotIndex : UInt64) (b : VIIValue) (nomination : Bool) : Prop where
  signed : @checkSigned platform b nomination = true
  compat : driver.isSlotCompatibleWithCurrentState slotIndex = true
  closeTime : driver.checkCloseTime driver.ledger.header.closeTime b = true
  basic : ¬ nomination ∨ driver.ledger.header.ledgerVersion < 11 → b.ext = .VII_VALUE_BASIC
  notBasic : nomination ∧ driver.ledger.header.ledgerVersion ≥ 11 → b.ext ≠ .VII_VALUE_BASIC
  passes : ∃ txSet, driver.getTxSet b.txSetHash = some txSet ∧
    runOn driver.ledger (txSet.checkValid driver.lclHash) = .ok true

theorem validateValueHelper_full {slotIndex : UInt64} {b : VIIValue} {nomination : Bool} :
    driver.validateValueHelper slotIndex b nomination = .ok .kFullyValidatedValue ↔
      driver.Validated slotIndex b nomination := by
  constructor
  · intro full
    unfold validateValueHelper at full
    dsimp only at full
    by_cases signed : @checkSigned platform b nomination = true
    · rw [if_neg (not_not.mpr signed)] at full
      by_cases compat : driver.isSlotCompatibleWithCurrentState slotIndex = true
      · rw [if_neg (not_not.mpr compat)] at full
        by_cases closeTime : driver.checkCloseTime driver.ledger.header.closeTime b = true
        · rw [if_neg (not_not.mpr closeTime)] at full
          split_ifs at full with notBasic notSigned
          · cases full
          · cases full
          · split at full
            · cases full
            · rename_i txSet found
              obtain ⟨passed, checked, rest⟩ := except_bind_ok.mp full
              split at rest
              · rename_i true
                subst true
                exact ⟨signed, compat, closeTime,
                  fun kind => not_not.mp fun other => notBasic ⟨kind, other⟩,
                  fun kind same => notSigned ⟨kind.1, kind.2, same⟩, txSet, found, checked⟩
              · cases rest
        · rw [if_pos closeTime] at full
          cases full
      · rw [if_pos compat] at full
        exact absurd full (driver.validateOtherSlot_ne_full slotIndex b)
    · rw [if_pos signed] at full
      cases full
  · intro validated
    obtain ⟨txSet, found, checked⟩ := validated.passes
    unfold validateValueHelper
    rw [if_neg (not_not.mpr validated.signed), if_neg (not_not.mpr validated.compat),
      if_neg (not_not.mpr validated.closeTime),
      if_neg fun both => both.2 (validated.basic both.1),
      if_neg fun all => validated.notBasic ⟨all.1, all.2.1⟩ all.2.2, found]
    simp [checked, bind, Except.bind, pure, Except.pure]

theorem checkCloseTime_iff (lastCloseTime : Nat) (b : VIIValue) :
    driver.checkCloseTime lastCloseTime b = true ↔
      lastCloseTime < b.closeTime.toNat ∧ b.closeTime ≤ driver.timeNow + MAX_TIME_SLIP_SECONDS := by
  unfold checkCloseTime
  split
  · rename_i old
    simp only [Bool.false_eq_true, false_iff]
    omega
  · rename_i newer
    split
    · rename_i late
      simp only [Bool.false_eq_true, false_iff, not_and]
      intro _ early
      exact absurd late (UInt64.not_lt.mpr early)
    · rename_i early
      simp only [true_iff]
      exact ⟨not_le.mp newer, UInt64.not_lt.mp early⟩

theorem runOn_eq_ok {α : Type} {ledger : ViiCore.Ledger} {x : Apply α} {result : α} :
    runOn ledger x = .ok result ↔ ∃ after, x ledger = .ok result after := by
  unfold runOn
  cases x ledger with
  | ok value after => simp
  | error fault after => simp

/-! ### Upgrade steps -/

/-- The upgrades in the map are under their types, and can be applied and encoded. -/
def Applicable (upgrades : UpgradeMap) : Prop :=
  ∀ type upgrade, upgrades type = some upgrade → upgrade.type = type ∧
    isValidForApply upgrade driver.ledger.header driver.LEDGER_PROTOCOL_VERSION = true ∧
    upgrade.number < 2 ^ 32

theorem maxUpgrade_eq {left right : LedgerUpgrade} (same : left.type = right.type) :
    maxUpgrade left right = left ∨ maxUpgrade left right = right := by
  cases left <;> cases right <;> cases same <;> simp [maxUpgrade, le_total]

theorem isValid_isSome {nomination : Bool} {step : UpgradeType}
    (valid : (driver.isValid nomination step).isSome) :
    ∃ upgrade, platform.xdr.upgradeFromOpaque step = some upgrade ∧
      isValidForApply upgrade driver.ledger.header driver.LEDGER_PROTOCOL_VERSION = true ∧
      driver.isValid nomination step = some upgrade.type := by
  unfold isValid Upgrades.isValid Upgrades.isValidForApply at valid ⊢
  cases decoded : platform.xdr.upgradeFromOpaque step with
  | none => simp [decoded] at valid
  | some upgrade =>
      simp only [decoded] at valid ⊢
      cases applies : isValidForApply upgrade driver.ledger.header
          driver.LEDGER_PROTOCOL_VERSION with
      | false => simp [applies] at valid
      | true =>
          simp only [applies, if_true] at valid ⊢
          refine ⟨upgrade, rfl, applies, ?_⟩
          split at valid
          · cases valid
          · rename_i nominated
            rw [if_neg nominated]

theorem Applicable.add {upgrades : UpgradeMap} (applicable : driver.Applicable upgrades)
    {upgrade : LedgerUpgrade}
    (applies : isValidForApply upgrade driver.ledger.header driver.LEDGER_PROTOCOL_VERSION = true)
    (fits : upgrade.number < 2 ^ 32) : driver.Applicable (upgrades.add upgrade) := by
  intro type found mapped
  unfold UpgradeMap.add at mapped
  by_cases same : type = upgrade.type
  · subst same
    rw [Function.update_self] at mapped
    cases before : upgrades upgrade.type with
    | none =>
        rw [before] at mapped
        cases mapped
        exact ⟨rfl, applies, fits⟩
    | some clUpgrade =>
        rw [before] at mapped
        obtain ⟨type, valid, small⟩ := applicable _ _ before
        cases mapped
        dsimp only
        rcases maxUpgrade_eq type with first | second
        · rw [first]
          exact ⟨type, valid, small⟩
        · rw [second]
          exact ⟨rfl, applies, fits⟩
  · rw [Function.update_of_ne same] at mapped
    exact applicable type found mapped

theorem addUpgrades_applicable {nomination : Bool} {steps : List UpgradeType}
    {upgrades : UpgradeMap} (applicable : driver.Applicable upgrades)
    (valid : ∀ step ∈ steps, (driver.isValid nomination step).isSome) :
    ∃ combined, addUpgrades platform.xdr steps upgrades = .ok combined ∧
      driver.Applicable combined := by
  induction steps generalizing upgrades with
  | nil => exact ⟨upgrades, rfl, applicable⟩
  | cons step rest ih =>
      obtain ⟨upgrade, decoded, applies, _⟩ := driver.isValid_isSome (valid step List.mem_cons_self)
      obtain ⟨combined, added, fits⟩ :=
        ih (applicable.add driver applies (platform.xdr.upgrade_fits decoded))
          fun other member => valid other (List.mem_cons_of_mem step member)
      refine ⟨combined, ?_, fits⟩
      unfold addUpgrades
      rw [decoded]
      exact added

theorem Applicable.types_sublist {upgrades : UpgradeMap}
    (applicable : driver.Applicable upgrades) (types : List LedgerUpgradeType) :
    ((types.filterMap upgrades).map LedgerUpgrade.type).Sublist types := by
  induction types with
  | nil => exact List.Sublist.slnil
  | cons type rest ih =>
      rw [List.filterMap_cons]
      cases mapped : upgrades type with
      | none => exact ih.cons type
      | some upgrade =>
          have same := (applicable type upgrade mapped).1
          rw [List.map_cons, same]
          exact ih.cons_cons type

/-- The map is visited in the order of the types, so its steps pass the check of the order. -/
theorem Applicable.checkUpgrades {upgrades : UpgradeMap} (applicable : driver.Applicable upgrades) :
    driver.checkUpgrades false none (upgrades.toList.map platform.xdr.upgradeToOpaque) = true := by
  have valid : ∀ upgrade ∈ upgrades.toList,
      driver.isValid false (platform.xdr.upgradeToOpaque upgrade) = some upgrade.type := by
    intro upgrade member
    obtain ⟨type, _, mapped⟩ := List.mem_filterMap.mp member
    obtain ⟨_, applies, fits⟩ := applicable type upgrade mapped
    rw [driver.isValid_upgradeToOpaque false upgrade fits, if_pos ⟨applies, by simp⟩]
  rw [checkUpgrades_iff]
  constructor
  · intro step member
    obtain ⟨upgrade, inMap, rfl⟩ := List.mem_map.mp member
    rw [valid upgrade inMap]
    rfl
  · have types : driver.validTypes false (upgrades.toList.map platform.xdr.upgradeToOpaque) =
        upgrades.toList.map LedgerUpgrade.type := by
      unfold validTypes
      rw [List.filterMap_map, ← List.filterMap_eq_map]
      apply List.filterMap_congr
      intro upgrade member
      exact valid upgrade member
    have ordered : (upgrades.toList.map LedgerUpgrade.type).Sublist
        [.LEDGER_UPGRADE_VERSION, .LEDGER_UPGRADE_BASE_FEE, .LEDGER_UPGRADE_MAX_TX_SET_SIZE,
          .LEDGER_UPGRADE_BASE_RESERVE] :=
      applicable.types_sublist driver _
    rw [types]
    exact List.Pairwise.sublist (ordered.map _) (by decide)

/-! ### Candidates -/

def atTime (time : UInt64) : HerderSCPDriver platform := { driver with timeNow := time }

structure Cached (hash : Hash) (txSet : TxSetFrame platform.toSetPlatform) : Prop where
  found : driver.getTxSet hash = some txSet
  checked : runOn driver.ledger (txSet.checkValid driver.lclHash) = .ok true

theorem Cached.passed {hash : Hash} {txSet : TxSetFrame platform.toSetPlatform}
    (cached : driver.Cached hash txSet) : Passed driver.lclHash driver.ledger txSet := by
  obtain ⟨after, passes⟩ := runOn_eq_ok.mp cached.checked
  exact (checkValid_passed passes).2

structure Votable (b : VIIValue) : Prop where
  newer : driver.ledger.header.closeTime < b.closeTime.toNat
  early : b.closeTime ≤ driver.timeNow + MAX_TIME_SLIP_SECONDS
  cached : ∃ txSet, driver.Cached b.txSetHash txSet
  steps : ∀ step ∈ b.upgrades.1, (driver.isValid true step).isSome

theorem votable_of_validated {slotIndex earlier : UInt64} {value : Value}
    (before : earlier ≤ driver.timeNow) (clock : driver.timeNow.toNat + 60 < 2 ^ 64)
    (full : (driver.atTime earlier).validateValue slotIndex value true =
      .ok .kFullyValidatedValue) :
    driver.isSlotCompatibleWithCurrentState slotIndex = true ∧
      ∃ b, platform.xdr.valueFromOpaque value = some b ∧ driver.Votable b := by
  obtain ⟨b, decoded, helper, checked⟩ := (driver.atTime earlier).validateValue_eq_full.mp full
  have validated := (driver.atTime earlier).validateValueHelper_full.mp helper
  obtain ⟨txSet, found, ran⟩ := validated.passes
  obtain ⟨newer, early⟩ := (checkCloseTime_iff _ _ _).mp validated.closeTime
  refine ⟨validated.compat, b, decoded, newer, ?_, ⟨txSet, found, ran⟩, ?_⟩
  · apply UInt64.le_trans early
    rw [UInt64.le_iff_toNat_le] at before ⊢
    have slip : MAX_TIME_SLIP_SECONDS.toNat = 60 := rfl
    change (earlier + MAX_TIME_SLIP_SECONDS).toNat ≤ _
    rw [UInt64.toNat_add, UInt64.toNat_add, slip, Nat.mod_eq_of_lt (by omega),
      Nat.mod_eq_of_lt (by omega)]
    omega
  · exact (((driver.atTime earlier).checkUpgrades_iff true none b.upgrades.1).mp checked).1

structure Gathered (read : Candidates) : Prop where
  applicable : driver.Applicable read.upgrades
  values : ∀ b ∈ read.candidateValues, driver.Votable b
  latest : ∀ b ∈ read.candidateValues, b.closeTime ≤ read.closeTime
  early : read.closeTime ≤ driver.timeNow + MAX_TIME_SLIP_SECONDS

theorem readCandidates_gathered {candidates : List Value} {read : Candidates}
    (gathered : driver.Gathered read)
    (votable : ∀ value ∈ candidates, ∃ b, platform.xdr.valueFromOpaque value = some b ∧
      driver.Votable b) :
    ∃ last, readCandidates platform candidates read = .ok last ∧ driver.Gathered last ∧
      last.candidateValues.length = read.candidateValues.length + candidates.length := by
  induction candidates generalizing read with
  | nil => exact ⟨read, rfl, gathered, rfl⟩
  | cons value rest ih =>
      obtain ⟨b, decoded, good⟩ := votable value List.mem_cons_self
      obtain ⟨upgrades, added, applicable⟩ :=
        driver.addUpgrades_applicable gathered.applicable good.steps
      let next : Candidates :=
        { closeTime := if read.closeTime < b.closeTime then b.closeTime else read.closeTime
          upgrades
          candidatesHash := read.candidatesHash ^^^ platform.sha256Value value
          candidateValues := read.candidateValues ++ [b] }
      have step : driver.Gathered next := by
        refine ⟨applicable, ?_, ?_, ?_⟩
        · intro other member
          rcases List.mem_append.mp member with old | new
          · exact gathered.values other old
          · rw [List.mem_singleton.mp new]
            exact good
        · intro other member
          change other.closeTime ≤ if read.closeTime < b.closeTime then b.closeTime
            else read.closeTime
          rcases List.mem_append.mp member with old | new
          · have before := gathered.latest other old
            split
            · rename_i later
              exact UInt64.le_of_lt (UInt64.lt_of_le_of_lt before later)
            · exact before
          · rw [List.mem_singleton.mp new]
            split
            · exact UInt64.le_refl _
            · rename_i notLater
              exact UInt64.not_lt.mp notLater
        · change (if read.closeTime < b.closeTime then b.closeTime else read.closeTime) ≤ _
          split
          · exact good.early
          · exact gathered.early
      obtain ⟨last, reads, final, count⟩ :=
        ih step fun other member => votable other (List.mem_cons_of_mem value member)
      refine ⟨last, ?_, final, ?_⟩
      · unfold readCandidates
        rw [decoded]
        simp only [added, bind, Except.bind]
        exact reads
      · rw [count]
        simp only [next, List.length_append, List.length_cons, List.length_nil]
        omega

/-! ### The best transaction set -/

section Best

variable (coins : CoinsAddUp driver.ledger)
  (typed : ∀ hash txSet, driver.getTxSet hash = some txSet →
    Typed driver.ledger.header txSet.mTransactions)

include coins typed in
theorem compareTxSets_ok {lHash rHash : Hash} {l r : TxSetFrame platform.toSetPlatform}
    (left : driver.Cached lHash l) (right : driver.Cached rHash r) (lh rh s : Hash) :
    ∃ less, @compareTxSets platform (some l) (some r) lh rh driver.ledger.header s =
      .ok less := by
  obtain ⟨_, _, _, _, lFees, _⟩ := (left.passed driver).getTotalFees coins (typed lHash l left.found)
  obtain ⟨_, _, _, _, rFees, _⟩ := (right.passed driver).getTotalFees coins (typed rHash r right.found)
  simp only [compareTxSets, lFees, rFees, bind, Except.bind]
  split_ifs <;> exact ⟨_, rfl⟩

include coins typed in
theorem highestTxSet_cached {candidatesHash hash : Hash} {values : List VIIValue}
    {highest : TxSetFrame platform.toSetPlatform} (cached : driver.Cached hash highest)
    (votable : ∀ b ∈ values, driver.Votable b) :
    ∃ lastHash last, driver.highestTxSet candidatesHash values (hash, some highest) =
        .ok (lastHash, some last) ∧ driver.Cached lastHash last := by
  induction values generalizing hash highest with
  | nil => exact ⟨hash, highest, rfl, cached⟩
  | cons b rest ih =>
      obtain ⟨txSet, here⟩ := (votable b List.mem_cons_self).cached
      have later : ∀ other ∈ rest, driver.Votable other := by
        intro other member
        exact votable other (List.mem_cons_of_mem b member)
      obtain ⟨less, compares⟩ :=
        driver.compareTxSets_ok coins typed cached here hash b.txSetHash candidatesHash
      unfold highestTxSet
      rw [here.found]
      dsimp only
      rw [if_pos (here.passed driver).previous, compares]
      cases less with
      | true => exact ih here later
      | false => exact ih cached later

include coins typed in
/-- The first candidate already names a set, so the pointer to the best one is not null. -/
theorem highestTxSet_found {candidatesHash : Hash} {values : List VIIValue} (some : values ≠ [])
    (votable : ∀ b ∈ values, driver.Votable b) :
    ∃ lastHash last, driver.highestTxSet candidatesHash values (0, none) =
        .ok (lastHash, .some last) ∧ driver.Cached lastHash last := by
  cases values with
  | nil => exact absurd rfl some
  | cons b rest =>
      obtain ⟨txSet, here⟩ := (votable b List.mem_cons_self).cached
      unfold highestTxSet
      rw [here.found]
      dsimp only
      rw [if_pos (here.passed driver).previous]
      exact driver.highestTxSet_cached coins typed here fun other member =>
        votable other (List.mem_cons_of_mem b member)

include coins typed in
theorem combineCandidates_validated {slotIndex : UInt64} {candidates : List Value}
    (some : candidates ≠ [])
    (collisionFree : ∀ hash txSet, driver.getTxSet hash = .some txSet →
      CollisionFree platform.toSetPlatform txSet.mTransactions)
    (compat : driver.isSlotCompatibleWithCurrentState slotIndex = true)
    (votable : ∀ value ∈ candidates, ∃ b, platform.xdr.valueFromOpaque value = .some b ∧
      driver.Votable b) :
    ∃ b txSet, driver.combineCandidates candidates = .ok (platform.xdr.valueToOpaque b, none) ∧
      driver.getTxSet b.txSetHash = .some txSet ∧
      driver.validateValue slotIndex (platform.xdr.valueToOpaque b) false =
        .ok .kFullyValidatedValue := by
  have start : driver.Gathered
      { closeTime := 0, upgrades := fun _ => none, candidatesHash := 0, candidateValues := [] } :=
    { applicable := fun _ _ impossible => by cases impossible
      values := fun _ impossible => by cases impossible
      latest := fun _ impossible => by cases impossible
      early := UInt64.zero_le }
  obtain ⟨read, reads, gathered, count⟩ := driver.readCandidates_gathered start votable
  have values : read.candidateValues ≠ [] := by
    intro empty
    rw [empty] at count
    have length := List.length_pos_of_ne_nil some
    simp only [List.length_nil] at count
    omega
  obtain ⟨hash, highest, finds, cached⟩ :=
    @highestTxSet_found _ driver coins typed read.candidatesHash _ values gathered.values
  obtain ⟨trimmed, trims, contents⟩ :=
    (cached.passed driver).trimInvalid (collisionFree hash highest cached.found)
  have sameHash : trimmed.getContentsHash.2 = hash := by
    have stored := (highest.hashIsValid hash (driver.cached hash highest cached.found)).2
    rw [contents, stored]
  have trimsOn : runOn driver.ledger highest.trimInvalid = .ok (trimmed, []) :=
    runOn_eq_ok.mpr ⟨_, trims⟩
  let b : VIIValue :=
    { txSetHash := trimmed.getContentsHash.2
      closeTime := read.closeTime
      upgrades := ⟨read.upgrades.toList.map platform.xdr.upgradeToOpaque, by
        rw [List.length_map]
        exact (List.length_filterMap_le _ _).trans (by decide)⟩
      ext := .VII_VALUE_BASIC }
  have named : driver.getTxSet b.txSetHash = .some highest := by
    change driver.getTxSet trimmed.getContentsHash.2 = _
    rw [sameHash]
    exact cached.found
  refine ⟨b, highest, ?_, named, ?_⟩
  · unfold combineCandidates
    simp only [reads, finds, trimsOn, bind, Except.bind]
    rfl
  · rw [validateValue_eq_full]
    refine ⟨b, platform.xdr.value_roundTrip b, ?_, gathered.applicable.checkUpgrades⟩
    obtain ⟨first, member⟩ := List.exists_mem_of_ne_nil _ values
    have newer := (gathered.values first member).newer
    have latest := UInt64.le_iff_toNat_le.mp (gathered.latest first member)
    rw [validateValueHelper_full]
    exact
      { signed := rfl
        compat := compat
        closeTime := (driver.checkCloseTime_iff _ b).mpr ⟨newer.trans_le latest, gathered.early⟩
        basic := fun _ => rfl
        notBasic := fun nominated => by cases nominated.1
        passes := ⟨highest, named, cached.checked⟩ }

end Best

end ViiCore.Herder.HerderSCPDriver
