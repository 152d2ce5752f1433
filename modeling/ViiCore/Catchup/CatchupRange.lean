import ViiCore.Catchup.VerifyLedgerChainWork
import ViiCore.Library.WordArithmetic

/-!
Which ledgers a catchup applies (`catchup/CatchupWork.cpp`): all the ledgers after the last closed
one, or the bucket list of a checkpoint and the ledgers after it.
-/

namespace ViiCore.Catchup

open Tracked

def GENESIS_LEDGER_SEQ : UInt32 := 1

structure CatchupConfiguration where
  toLedger : UInt32
  count : UInt32

def CURRENT : UInt32 := 0

structure Ledgers where
  mFirst : UInt32
  mCount : UInt32
  deriving DecidableEq

structure CatchupRange where
  mLedgers : Ledgers
  mApplyBuckets : Bool
  deriving DecidableEq

namespace CatchupRange

section Source

variable (accelerated : Bool)

def nextCheckpointLedger (ledger : UInt32) : Tracked UInt32 :=
  let freq := getCheckpointFrequency accelerated
  if ledger = 0 then return freq
  else do
    let above ← minus (← plus ledger freq) 1
    times (above / freq) freq

def checkpointContainingLedger (ledger : UInt32) : Tracked UInt32 := do
  minus (← nextCheckpointLedger accelerated (← plus ledger 1)) 1

def computeCatchupledgers (lastClosedLedger : UInt32) (configuration : CatchupConfiguration) :
    Except String (Tracked Ledgers) :=
  let toLedger := configuration.toLedger
  if lastClosedLedger = 0 then .error "lastClosedLedger == 0"
  else if toLedger ≤ lastClosedLedger then .error "configuration.toLedger() <= lastClosedLedger"
  else if toLedger = CURRENT then
    .error "configuration.toLedger() == CatchupConfiguration::CURRENT"
  else .ok <|
    if lastClosedLedger > GENESIS_LEDGER_SEQ then do
      return ⟨← plus lastClosedLedger 1, ← minus toLedger lastClosedLedger⟩
    else do
      let all ← minus toLedger GENESIS_LEDGER_SEQ
      if configuration.count ≥ all then
        return ⟨← plus GENESIS_LEDGER_SEQ 1, ← minus toLedger GENESIS_LEDGER_SEQ⟩
      else
        let smallestLedgerToApply ← plus (← minus toLedger (max 1 configuration.count)) 1
        let firstCheckpoint ← checkpointContainingLedger accelerated 1
        let smallestCheckpointToApply ← checkpointContainingLedger accelerated smallestLedgerToApply
        if smallestCheckpointToApply = smallestLedgerToApply then
          return ⟨← plus smallestLedgerToApply 1, ← minus toLedger smallestLedgerToApply⟩
        else if smallestCheckpointToApply = firstCheckpoint then
          return ⟨← plus GENESIS_LEDGER_SEQ 1, ← minus toLedger GENESIS_LEDGER_SEQ⟩
        else
          let freq := getCheckpointFrequency accelerated
          return ⟨← plus (← minus smallestCheckpointToApply freq) 1,
            ← plus (← minus toLedger smallestCheckpointToApply) freq⟩

def make (lastClosedLedger : UInt32) (configuration : CatchupConfiguration) :
    Except String (Tracked CatchupRange) := do
  let computed ← computeCatchupledgers accelerated lastClosedLedger configuration
  return do
    let mLedgers ← computed
    return ⟨mLedgers, mLedgers.mFirst > (← plus lastClosedLedger 1)⟩

end Source

def getLast (range : CatchupRange) : Tracked UInt32 := do
  minus (← plus range.mLedgers.mFirst range.mLedgers.mCount) 1

def getBucketApplyLedger (range : CatchupRange) : Except String (Tracked UInt32) :=
  if !range.mApplyBuckets then
    .error "getBucketApplyLedger() cannot be called on CatchupRange when mApplyBuckets == false"
  else .ok (minus range.mLedgers.mFirst 1)

/-! ### Checkpoints -/

section Checkpoints

theorem getCheckpointFrequency_cases (accelerated : Bool) :
    (getCheckpointFrequency accelerated).toNat = 8 ∨
      (getCheckpointFrequency accelerated).toNat = 64 := by
  cases accelerated
  · exact Or.inr rfl
  · exact Or.inl rfl

/-- The first number from `ledger` on that is one below a multiple of the frequency. -/
def checkpointFrom (freq ledger : Nat) : Nat :=
  (ledger + freq) / freq * freq - 1

theorem checkpointFrom_succ {freq : Nat} (ledger : Nat) (positive : 0 < freq) :
    checkpointFrom freq ledger + 1 = (ledger + freq) / freq * freq := by
  have whole : 1 ≤ (ledger + freq) / freq :=
    (Nat.one_le_div_iff positive).mpr (Nat.le_add_left freq ledger)
  exact Nat.sub_add_cancel (Nat.mul_pos whole positive)

theorem checkpointFrom_mod {freq : Nat} (ledger : Nat) (positive : 0 < freq) :
    (checkpointFrom freq ledger + 1) % freq = 0 := by
  rw [checkpointFrom_succ ledger positive]
  exact Nat.mul_mod_left _ _

theorem checkpointFrom_bounds {freq : Nat} (ledger : Nat) (positive : 0 < freq) :
    ledger ≤ checkpointFrom freq ledger ∧ checkpointFrom freq ledger < ledger + freq := by
  have split := Nat.div_add_mod (ledger + freq) freq
  rw [Nat.mul_comm] at split
  have rest := Nat.mod_lt (ledger + freq) positive
  unfold checkpointFrom
  omega

theorem nextCheckpointLedger_exact (accelerated : Bool) {ledger : UInt32}
    (started : 0 < ledger.toNat) (room : ledger.toNat + 127 < 2 ^ 32) :
    Exact (nextCheckpointLedger accelerated ledger)
      (checkpointFrom (getCheckpointFrequency accelerated).toNat (ledger.toNat - 1) + 1) := by
  have frequencies := getCheckpointFrequency_cases accelerated
  have positive : 0 < (getCheckpointFrequency accelerated).toNat := by omega
  have bounds := checkpointFrom_bounds (ledger.toNat - 1) positive
  have nonzero : ledger ≠ 0 := by
    intro zero
    rw [zero] at started
    exact absurd started (by decide)
  unfold nextCheckpointLedger
  rw [if_neg nonzero]
  have sum : Exact (plus ledger (getCheckpointFrequency accelerated))
      (ledger.toNat + (getCheckpointFrequency accelerated).toNat) :=
    Exact.plus rfl rfl (by omega)
  refine sum.bind fun above isAbove => ?_
  have less : Exact (minus above 1)
      (ledger.toNat + (getCheckpointFrequency accelerated).toNat - 1) :=
    Exact.minus isAbove rfl (by omega)
  refine less.bind fun below isBelow => ?_
  have quotient : (below / getCheckpointFrequency accelerated).toNat =
      (ledger.toNat - 1 + (getCheckpointFrequency accelerated).toNat) /
        (getCheckpointFrequency accelerated).toNat := by
    rw [UInt32.toNat_div, isBelow]
    congr 1
    omega
  have product := checkpointFrom_succ (ledger.toNat - 1) positive
  rw [product]
  exact Exact.times quotient rfl (by omega)

theorem checkpointContainingLedger_exact (accelerated : Bool) {ledger : UInt32}
    (room : ledger.toNat + 128 < 2 ^ 32) :
    Exact (checkpointContainingLedger accelerated ledger)
      (checkpointFrom (getCheckpointFrequency accelerated).toNat ledger.toNat) := by
  have next : Exact (plus ledger 1) (ledger.toNat + 1) :=
    Exact.plus rfl rfl (by omega)
  refine next.bind fun above isAbove => ?_
  have checkpoint := @nextCheckpointLedger_exact accelerated above (by omega) (by omega)
  rw [isAbove, Nat.add_sub_cancel] at checkpoint
  refine checkpoint.bind fun multiple isMultiple => ?_
  have last : Exact (minus multiple 1)
      (checkpointFrom (getCheckpointFrequency accelerated).toNat ledger.toNat + 1 - 1) :=
    Exact.minus isMultiple rfl (by omega)
  rwa [Nat.add_sub_cancel] at last

theorem nextCheckpointLedger_value (accelerated : Bool) (ledger : UInt32) :
    (nextCheckpointLedger accelerated ledger).value =
      Catchup.nextCheckpointLedger accelerated ledger := by
  unfold nextCheckpointLedger Catchup.nextCheckpointLedger
  by_cases zero : ledger = 0
  · simp only [zero, if_true, value_pure]
  · simp only [zero, if_false, value_bind, value_minus, value_plus, value_times]

theorem checkpointContainingLedger_value (accelerated : Bool) (ledger : UInt32) :
    (checkpointContainingLedger accelerated ledger).value =
      Catchup.checkpointContainingLedger accelerated ledger := by
  simp only [checkpointContainingLedger, value_bind, value_minus, value_plus,
    nextCheckpointLedger_value, Catchup.checkpointContainingLedger]

theorem checkpointContainingLedger_checkpoint {accelerated : Bool} {ledger : UInt32}
    (room : ledger.toNat + 128 < 2 ^ 32)
    (multiple : (ledger.toNat + 1) % (getCheckpointFrequency accelerated).toNat = 0) :
    Catchup.checkpointContainingLedger accelerated ledger = ledger := by
  have frequencies := getCheckpointFrequency_cases accelerated
  have positive : 0 < (getCheckpointFrequency accelerated).toNat := by omega
  have bounds := checkpointFrom_bounds ledger.toNat positive
  have also := checkpointFrom_mod ledger.toNat positive
  apply UInt32.toNat_inj.mp
  rw [← checkpointContainingLedger_value, (checkpointContainingLedger_exact accelerated room).value]
  rcases frequencies with accelerating | normal
  · rw [accelerating] at also bounds multiple ⊢
    omega
  · rw [normal] at also bounds multiple ⊢
    omega

end Checkpoints

/-! ### The range -/

section Range

variable {accelerated : Bool} {lastClosedLedger : UInt32} {configuration : CatchupConfiguration}

def requested (configuration : CatchupConfiguration) : Nat :=
  configuration.toLedger.toNat - max 1 configuration.count.toNat + 1

/-- The ledgers after a checkpoint that is less than one frequency below the requested one. -/
structure AfterBuckets (accelerated : Bool) (configuration : CatchupConfiguration)
    (first : Nat) : Prop where
  aboveGenesis : 2 < first
  checkpoint : first % (getCheckpointFrequency accelerated).toNat = 0
  covers : first ≤ requested configuration + 1
  close : requested configuration + 1 < first + (getCheckpointFrequency accelerated).toNat

/-- The one computation that can wrap: the checkpoint is above the last ledger, and the count comes
out right because adding the frequency wraps back. -/
def Returns (accelerated : Bool) (toLedger : UInt32) (wraps : List Wrap) : Prop :=
  ∃ checkpoint, toLedger < checkpoint ∧
    wraps = [.minus toLedger checkpoint,
      .plus (toLedger - checkpoint) (getCheckpointFrequency accelerated)]

structure Described (accelerated : Bool) (lastClosedLedger : UInt32)
    (configuration : CatchupConfiguration) (computed : Tracked Ledgers) : Prop where
  wraps : computed.wraps = [] ∨ Returns accelerated configuration.toLedger computed.wraps
  last : computed.value.mFirst.toNat + computed.value.mCount.toNat =
    configuration.toLedger.toNat + 1
  first : computed.value.mFirst.toNat = lastClosedLedger.toNat + 1 ∨
    lastClosedLedger = GENESIS_LEDGER_SEQ ∧
      AfterBuckets accelerated configuration computed.value.mFirst.toNat

theorem described_pure {first count : UInt32}
    (total : first.toNat + count.toNat = configuration.toLedger.toNat + 1)
    (start : first.toNat = lastClosedLedger.toNat + 1 ∨
      lastClosedLedger = GENESIS_LEDGER_SEQ ∧
        AfterBuckets accelerated configuration first.toNat) :
    Described accelerated lastClosedLedger configuration (pure ⟨first, count⟩) where
  wraps := Or.inl rfl
  last := total
  first := start

theorem described_of_exact {first count : Tracked UInt32} {m n : Nat} (isFirst : Exact first m)
    (isCount : Exact count n) (total : m + n = configuration.toLedger.toNat + 1)
    (start : m = lastClosedLedger.toNat + 1 ∨
      lastClosedLedger = GENESIS_LEDGER_SEQ ∧ AfterBuckets accelerated configuration m) :
    Described accelerated lastClosedLedger configuration
      (do return ⟨← first, ← count⟩) := by
  rw [isFirst.bind_eq, isCount.bind_eq]
  apply described_pure
  · rw [isFirst.value, isCount.value, total]
  · rw [isFirst.value]
    exact start

theorem described_lowered {checkpoint : UInt32}
    (genesis : lastClosedLedger = GENESIS_LEDGER_SEQ)
    (room : configuration.toLedger.toNat + 128 < 2 ^ 32)
    (isCheckpoint : checkpoint.toNat =
      checkpointFrom (getCheckpointFrequency accelerated).toNat (requested configuration))
    (below : requested configuration ≤ configuration.toLedger.toNat)
    (notFirst : 2 * (getCheckpointFrequency accelerated).toNat ≤ checkpoint.toNat + 1)
    (notRequested : requested configuration < checkpoint.toNat) :
    Described accelerated lastClosedLedger configuration
      (do return ⟨← plus (← minus checkpoint (getCheckpointFrequency accelerated)) 1,
        ← plus (← minus configuration.toLedger checkpoint)
          (getCheckpointFrequency accelerated)⟩) := by
  have frequencies := getCheckpointFrequency_cases accelerated
  have positive : 0 < (getCheckpointFrequency accelerated).toNat := by omega
  have bounds := checkpointFrom_bounds (requested configuration) positive
  have multiple := checkpointFrom_mod (requested configuration) positive
  rw [← isCheckpoint] at bounds multiple
  have lowered : Exact (minus checkpoint (getCheckpointFrequency accelerated))
      (checkpoint.toNat - (getCheckpointFrequency accelerated).toNat) :=
    Exact.minus rfl rfl (by omega)
  have first : Exact (plus (checkpoint - getCheckpointFrequency accelerated) 1)
      (checkpoint.toNat - (getCheckpointFrequency accelerated).toNat + 1) :=
    Exact.plus lowered.value rfl (by omega)
  have start : AfterBuckets accelerated configuration
      (checkpoint.toNat - (getCheckpointFrequency accelerated).toNat + 1) := by
    constructor
    · omega
    · rw [← Nat.sub_add_comm (by omega)]
      exact (Nat.sub_mod_eq_zero_of_mod_eq (by rw [multiple, Nat.mod_self]))
    · omega
    · omega
  rw [lowered.bind_eq, value_minus, first.bind_eq]
  by_cases within : checkpoint.toNat ≤ configuration.toLedger.toNat
  · have rest : Exact (minus configuration.toLedger checkpoint)
        (configuration.toLedger.toNat - checkpoint.toNat) := Exact.minus rfl rfl within
    have count : Exact (plus (configuration.toLedger - checkpoint)
        (getCheckpointFrequency accelerated))
        (configuration.toLedger.toNat - checkpoint.toNat +
          (getCheckpointFrequency accelerated).toNat) := Exact.plus rest.value rfl (by omega)
    rw [rest.bind_eq, value_minus, count.bind_eq]
    apply described_pure
    · rw [first.value, count.value]
      omega
    · rw [first.value]
      exact Or.inr ⟨genesis, start⟩
  · have wrapped : (configuration.toLedger - checkpoint).toNat =
        2 ^ 32 - checkpoint.toNat + configuration.toLedger.toNat := by
      rw [UInt32.toNat_sub, Nat.mod_eq_of_lt (by omega)]
    have back : (configuration.toLedger - checkpoint +
        getCheckpointFrequency accelerated).toNat =
          configuration.toLedger.toNat + (getCheckpointFrequency accelerated).toNat -
            checkpoint.toNat := by
      rw [UInt32.toNat_add, wrapped]
      omega
    have minusWraps : (minus configuration.toLedger checkpoint).wraps =
        [.minus configuration.toLedger checkpoint] := if_neg within
    have plusWraps : (plus (configuration.toLedger - checkpoint)
        (getCheckpointFrequency accelerated)).wraps =
          [.plus (configuration.toLedger - checkpoint) (getCheckpointFrequency accelerated)] :=
      if_neg (by omega)
    constructor
    · refine Or.inr ⟨checkpoint, UInt32.lt_iff_toNat_lt.mpr (by omega), ?_⟩
      rw [wraps_bind, value_minus, wraps_bind, minusWraps, plusWraps]
      rfl
    · change (plus (checkpoint - getCheckpointFrequency accelerated) 1).value.toNat +
        (configuration.toLedger - checkpoint + getCheckpointFrequency accelerated).toNat = _
      rw [first.value, back]
      omega
    · change (plus (checkpoint - getCheckpointFrequency accelerated) 1).value.toNat = _ ∨
        _ ∧ AfterBuckets _ _ (plus (checkpoint - getCheckpointFrequency accelerated) 1).value.toNat
      rw [first.value]
      exact Or.inr ⟨genesis, start⟩

theorem checkpointFrom_genesis (accelerated : Bool) :
    checkpointFrom (getCheckpointFrequency accelerated).toNat 1 + 1 =
      (getCheckpointFrequency accelerated).toNat := by
  cases accelerated <;> decide

theorem toNat_max (left right : UInt32) : (max left right).toNat = max left.toNat right.toNat := by
  by_cases order : left ≤ right
  · rw [show max left right = right from if_pos order,
      Nat.max_eq_right (UInt32.le_iff_toNat_le.mp order)]
  · rw [show max left right = left from if_neg order,
      Nat.max_eq_left (Nat.le_of_not_le fun le => order (UInt32.le_iff_toNat_le.mpr le))]

theorem computeCatchupledgers_described (closed : 1 ≤ lastClosedLedger)
    (above : lastClosedLedger < configuration.toLedger)
    (room : configuration.toLedger.toNat ≤ 2 ^ 32 - 1 - 128) :
    ∃ computed,
      computeCatchupledgers accelerated lastClosedLedger configuration = .ok computed ∧
        Described accelerated lastClosedLedger configuration computed := by
  have closed' : 1 ≤ lastClosedLedger.toNat := UInt32.le_iff_toNat_le.mp closed
  have above' := UInt32.lt_iff_toNat_lt.mp above
  have one : (1 : UInt32).toNat = 1 := rfl
  have frequencies := getCheckpointFrequency_cases accelerated
  have positive : 0 < (getCheckpointFrequency accelerated).toNat := by omega
  have started : lastClosedLedger ≠ 0 := by
    intro zero
    rw [zero] at closed'
    exact absurd closed' (by decide)
  have ends : configuration.toLedger ≠ CURRENT := by
    intro zero
    rw [zero] at above'
    exact absurd above' (Nat.not_lt_zero _)
  unfold computeCatchupledgers
  rw [if_neg started, if_neg (UInt32.not_le.mpr above), if_neg ends]
  refine ⟨_, rfl, ?_⟩
  by_cases later : lastClosedLedger > GENESIS_LEDGER_SEQ
  · rw [if_pos later]
    exact described_of_exact (Exact.plus rfl one (by omega)) (Exact.minus rfl rfl (by omega))
      (by omega) (Or.inl rfl)
  rw [if_neg later]
  obtain rfl : lastClosedLedger = GENESIS_LEDGER_SEQ := by
    apply UInt32.toNat_inj.mp
    have notLater := UInt32.le_iff_toNat_le.mp (UInt32.not_lt.mp later)
    exact Nat.le_antisymm notLater closed'
  have genesis : GENESIS_LEDGER_SEQ.toNat = 1 := rfl
  have all : Exact (minus configuration.toLedger GENESIS_LEDGER_SEQ)
      (configuration.toLedger.toNat - 1) := Exact.minus rfl rfl (by omega)
  have fromGenesis : Described accelerated GENESIS_LEDGER_SEQ configuration
      (do return ⟨← plus GENESIS_LEDGER_SEQ 1, ← minus configuration.toLedger GENESIS_LEDGER_SEQ⟩) :=
    described_of_exact (Exact.plus rfl one (by decide)) all (by omega) (Or.inl rfl)
  rw [all.bind_eq]
  split
  · exact fromGenesis
  rename_i fewer
  have fewer' : configuration.count.toNat < configuration.toLedger.toNat - 1 := by
    have notAll := UInt32.lt_iff_toNat_lt.mp (UInt32.not_le.mp fewer)
    rwa [all.value] at notAll
  have larger : (max 1 configuration.count).toNat = max 1 configuration.count.toNat := by
    rw [← one]
    exact toNat_max 1 configuration.count
  have below : Exact (minus configuration.toLedger (max 1 configuration.count))
      (configuration.toLedger.toNat - max 1 configuration.count.toNat) :=
    Exact.minus rfl larger (by omega)
  have smallest : Exact (plus (configuration.toLedger - max 1 configuration.count) 1)
      (requested configuration) := Exact.plus below.value one (by omega)
  have asked : requested configuration =
    configuration.toLedger.toNat - max 1 configuration.count.toNat + 1 := rfl
  have firstCheckpoint := @checkpointContainingLedger_exact accelerated 1 (by decide)
  rw [one] at firstCheckpoint
  have checkpoint := @checkpointContainingLedger_exact accelerated
    (configuration.toLedger - max 1 configuration.count + 1)
    (by rw [show (configuration.toLedger - max 1 configuration.count + 1).toNat = _ from
          smallest.value]; omega)
  rw [show (configuration.toLedger - max 1 configuration.count + 1).toNat = _ from
    smallest.value] at checkpoint
  rw [below.bind_eq, value_minus, smallest.bind_eq, value_plus, firstCheckpoint.bind_eq,
    checkpoint.bind_eq]
  split
  · rename_i onCheckpoint
    have same := smallest.value.symm.trans
      ((congrArg UInt32.toNat onCheckpoint).symm.trans checkpoint.value)
    apply described_of_exact (Exact.plus smallest.value one (by omega))
      (Exact.minus rfl smallest.value (by omega)) (by omega)
    refine Or.inr ⟨rfl, by omega, ?_, by omega, by omega⟩
    rw [same]
    exact checkpointFrom_mod _ positive
  split
  · exact fromGenesis
  rename_i notRequested notFirst
  have bounds := checkpointFrom_bounds (requested configuration) positive
  have multiple := checkpointFrom_mod (requested configuration) positive
  apply described_lowered rfl (by omega) checkpoint.value (by omega)
  · rw [checkpoint.value]
    have other : checkpointFrom (getCheckpointFrequency accelerated).toNat
        (requested configuration) + 1 ≠ (getCheckpointFrequency accelerated).toNat := by
      intro first
      refine notFirst (UInt32.toNat_inj.mp ?_)
      rw [checkpoint.value, firstCheckpoint.value]
      have genesisCheckpoint := checkpointFrom_genesis accelerated
      omega
    obtain ⟨periods, isMultiple⟩ := Nat.dvd_of_mod_eq_zero multiple
    rw [isMultiple] at other ⊢
    have several : 2 ≤ periods := by
      by_contra few
      obtain rfl | rfl : periods = 0 ∨ periods = 1 := by omega
      · omega
      · exact other (Nat.mul_one _)
    rw [Nat.mul_comm]
    exact Nat.mul_le_mul_left _ several
  · have different : requested configuration ≠ checkpointFrom
        (getCheckpointFrequency accelerated).toNat (requested configuration) := by
      intro same
      refine notRequested (UInt32.toNat_inj.mp ?_)
      exact checkpoint.value.trans (same.symm.trans smallest.value.symm)
    rw [checkpoint.value]
    omega

/-- Every range is exact: it ends at the requested ledger, and begins after the last closed ledger
or after the bucket list of a checkpoint. -/
theorem catchupRange_exact (accelerated : Bool) (lastClosedLedger : UInt32)
    (configuration : CatchupConfiguration) (closed : 1 ≤ lastClosedLedger)
    (above : lastClosedLedger < configuration.toLedger)
    (room : configuration.toLedger.toNat ≤ 2 ^ 32 - 1 - 128) :
    ∃ range : Tracked CatchupRange,
      make accelerated lastClosedLedger configuration = .ok range ∧
      (range.wraps = [] ∨ Returns accelerated configuration.toLedger range.wraps) ∧
      getLast range.value = ⟨configuration.toLedger, []⟩ ∧
      (range.value.mApplyBuckets = false →
        range.value.mLedgers.mFirst.toNat = lastClosedLedger.toNat + 1) ∧
      (range.value.mApplyBuckets = true →
        lastClosedLedger = 1 ∧
        ∃ bucketLedger : UInt32,
          getBucketApplyLedger range.value = .ok ⟨bucketLedger, []⟩ ∧
          Catchup.checkpointContainingLedger accelerated bucketLedger = bucketLedger ∧
          lastClosedLedger < bucketLedger ∧
          range.value.mLedgers.mFirst.toNat = bucketLedger.toNat + 1 ∧
          bucketLedger.toNat ≤
            configuration.toLedger.toNat - max 1 configuration.count.toNat + 1 ∧
          configuration.toLedger.toNat - max 1 configuration.count.toNat + 1 <
            bucketLedger.toNat + (getCheckpointFrequency accelerated).toNat) := by
  obtain ⟨computed, ok, described⟩ := @computeCatchupledgers_described accelerated
    lastClosedLedger configuration closed above room
  have above' := UInt32.lt_iff_toNat_lt.mp above
  have next : Exact (plus lastClosedLedger 1) (lastClosedLedger.toNat + 1) :=
    Exact.plus rfl rfl (by omega)
  let range : Tracked CatchupRange := do
    let mLedgers ← computed
    return ⟨mLedgers, mLedgers.mFirst > (← plus lastClosedLedger 1)⟩
  have made : make accelerated lastClosedLedger configuration = .ok range := by
    unfold make
    rw [ok]
    rfl
  have wraps : range.wraps = computed.wraps := by
    change computed.wraps ++ ((plus lastClosedLedger 1).wraps ++ []) = _
    rw [next.wraps, List.append_nil, List.append_nil]
  have applies : range.value.mApplyBuckets = true ↔
      lastClosedLedger.toNat + 1 < computed.value.mFirst.toNat := by
    change decide (_ < computed.value.mFirst) = true ↔ _
    rw [decide_eq_true_iff, UInt32.lt_iff_toNat_lt, next.value]
  refine ⟨range, made, ?_, ?_, ?_, ?_⟩
  · rw [wraps]
    exact described.wraps
  · have sum : Exact (plus computed.value.mFirst computed.value.mCount)
        (configuration.toLedger.toNat + 1) := by
      rw [← described.last]
      exact Exact.plus rfl rfl (by rw [described.last]; omega)
    have last : Exact (getLast range.value) configuration.toLedger.toNat :=
      sum.bind fun end' isEnd => by
        have lowered : Exact (minus end' 1) (configuration.toLedger.toNat + 1 - 1) :=
          Exact.minus isEnd rfl (by omega)
        rwa [Nat.add_sub_cancel] at lowered
    exact last.eq
  · intro noBuckets
    have notAbove : ¬ lastClosedLedger.toNat + 1 < computed.value.mFirst.toNat := by
      rw [← applies, noBuckets]
      exact Bool.false_ne_true
    rcases described.first with after | ⟨genesis, after⟩
    · exact after
    · have aboveGenesis := after.aboveGenesis
      have one : lastClosedLedger.toNat = 1 := congrArg UInt32.toNat genesis
      omega
  · intro buckets
    have later := applies.mp buckets
    rcases described.first with after | ⟨genesis, after⟩
    · omega
    have aboveGenesis := after.aboveGenesis
    have covers := after.covers
    have close := after.close
    have bucket : Exact (minus computed.value.mFirst 1) (computed.value.mFirst.toNat - 1) :=
      Exact.minus rfl rfl (by omega)
    have bucketLedger : (computed.value.mFirst - 1).toNat = computed.value.mFirst.toNat - 1 :=
      bucket.value
    have one : lastClosedLedger.toNat = 1 := congrArg UInt32.toNat genesis
    have total := described.last
    unfold requested at covers close
    refine ⟨genesis, computed.value.mFirst - 1, ?_, ?_, ?_, ?_, ?_, ?_⟩
    · unfold getBucketApplyLedger
      rw [buckets]
      rw [← bucketLedger] at bucket
      exact congrArg Except.ok bucket.eq
    · apply checkpointContainingLedger_checkpoint
      · rw [bucketLedger]
        omega
      · rw [bucketLedger, Nat.sub_add_cancel (by omega)]
        exact after.checkpoint
    · exact UInt32.lt_iff_toNat_lt.mpr (by omega)
    · change computed.value.mFirst.toNat = _
      omega
    · omega
    · omega

theorem catchupRange_exact_recent :
    ∃ range : Tracked CatchupRange,
      make false 1 ⟨100, 10⟩ = .ok range ∧ getLast range.value = ⟨100, []⟩ ∧
        range.value.mApplyBuckets = true := by
  obtain ⟨range, made, _wraps, last, rest⟩ :=
    catchupRange_exact false 1 ⟨100, 10⟩ (by decide) (by decide) (by decide)
  refine ⟨range, made, last, ?_⟩
  have computed : make false 1 ⟨100, 10⟩ = .ok
      ⟨⟨⟨64, 37⟩, true⟩, [.minus 100 127, .plus (100 - 127) 64]⟩ := by decide
  obtain rfl := Except.ok.inj (computed.symm.trans made)
  rfl

/-- Ten ledgers up to ledger 100 are part of checkpoint 127, which is above ledger 100. -/
theorem catchupRange_wraps :
    (1 : UInt32) ≤ 1 ∧ (1 : UInt32) < 100 ∧ UInt32.toNat 100 ≤ 2 ^ 32 - 1 - 128 ∧
      ∃ range : Tracked CatchupRange,
        make false 1 ⟨100, 10⟩ = .ok range ∧ range.wraps ≠ [] :=
  ⟨by decide, by decide, by decide,
    ⟨⟨⟨64, 37⟩, true⟩, [.minus 100 127, .plus (100 - 127) 64]⟩, by decide, by decide⟩

end Range

end CatchupRange

end ViiCore.Catchup
