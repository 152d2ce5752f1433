import ViiCore.Herder.TxSetFrame
import ViiCore.Herder.Upgrades
import ViiCore.Library.Codec

/-!
What the herder tells SCP about values (`herder/HerderSCPDriver.cpp`): whether a value is
valid, what can be extracted from one that is not, and what the candidates are combined to.

The marshalling of values and upgrades is left open, up to its laws.
-/

namespace ViiCore.Herder

open ViiCore.Ledger ViiCore.Transactions

/-! ### Values -/

abbrev Value := Bytes

abbrev UpgradeType := {bytes : Bytes // bytes.length ≤ 128}

abbrev Signature := {bytes : Bytes // bytes.length ≤ 64}

structure LedgerCloseValueSignature where
  nodeID : Uint256
  signature : Signature
  deriving DecidableEq

inductive VIIValueExt where
  | VII_VALUE_BASIC
  | VII_VALUE_SIGNED (lcValueSignature : LedgerCloseValueSignature)
  deriving DecidableEq

structure VIIValue where
  txSetHash : Hash
  closeTime : UInt64
  upgrades : {upgrades : List UpgradeType // upgrades.length ≤ 6}
  ext : VIIValueExt
  deriving DecidableEq

inductive LedgerUpgradeType where
  | LEDGER_UPGRADE_VERSION
  | LEDGER_UPGRADE_BASE_FEE
  | LEDGER_UPGRADE_MAX_TX_SET_SIZE
  | LEDGER_UPGRADE_BASE_RESERVE
  deriving DecidableEq

def LedgerUpgradeType.code : LedgerUpgradeType → Nat
  | .LEDGER_UPGRADE_VERSION => 1
  | .LEDGER_UPGRADE_BASE_FEE => 2
  | .LEDGER_UPGRADE_MAX_TX_SET_SIZE => 3
  | .LEDGER_UPGRADE_BASE_RESERVE => 4

def LedgerUpgrade.type : LedgerUpgrade → LedgerUpgradeType
  | .LEDGER_UPGRADE_VERSION _ => .LEDGER_UPGRADE_VERSION
  | .LEDGER_UPGRADE_BASE_FEE _ => .LEDGER_UPGRADE_BASE_FEE
  | .LEDGER_UPGRADE_MAX_TX_SET_SIZE _ => .LEDGER_UPGRADE_MAX_TX_SET_SIZE
  | .LEDGER_UPGRADE_BASE_RESERVE _ => .LEDGER_UPGRADE_BASE_RESERVE

def LedgerUpgrade.number : LedgerUpgrade → Nat
  | .LEDGER_UPGRADE_VERSION newLedgerVersion => newLedgerVersion
  | .LEDGER_UPGRADE_BASE_FEE newBaseFee => newBaseFee
  | .LEDGER_UPGRADE_MAX_TX_SET_SIZE newMaxTxSetSize => newMaxTxSetSize
  | .LEDGER_UPGRADE_BASE_RESERVE newBaseReserve => newBaseReserve

/-- `xdr_to_opaque` and `xdr_from_opaque`; `none` where the latter throws. The encoding is
canonical, and a value is never empty. -/
structure Marshalling where
  valueToOpaque : VIIValue → Value
  valueFromOpaque : Value → Option VIIValue
  upgradeToOpaque : LedgerUpgrade → UpgradeType
  upgradeFromOpaque : UpgradeType → Option LedgerUpgrade
  value_roundTrip : ∀ value, valueFromOpaque (valueToOpaque value) = some value
  value_canonical : ∀ {bytes value}, valueFromOpaque bytes = some value →
    valueToOpaque value = bytes
  value_ne_nil : ∀ value, valueToOpaque value ≠ []
  upgrade_roundTrip : ∀ upgrade, upgrade.number < 2 ^ 32 →
    upgradeFromOpaque (upgradeToOpaque upgrade) = some upgrade
  upgrade_fits : ∀ {bytes upgrade}, upgradeFromOpaque bytes = some upgrade →
    upgrade.number < 2 ^ 32

/-! ### Upgrades -/

/-- Points in time are counted in ticks of the clock. -/
structure UpgradeParameters where
  mUpgradeTime : Int
  mProtocolVersion : Option Nat
  mBaseFee : Option Nat
  mMaxTxSize : Option Nat
  mBaseReserve : Option Nat

namespace Upgrades

variable (xdr : Marshalling) (mParams : UpgradeParameters) (from_time_t : Nat → Int)

inductive UpgradeValidity where
  | VALID
  | XDR_INVALID
  | INVALID
  deriving DecidableEq

def isValidForApply (opaqueUpgrade : UpgradeType) (header : LedgerHeader)
    (maxLedgerVersion : Nat) : UpgradeValidity × Option LedgerUpgrade :=
  match xdr.upgradeFromOpaque opaqueUpgrade with
  | none => (.XDR_INVALID, none)
  | some upgrade =>
      (if Herder.isValidForApply upgrade header maxLedgerVersion then .VALID else .INVALID,
        some upgrade)

def timeForUpgrade (time : Nat) : Bool := mParams.mUpgradeTime ≤ from_time_t time

def isValidForNomination (upgrade : LedgerUpgrade) (header : LedgerHeader) : Bool :=
  if ¬ timeForUpgrade mParams from_time_t header.closeTime then false
  else
    match upgrade with
    | .LEDGER_UPGRADE_VERSION newLedgerVersion => mParams.mProtocolVersion = some newLedgerVersion
    | .LEDGER_UPGRADE_BASE_FEE newBaseFee => mParams.mBaseFee = some newBaseFee
    | .LEDGER_UPGRADE_MAX_TX_SET_SIZE newMaxTxSetSize => mParams.mMaxTxSize = some newMaxTxSetSize
    | .LEDGER_UPGRADE_BASE_RESERVE newBaseReserve => mParams.mBaseReserve = some newBaseReserve

/-- The type of the upgrade, or `none` where `isValid` returns false. -/
def isValid (upgrade : UpgradeType) (nomination : Bool) (LEDGER_PROTOCOL_VERSION : Nat)
    (header : LedgerHeader) : Option LedgerUpgradeType :=
  match isValidForApply xdr upgrade header LEDGER_PROTOCOL_VERSION with
  | (.VALID, some lupgrade) =>
      if nomination ∧ ¬ isValidForNomination mParams from_time_t lupgrade header then none
      else some lupgrade.type
  | _ => none

end Upgrades

/-! ### The driver -/

/-- `verifySig` is the check of a signature over the network, the hash of a transaction set and
a close time. -/
structure DriverPlatform extends SetPlatform where
  xdr : Marshalling
  verifySig : Uint256 → Signature → Hash → UInt64 → Bool
  sha256Value : Value → Hash
  from_time_t : Nat → Int

structure ConsensusData where
  mConsensusIndex : UInt64
  mConsensusValue : VIIValue

/-- What the driver sees of its node. The ledger is the last closed one; transaction sets are
cached under the hashes of their contents. -/
structure HerderSCPDriver (platform : DriverPlatform) where
  ledger : ViiCore.Ledger
  lclHash : Hash
  isSynced : Bool
  LEDGER_PROTOCOL_VERSION : Nat
  mUpgrades : UpgradeParameters
  timeNow : UInt64
  getTxSet : Hash → Option (TxSetFrame platform.toSetPlatform)
  mTrackingSCP : Option ConsensusData
  cached : ∀ hash txSet, getTxSet hash = some txSet → txSet.mHash = some hash

inductive ValidationLevel where
  | kInvalidValue
  | kFullyValidatedValue
  | kMaybeValidValue
  deriving DecidableEq

def MAX_TIME_SLIP_SECONDS : UInt64 := 60

def runOn {α : Type} (ledger : ViiCore.Ledger) (x : Apply α) : Except Fault α :=
  match x ledger with
  | .ok result _ => .ok result
  | .error fault _ => .error fault

namespace HerderSCPDriver

variable {platform : DriverPlatform} (driver : HerderSCPDriver platform)

def isSlotCompatibleWithCurrentState (slotIndex : UInt64) : Bool :=
  driver.isSynced && slotIndex.toNat = (driver.ledger.header.ledgerSeq + 1) % 2 ^ 32

def checkCloseTime (lastCloseTime : Nat) (b : VIIValue) : Bool :=
  if b.closeTime.toNat ≤ lastCloseTime then false
  else if b.closeTime > driver.timeNow + MAX_TIME_SLIP_SECONDS then false
  else true

/-- The index after the one of the tracked value, in 32 bits. -/
def nextConsensusLedgerIndex (tracking : ConsensusData) : Except Fault Nat := do
  assertThat (tracking.mConsensusIndex.toNat ≤ 2 ^ 32 - 1) "mConsensusIndex <= UINT32_MAX"
  return (tracking.mConsensusIndex.toNat + 1) % 2 ^ 32

def validateOtherSlot (slotIndex : UInt64) (b : VIIValue) : Except Fault ValidationLevel :=
  let lcl := driver.ledger.header
  let lastCloseTime := lcl.closeTime
  let closeTimeFits : Bool :=
    if slotIndex.toNat = lcl.ledgerSeq then b.closeTime.toNat = lastCloseTime
    else if slotIndex.toNat < lcl.ledgerSeq then b.closeTime.toNat < lastCloseTime
    else driver.checkCloseTime lastCloseTime b
  if ¬ closeTimeFits then return .kInvalidValue
  else
    match driver.mTrackingSCP with
    | none => return .kMaybeValidValue
    | some tracking => do
        let next ← nextConsensusLedgerIndex tracking
        if next > slotIndex.toNat then return .kMaybeValidValue
        else if next < slotIndex.toNat then return .kInvalidValue
        else if ¬ driver.checkCloseTime tracking.mConsensusValue.closeTime.toNat b then
          return .kInvalidValue
        else return .kMaybeValidValue

def checkSigned (b : VIIValue) (nomination : Bool) : Bool :=
  match b.ext with
  | .VII_VALUE_BASIC => true
  | .VII_VALUE_SIGNED lcValueSignature =>
      nomination && platform.verifySig lcValueSignature.nodeID lcValueSignature.signature
        b.txSetHash b.closeTime

def validateValueHelper (slotIndex : UInt64) (b : VIIValue) (nomination : Bool) :
    Except Fault ValidationLevel :=
  let lcl := driver.ledger.header
  if ¬ @checkSigned platform b nomination then return .kInvalidValue
  else if ¬ driver.isSlotCompatibleWithCurrentState slotIndex then
    driver.validateOtherSlot slotIndex b
  else if ¬ driver.checkCloseTime lcl.closeTime b then return .kInvalidValue
  else if (¬ nomination ∨ lcl.ledgerVersion < 11) ∧ b.ext ≠ .VII_VALUE_BASIC then
    return .kInvalidValue
  else if nomination ∧ lcl.ledgerVersion ≥ 11 ∧ b.ext = .VII_VALUE_BASIC then
    return .kInvalidValue
  else
    match driver.getTxSet b.txSetHash with
    | none => return .kInvalidValue
    | some txSet => do
        if ← runOn driver.ledger (txSet.checkValid driver.lclHash) then
          return .kFullyValidatedValue
        else
          return .kInvalidValue

def isValid (nomination : Bool) (upgrade : UpgradeType) : Option LedgerUpgradeType :=
  Upgrades.isValid platform.xdr driver.mUpgrades platform.from_time_t upgrade nomination
    driver.LEDGER_PROTOCOL_VERSION driver.ledger.header

/-- The steps have to be valid and their types have to ascend. There is no last type before the
first step. -/
def checkUpgrades (nomination : Bool) : Option LedgerUpgradeType → List UpgradeType → Bool
  | _, [] => true
  | lastUpgradeType, upgrade :: rest =>
      match driver.isValid nomination upgrade with
      | none => false
      | some thisUpgradeType =>
          if lastUpgradeType.any fun last => last.code ≥ thisUpgradeType.code then false
          else checkUpgrades nomination (some thisUpgradeType) rest

def validateValue (slotIndex : UInt64) (value : Value) (nomination : Bool) :
    Except Fault ValidationLevel :=
  match platform.xdr.valueFromOpaque value with
  | none => return .kInvalidValue
  | some b => do
      let res ← driver.validateValueHelper slotIndex b nomination
      if res ≠ .kInvalidValue ∧ ¬ driver.checkUpgrades nomination none b.upgrades.1 then
        return .kInvalidValue
      else
        return res

def withValidUpgrades (b : VIIValue) : VIIValue :=
  { b with upgrades :=
    ⟨b.upgrades.1.filter fun upgrade => (driver.isValid true upgrade).isSome,
      (List.length_filter_le _ _).trans b.upgrades.2⟩ }

def extractValidValue (slotIndex : UInt64) (value : Value) : Except Fault Value :=
  match platform.xdr.valueFromOpaque value with
  | none => return []
  | some b => do
      if (← driver.validateValueHelper slotIndex b true) = .kFullyValidatedValue then
        return platform.xdr.valueToOpaque (driver.withValidUpgrades b)
      else
        return []

/-! ### Combining candidates -/

/-- Null pointers are `none`. The larger set wins, then the one that pays more. -/
def compareTxSets (l r : Option (TxSetFrame platform.toSetPlatform)) (lh rh : Hash)
    (header : LedgerHeader) (s : Hash) : Except Fault Bool :=
  match l, r with
  | none, r => return r.isSome
  | some _, none => return false
  | some l, some r =>
      let lSize := l.size header
      let rSize := r.size header
      if lSize < rSize then return true
      else if lSize > rSize then return false
      else if header.ledgerVersion ≥ 11 then do
        let lFee ← l.getTotalFees header
        let rFee ← r.getTotalFees header
        if lFee < rFee then return true
        else if lFee > rFee then return false
        else return lessThanXored lh rh s
      else
        return lessThanXored lh rh s

def maxUpgrade (clUpgrade lupgrade : LedgerUpgrade) : LedgerUpgrade :=
  match clUpgrade, lupgrade with
  | .LEDGER_UPGRADE_VERSION l, .LEDGER_UPGRADE_VERSION r => .LEDGER_UPGRADE_VERSION (max l r)
  | .LEDGER_UPGRADE_BASE_FEE l, .LEDGER_UPGRADE_BASE_FEE r => .LEDGER_UPGRADE_BASE_FEE (max l r)
  | .LEDGER_UPGRADE_MAX_TX_SET_SIZE l, .LEDGER_UPGRADE_MAX_TX_SET_SIZE r =>
      .LEDGER_UPGRADE_MAX_TX_SET_SIZE (max l r)
  | .LEDGER_UPGRADE_BASE_RESERVE l, .LEDGER_UPGRADE_BASE_RESERVE r =>
      .LEDGER_UPGRADE_BASE_RESERVE (max l r)
  | clUpgrade, _ => clUpgrade

/-- The map of the upgrades found so far, in the order of their types when it is visited. -/
abbrev UpgradeMap := LedgerUpgradeType → Option LedgerUpgrade

def UpgradeMap.toList (upgrades : UpgradeMap) : List LedgerUpgrade :=
  [.LEDGER_UPGRADE_VERSION, .LEDGER_UPGRADE_BASE_FEE, .LEDGER_UPGRADE_MAX_TX_SET_SIZE,
    .LEDGER_UPGRADE_BASE_RESERVE].filterMap upgrades

def UpgradeMap.add (upgrades : UpgradeMap) (lupgrade : LedgerUpgrade) : UpgradeMap :=
  Function.update upgrades lupgrade.type <| some <|
    match upgrades lupgrade.type with
    | none => lupgrade
    | some clUpgrade => maxUpgrade clUpgrade lupgrade

/-- `xdr_from_opaque` throws where a step cannot be decoded. -/
def addUpgrades (xdr : Marshalling) : List UpgradeType → UpgradeMap → Except Fault UpgradeMap
  | [], upgrades => return upgrades
  | upgrade :: rest, upgrades =>
      match xdr.upgradeFromOpaque upgrade with
      | none => throw (.runtimeError "bad upgrade")
      | some lupgrade => addUpgrades xdr rest (upgrades.add lupgrade)

structure Candidates where
  closeTime : UInt64
  upgrades : UpgradeMap
  candidatesHash : Hash
  candidateValues : List VIIValue

def readCandidates (platform : DriverPlatform) : List Value → Candidates → Except Fault Candidates
  | [], read => return read
  | c :: rest, read =>
      match platform.xdr.valueFromOpaque c with
      | none => throw (.runtimeError "bad value")
      | some sv => do
          let upgrades ← addUpgrades platform.xdr sv.upgrades.1 read.upgrades
          readCandidates platform rest
            { closeTime := if read.closeTime < sv.closeTime then sv.closeTime else read.closeTime
              upgrades
              candidatesHash := read.candidatesHash ^^^ platform.sha256Value c
              candidateValues := read.candidateValues ++ [sv] }

def highestTxSet (candidatesHash : Hash) : List VIIValue →
    Hash × Option (TxSetFrame platform.toSetPlatform) →
      Except Fault (Hash × Option (TxSetFrame platform.toSetPlatform))
  | [], highest => return highest
  | sv :: rest, highest =>
      match driver.getTxSet sv.txSetHash with
      | none => highestTxSet candidatesHash rest highest
      | some cTxSet => do
          if cTxSet.mPreviousLedgerHash = driver.lclHash then
            if ← compareTxSets highest.2 (some cTxSet) highest.1 sv.txSetHash
                driver.ledger.header candidatesHash then
              highestTxSet candidatesHash rest (sv.txSetHash, some cTxSet)
            else
              highestTxSet candidatesHash rest highest
          else
            highestTxSet candidatesHash rest highest

/-- A value and, where invalid transactions had to be trimmed, the set that is cached later. The
pointer to the best set is dereferenced without a check. -/
def combineCandidates (candidates : List Value) :
    Except Fault (Value × Option (TxSetFrame platform.toSetPlatform)) := do
  let read ← readCandidates platform candidates
    { closeTime := 0, upgrades := fun _ => none, candidatesHash := 0, candidateValues := [] }
  match ← driver.highestTxSet read.candidatesHash read.candidateValues (0, none) with
  | (_, none) => throw (.assertFailed "highestTxSet")
  | (_, some highest) =>
      let (bestTxSet, removed) ← runOn driver.ledger highest.trimInvalid
      let comp : VIIValue :=
        { txSetHash := bestTxSet.getContentsHash.2
          closeTime := read.closeTime
          upgrades := ⟨read.upgrades.toList.map platform.xdr.upgradeToOpaque, by
            rw [List.length_map]
            exact (List.length_filterMap_le _ _).trans (by decide)⟩
          ext := .VII_VALUE_BASIC }
      return (platform.xdr.valueToOpaque comp, if removed = [] then none else some bestTxSet)

end HerderSCPDriver

end ViiCore.Herder
