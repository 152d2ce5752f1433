import ViiCore.Herder.HerderSCPDriver

/-!
The marshalling of values and upgrades, put together from the declarations of `vii-ledger.x`:
numbers take four or eight bytes, the most significant one first, a union is the code of its arm
and the arm, and bytes of any length come after their number and are filled up to four.
-/

namespace ViiCore.Herder.ValueXdr

open ViiCore.Codec

def hash : Codec Hash := word 32

def uint64 : Codec UInt64 :=
  (word 8).via
    { toFun b := ⟨b⟩
      invFun n := n.toBitVec
      left_inv _ := rfl
      right_inv _ := rfl }

/-- The only type of key is `PUBLIC_KEY_TYPE_ED25519`. -/
def publicKey : Codec Ledger.Uint256 :=
  (pair (enumeration (τ := Unit) (number 4) (fun _ => ⟨0, by decide⟩)
    (fun code => if code.val = 0 then some () else none)
    (by
      intro code _
      simp only [Option.ite_none_right_eq_some, and_true, Fin.ext_iff]
      exact eq_comm)) (word 32)).via (Equiv.punitProd _)

def lcValueSignature : Codec LedgerCloseValueSignature :=
  (pair publicKey (bytesUpTo 64 (by decide))).via
    { toFun parts := ⟨parts.1, parts.2⟩
      invFun signed := (signed.nodeID, signed.signature)
      left_inv _ := rfl
      right_inv _ := rfl }

/-- The codes of `VIIValueType`, of which only the second has something in its arm. -/
def valueType : Codec Bool :=
  enumeration (number 4) (fun signed => ⟨signed.toNat, by cases signed <;> decide⟩)
    (fun code =>
      if code.val = 0 then some false else if code.val = 1 then some true else none)
    (by
      intro code signed
      cases signed
      · simp only [Fin.ext_iff, Bool.toNat_false]
        split <;> rename_i zero
        · simp [zero]
        · split <;> simp [Ne.symm zero]
      · simp only [Fin.ext_iff, Bool.toNat_true]
        split <;> rename_i zero
        · simp [zero]
        · split <;> rename_i one
          · simp [one]
          · simp [Ne.symm one])

def valueArm : Bool → Type
  | false => Unit
  | true => LedgerCloseValueSignature

def valueArmCodec : (signed : Bool) → Codec (valueArm signed)
  | false => unit
  | true => lcValueSignature

def valueExt : Codec VIIValueExt :=
  (tagged valueType valueArmCodec).via
    { toFun
        | ⟨false, _⟩ => .VII_VALUE_BASIC
        | ⟨true, signed⟩ => .VII_VALUE_SIGNED signed
      invFun
        | .VII_VALUE_BASIC => ⟨false, ()⟩
        | .VII_VALUE_SIGNED signed => ⟨true, signed⟩
      left_inv
        | ⟨false, _⟩ => rfl
        | ⟨true, _⟩ => rfl
      right_inv
        | .VII_VALUE_BASIC => rfl
        | .VII_VALUE_SIGNED _ => rfl }

def value : Codec VIIValue :=
  (pair hash (pair uint64 (pair (array (bytesUpTo 128 (by decide)) 6 (by decide)) valueExt))).via
    { toFun parts := ⟨parts.1, parts.2.1, parts.2.2.1, parts.2.2.2⟩
      invFun value := (value.txSetHash, value.closeTime, value.upgrades, value.ext)
      left_inv _ := rfl
      right_inv _ := rfl }

/-! ### Upgrades -/

def upgradeTypeOf (code : Nat) : Option LedgerUpgradeType :=
  [.LEDGER_UPGRADE_VERSION, .LEDGER_UPGRADE_BASE_FEE, .LEDGER_UPGRADE_MAX_TX_SET_SIZE,
    .LEDGER_UPGRADE_BASE_RESERVE].find? fun type => type.code = code

theorem upgradeTypeOf_eq_some {code : Nat} {type : LedgerUpgradeType} :
    upgradeTypeOf code = some type ↔ type.code = code := by
  constructor
  · intro found
    simpa using List.find?_some found
  · intro same
    subst same
    cases type <;> rfl

def upgradeType : Codec LedgerUpgradeType :=
  enumeration (number 4) (fun type => ⟨type.code, by cases type <;> decide⟩)
    (fun code => upgradeTypeOf code.val)
    (by
      intro code type
      rw [upgradeTypeOf_eq_some, Fin.ext_iff])

def ofType (type : LedgerUpgradeType) (number : Nat) : LedgerUpgrade :=
  match type with
  | .LEDGER_UPGRADE_VERSION => .LEDGER_UPGRADE_VERSION number
  | .LEDGER_UPGRADE_BASE_FEE => .LEDGER_UPGRADE_BASE_FEE number
  | .LEDGER_UPGRADE_MAX_TX_SET_SIZE => .LEDGER_UPGRADE_MAX_TX_SET_SIZE number
  | .LEDGER_UPGRADE_BASE_RESERVE => .LEDGER_UPGRADE_BASE_RESERVE number

@[simp] theorem ofType_number (type : LedgerUpgradeType) (number : Nat) :
    (ofType type number).number = number := by
  cases type <;> rfl

@[simp] theorem ofType_type (type : LedgerUpgradeType) (number : Nat) :
    (ofType type number).type = type := by
  cases type <;> rfl

@[simp] theorem ofType_self (upgrade : LedgerUpgrade) :
    ofType upgrade.type upgrade.number = upgrade := by
  cases upgrade <;> rfl

/-- The numbers in all arms have 32 bits. -/
def upgrade : Codec {upgrade : LedgerUpgrade // upgrade.number < 2 ^ 32} :=
  (pair upgradeType (number 4)).via
    { toFun parts := ⟨ofType parts.1 parts.2.val, by simp⟩
      invFun upgrade := (upgrade.1.type, ⟨upgrade.1.number, upgrade.2⟩)
      left_inv parts := by simp
      right_inv upgrade := by simp }

theorem upgrade_encode_length (step : {upgrade : LedgerUpgrade // upgrade.number < 2 ^ 32}) :
    (upgrade.encode step).length = 8 := by
  simp [upgrade, upgradeType]

theorem value_encode_ne_nil (b : VIIValue) : value.encode b ≠ [] := by
  intro empty
  have length := congrArg List.length empty
  simp [value, hash] at length

/-- A number that does not fit is cut off, as it never is one of an upgrade of the program. -/
def upgradeToOpaque (step : LedgerUpgrade) : UpgradeType :=
  ⟨upgrade.encode ⟨ofType step.type (step.number % 2 ^ 32), by
      rw [ofType_number]
      exact Nat.mod_lt _ (by decide)⟩,
    by simp [upgrade_encode_length]⟩

def upgradeFromOpaque (bytes : UpgradeType) : Option LedgerUpgrade :=
  (upgrade.fromOpaque bytes.1).map Subtype.val

def xdr : Marshalling where
  valueToOpaque := value.encode
  valueFromOpaque := value.fromOpaque
  upgradeToOpaque
  upgradeFromOpaque
  value_roundTrip := value.fromOpaque_encode
  value_canonical := value.encode_of_fromOpaque
  value_ne_nil := value_encode_ne_nil
  upgrade_roundTrip step fits := by
    simp only [upgradeFromOpaque, upgradeToOpaque, fromOpaque_encode, Option.map_some,
      Nat.mod_eq_of_lt fits, ofType_self]
  upgrade_fits {bytes step} read := by
    obtain ⟨found, _, here⟩ := Option.map_eq_some_iff.mp read
    rw [← here]
    exact found.2

end ViiCore.Herder.ValueXdr
