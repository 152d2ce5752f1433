import ViiCore.Overlay.PeerAuth
import ViiCore.Util.BaseN

/-!
Keys as strings (`crypto/StrKey.cpp`, `crypto/KeyUtils.h`, `crypto/SecretKey.cpp`,
`crypto/SignerKey.cpp`, `lib/util/crc16.cpp`).

A key is spelled in base 32 as a byte with its version in the upper five bits, its 32 bytes and a
checksum of these. The reader drops the lower three bits of the first byte, so it takes eight
spellings of each key, and writes the one in which they are zero.
-/

namespace ViiCore

open Overlay (Uint256)
open bn

def crc16tab : List UInt16 :=
  [0x0000, 0x1021, 0x2042, 0x3063, 0x4084, 0x50a5, 0x60c6, 0x70e7,
    0x8108, 0x9129, 0xa14a, 0xb16b, 0xc18c, 0xd1ad, 0xe1ce, 0xf1ef,
    0x1231, 0x0210, 0x3273, 0x2252, 0x52b5, 0x4294, 0x72f7, 0x62d6,
    0x9339, 0x8318, 0xb37b, 0xa35a, 0xd3bd, 0xc39c, 0xf3ff, 0xe3de,
    0x2462, 0x3443, 0x0420, 0x1401, 0x64e6, 0x74c7, 0x44a4, 0x5485,
    0xa56a, 0xb54b, 0x8528, 0x9509, 0xe5ee, 0xf5cf, 0xc5ac, 0xd58d,
    0x3653, 0x2672, 0x1611, 0x0630, 0x76d7, 0x66f6, 0x5695, 0x46b4,
    0xb75b, 0xa77a, 0x9719, 0x8738, 0xf7df, 0xe7fe, 0xd79d, 0xc7bc,
    0x48c4, 0x58e5, 0x6886, 0x78a7, 0x0840, 0x1861, 0x2802, 0x3823,
    0xc9cc, 0xd9ed, 0xe98e, 0xf9af, 0x8948, 0x9969, 0xa90a, 0xb92b,
    0x5af5, 0x4ad4, 0x7ab7, 0x6a96, 0x1a71, 0x0a50, 0x3a33, 0x2a12,
    0xdbfd, 0xcbdc, 0xfbbf, 0xeb9e, 0x9b79, 0x8b58, 0xbb3b, 0xab1a,
    0x6ca6, 0x7c87, 0x4ce4, 0x5cc5, 0x2c22, 0x3c03, 0x0c60, 0x1c41,
    0xedae, 0xfd8f, 0xcdec, 0xddcd, 0xad2a, 0xbd0b, 0x8d68, 0x9d49,
    0x7e97, 0x6eb6, 0x5ed5, 0x4ef4, 0x3e13, 0x2e32, 0x1e51, 0x0e70,
    0xff9f, 0xefbe, 0xdfdd, 0xcffc, 0xbf1b, 0xaf3a, 0x9f59, 0x8f78,
    0x9188, 0x81a9, 0xb1ca, 0xa1eb, 0xd10c, 0xc12d, 0xf14e, 0xe16f,
    0x1080, 0x00a1, 0x30c2, 0x20e3, 0x5004, 0x4025, 0x7046, 0x6067,
    0x83b9, 0x9398, 0xa3fb, 0xb3da, 0xc33d, 0xd31c, 0xe37f, 0xf35e,
    0x02b1, 0x1290, 0x22f3, 0x32d2, 0x4235, 0x5214, 0x6277, 0x7256,
    0xb5ea, 0xa5cb, 0x95a8, 0x8589, 0xf56e, 0xe54f, 0xd52c, 0xc50d,
    0x34e2, 0x24c3, 0x14a0, 0x0481, 0x7466, 0x6447, 0x5424, 0x4405,
    0xa7db, 0xb7fa, 0x8799, 0x97b8, 0xe75f, 0xf77e, 0xc71d, 0xd73c,
    0x26d3, 0x36f2, 0x0691, 0x16b0, 0x6657, 0x7676, 0x4615, 0x5634,
    0xd94c, 0xc96d, 0xf90e, 0xe92f, 0x99c8, 0x89e9, 0xb98a, 0xa9ab,
    0x5844, 0x4865, 0x7806, 0x6827, 0x18c0, 0x08e1, 0x3882, 0x28a3,
    0xcb7d, 0xdb5c, 0xeb3f, 0xfb1e, 0x8bf9, 0x9bd8, 0xabbb, 0xbb9a,
    0x4a75, 0x5a54, 0x6a37, 0x7a16, 0x0af1, 0x1ad0, 0x2ab3, 0x3a92,
    0xfd2e, 0xed0f, 0xdd6c, 0xcd4d, 0xbdaa, 0xad8b, 0x9de8, 0x8dc9,
    0x7c26, 0x6c07, 0x5c64, 0x4c45, 0x3ca2, 0x2c83, 0x1ce0, 0x0cc1,
    0xef1f, 0xff3e, 0xcf5d, 0xdf7c, 0xaf9b, 0xbfba, 0x8fd9, 0x9ff8,
    0x6e17, 0x7e36, 0x4e55, 0x5e74, 0x2e93, 0x3eb2, 0x0ed1, 0x1ef0]

def crc16 (buf : List UInt8) : UInt16 :=
  buf.foldl
    (fun crc byte =>
      let index : UInt16 := ((crc >>> 8) ^^^ byte.toUInt16) &&& 0x00FF
      let shifted : UInt16 := (crc <<< 8) &&& 0xFFFF
      shifted ^^^ crc16tab.getD index.toNat 0)
    0

namespace strKey

def STRKEY_PUBKEY_ED25519 : UInt8 := 21

def STRKEY_SEED_ED25519 : UInt8 := 8

def STRKEY_PRE_AUTH_TX : UInt8 := 19

def STRKEY_HASH_X : UInt8 := 23

def toStrKey (ver : UInt8) (bin : List UInt8) : List UInt8 :=
  let ver := ver <<< 3
  let toEncode := ver :: bin
  let crc := crc16 toEncode
  encode_b32 (toEncode ++ [(crc &&& 0xFF).toUInt8, ((crc >>> 8) &&& 0xFF).toUInt8])

/-- `decoder::encoded_size32` of the data with version and checksum. -/
def getStrKeySize (dataSize : Nat) : Nat := (dataSize + 3 + 4) / 5 * 8

/-- The version and the data, or `none` where it returns false. -/
def fromStrKey (strKey : List UInt8) : Option (UInt8 × List UInt8) :=
  if strKey.length &&& 0x07 ≠ 0 then none
  else
    let decoded := decode_b32 strKey
    if decoded.length < 3 then none
    else
      let high := decoded.getLastD 0
      let decoded := decoded.dropLast
      let low := decoded.getLastD 0
      let decoded := decoded.dropLast
      let crc := high.toUInt16 <<< 8 ||| low.toUInt16
      if crc16 decoded ≠ crc then none
      else
        match decoded with
        | first :: rest => some (first >>> 3, rest)
        | [] => none

end strKey

namespace KeyUtils

open strKey

/-! ### Types of keys -/

def getKeyVersionSize (keyVersion : UInt8) : Except String Nat :=
  if keyVersion = STRKEY_PUBKEY_ED25519 ∨ keyVersion = STRKEY_SEED_ED25519 then return 32
  else if keyVersion = STRKEY_PRE_AUTH_TX ∨ keyVersion = STRKEY_HASH_X then return 32
  else throw ("invalid key version: " ++ toString keyVersion)

/-- The functions of a type of keys. `ofValue` is an assignment of the type of a key and then of its
value. -/
class KeyFunctions (T : Type) where
  KeyType : Type
  getKeyTypeName : String
  getKeyVersionIsSupported : UInt8 → Bool
  toKeyType : UInt8 → Except String KeyType
  toKeyVersion : KeyType → UInt8
  type : T → KeyType
  getKeyValue : T → Uint256
  ofValue : KeyType → Uint256 → T
  supported_iff : ∀ ver, getKeyVersionIsSupported ver = true ↔
    ∃ keyType, toKeyType ver = .ok keyType ∧ toKeyVersion keyType = ver
  toKeyType_toKeyVersion : ∀ keyType, toKeyType (toKeyVersion keyType) = .ok keyType
  size_toKeyVersion : ∀ keyType, getKeyVersionSize (toKeyVersion keyType) = .ok 32
  toKeyVersion_small : ∀ keyType, (toKeyVersion keyType).toNat < 32
  type_ofValue : ∀ keyType value, type (ofValue keyType value) = keyType
  getKeyValue_ofValue : ∀ keyType value, getKeyValue (ofValue keyType value) = value
  ofValue_eta : ∀ key, ofValue (type key) (getKeyValue key) = key

structure PublicKey where
  ed25519 : Uint256
  deriving DecidableEq

inductive PublicKeyType where
  | PUBLIC_KEY_TYPE_ED25519
  deriving DecidableEq

instance : KeyFunctions PublicKey where
  KeyType := PublicKeyType
  getKeyTypeName := "public key"
  getKeyVersionIsSupported keyVersion := keyVersion = STRKEY_PUBKEY_ED25519
  toKeyType keyVersion :=
    if keyVersion = STRKEY_PUBKEY_ED25519 then .ok .PUBLIC_KEY_TYPE_ED25519
    else .error "invalid public key type"
  toKeyVersion
    | .PUBLIC_KEY_TYPE_ED25519 => STRKEY_PUBKEY_ED25519
  type _ := .PUBLIC_KEY_TYPE_ED25519
  getKeyValue key := key.ed25519
  ofValue
    | .PUBLIC_KEY_TYPE_ED25519, value => ⟨value⟩
  supported_iff ver := by
    rw [decide_eq_true_eq]
    constructor
    · intro isVersion
      exact ⟨.PUBLIC_KEY_TYPE_ED25519, if_pos isVersion, isVersion.symm⟩
    · intro ⟨_, _, same⟩
      exact same.symm
  toKeyType_toKeyVersion keyType := by cases keyType; rfl
  size_toKeyVersion keyType := by cases keyType; rfl
  toKeyVersion_small keyType := by cases keyType; decide
  type_ofValue keyType value := by cases keyType; rfl
  getKeyValue_ofValue keyType value := by cases keyType; rfl
  ofValue_eta key := rfl

inductive SignerKeyType where
  | SIGNER_KEY_TYPE_ED25519
  | SIGNER_KEY_TYPE_PRE_AUTH_TX
  | SIGNER_KEY_TYPE_HASH_X
  deriving DecidableEq

inductive SignerKey where
  | ed25519 (value : Uint256)
  | preAuthTx (value : Uint256)
  | hashX (value : Uint256)
  deriving DecidableEq

instance : KeyFunctions SignerKey where
  KeyType := SignerKeyType
  getKeyTypeName := "signer key"
  getKeyVersionIsSupported keyVersion :=
    keyVersion = STRKEY_PUBKEY_ED25519 ∨ keyVersion = STRKEY_PRE_AUTH_TX ∨
      keyVersion = STRKEY_HASH_X
  toKeyType keyVersion :=
    if keyVersion = STRKEY_PUBKEY_ED25519 then .ok .SIGNER_KEY_TYPE_ED25519
    else if keyVersion = STRKEY_PRE_AUTH_TX then .ok .SIGNER_KEY_TYPE_PRE_AUTH_TX
    else if keyVersion = STRKEY_HASH_X then .ok .SIGNER_KEY_TYPE_HASH_X
    else .error "invalid signer key type"
  toKeyVersion
    | .SIGNER_KEY_TYPE_ED25519 => STRKEY_PUBKEY_ED25519
    | .SIGNER_KEY_TYPE_PRE_AUTH_TX => STRKEY_PRE_AUTH_TX
    | .SIGNER_KEY_TYPE_HASH_X => STRKEY_HASH_X
  type
    | .ed25519 _ => .SIGNER_KEY_TYPE_ED25519
    | .preAuthTx _ => .SIGNER_KEY_TYPE_PRE_AUTH_TX
    | .hashX _ => .SIGNER_KEY_TYPE_HASH_X
  getKeyValue
    | .ed25519 value => value
    | .preAuthTx value => value
    | .hashX value => value
  ofValue
    | .SIGNER_KEY_TYPE_ED25519, value => .ed25519 value
    | .SIGNER_KEY_TYPE_PRE_AUTH_TX, value => .preAuthTx value
    | .SIGNER_KEY_TYPE_HASH_X, value => .hashX value
  supported_iff ver := by
    rw [decide_eq_true_eq]
    constructor
    · rintro (rfl | rfl | rfl)
      · exact ⟨.SIGNER_KEY_TYPE_ED25519, rfl, rfl⟩
      · exact ⟨.SIGNER_KEY_TYPE_PRE_AUTH_TX, rfl, rfl⟩
      · exact ⟨.SIGNER_KEY_TYPE_HASH_X, rfl, rfl⟩
    · rintro ⟨keyType, -, rfl⟩
      cases keyType with
      | SIGNER_KEY_TYPE_ED25519 => exact Or.inl rfl
      | SIGNER_KEY_TYPE_PRE_AUTH_TX => exact Or.inr (Or.inl rfl)
      | SIGNER_KEY_TYPE_HASH_X => exact Or.inr (Or.inr rfl)
  toKeyType_toKeyVersion keyType := by cases keyType <;> rfl
  size_toKeyVersion keyType := by cases keyType <;> rfl
  toKeyVersion_small keyType := by cases keyType <;> decide
  type_ofValue keyType value := by cases keyType <;> rfl
  getKeyValue_ofValue keyType value := by cases keyType <;> rfl
  ofValue_eta key := by cases key <;> rfl

/-! ### The functions on keys -/

variable {T : Type} [KeyFunctions T]

open KeyFunctions

def toStrKey (key : T) : List UInt8 :=
  strKey.toStrKey (toKeyVersion (type key)) (getKeyValue key).bytes

/-- What is thrown is an `invalid_argument`. -/
def fromStrKey (s : List UInt8) : Except String T :=
  match strKey.fromStrKey s with
  | none => throw ("bad " ++ getKeyTypeName T)
  | some (ver, k) =>
      if getKeyVersionIsSupported T ver = false then throw ("bad " ++ getKeyTypeName T)
      else do
        let size ← getKeyVersionSize ver
        if k.length ≠ size ∨ s.length ≠ getStrKeySize size then throw ("bad " ++ getKeyTypeName T)
        else
          let keyType ← toKeyType ver
          -- Every supported version has values of this size.
          if isValue : k.length = 32 then return ofValue keyType ⟨k, isValue⟩
          else throw ("bad " ++ getKeyTypeName T)

/-! ### Spellings -/

def checksum (data : List UInt8) : List UInt8 :=
  [(crc16 data &&& 0xFF).toUInt8, ((crc16 data >>> 8) &&& 0xFF).toUInt8]

/-- The first byte for a version, with something in the lower bits. -/
def firstByte (version : UInt8) (low : BitVec 3) : UInt8 :=
  version <<< 3 ||| .ofBitVec (low.setWidth 8)

/-- The spelling of a key with something in the lower bits of the first byte. -/
def spelling (low : BitVec 3) (key : T) : List UInt8 :=
  let toEncode := firstByte (toKeyVersion (type key)) low :: (getKeyValue key).bytes
  encode_b32 (toEncode ++ checksum toEncode)

theorem firstByte_zero (version : UInt8) : firstByte version 0 = version <<< 3 := by
  unfold firstByte
  rw [← UInt8.toBitVec_inj, UInt8.toBitVec_or]
  exact BitVec.or_zero

theorem firstByte_bits {version : UInt8} (small : version.toNat < 32) (low : BitVec 3) :
    firstByte version low >>> 3 = version ∧ (firstByte version low).toBitVec.setWidth 3 = low := by
  have all : ∀ (version : Fin 32) (low : BitVec 3),
      firstByte (UInt8.ofNat version) low >>> 3 = UInt8.ofNat version ∧
        (firstByte (UInt8.ofNat version) low).toBitVec.setWidth 3 = low := by
    decide +kernel
  have bits := all ⟨version.toNat, small⟩ low
  rwa [UInt8.ofNat_toNat] at bits

theorem exists_firstByte (first : UInt8) : ∃ low, first = firstByte (first >>> 3) low := by
  have all : ∀ first : Fin 256, UInt8.ofNat first =
      firstByte (UInt8.ofNat first >>> 3) ((UInt8.ofNat first).toBitVec.setWidth 3) := by
    decide +kernel
  have bits := all ⟨first.toNat, first.toNat_lt⟩
  rw [UInt8.ofNat_toNat] at bits
  exact ⟨_, bits⟩

theorem checksum_value (crc : UInt16) :
    ((crc >>> 8) &&& 0xFF).toUInt8.toUInt16 <<< 8 ||| (crc &&& 0xFF).toUInt8.toUInt16 = crc := by
  have shiftRight : (crc >>> 8).toBitVec = crc.toBitVec >>> 8 := rfl
  have shiftLeft (word : UInt16) : (word <<< 8).toBitVec = word.toBitVec <<< 8 := rfl
  simp only [← UInt16.toBitVec_inj, UInt16.toBitVec_or, shiftLeft, UInt8.toBitVec_toUInt16,
    UInt16.toBitVec_toUInt8, UInt16.toBitVec_and, shiftRight, UInt16.toBitVec_ofNat]
  generalize crc.toBitVec = x
  ext i bound
  interval_cases i <;> simp

theorem checksum_bytes (high low : UInt8) :
    ((high.toUInt16 <<< 8 ||| low.toUInt16) &&& 0xFF).toUInt8 = low ∧
      (((high.toUInt16 <<< 8 ||| low.toUInt16) >>> 8) &&& 0xFF).toUInt8 = high := by
  have shiftRight (word : UInt16) : (word >>> 8).toBitVec = word.toBitVec >>> 8 := rfl
  have shiftLeft (word : UInt16) : (word <<< 8).toBitVec = word.toBitVec <<< 8 := rfl
  simp only [← UInt8.toBitVec_inj, UInt16.toBitVec_or, shiftLeft, UInt8.toBitVec_toUInt16,
    UInt16.toBitVec_toUInt8, UInt16.toBitVec_and, shiftRight, UInt16.toBitVec_ofNat]
  generalize high.toBitVec = x
  generalize low.toBitVec = y
  constructor
  · ext i bound
    interval_cases i <;> simp
  · ext i bound
    interval_cases i <;> simp

theorem spelling_zero (key : T) : spelling 0 key = toStrKey key := by
  unfold spelling toStrKey strKey.toStrKey
  rw [firstByte_zero]
  rfl

theorem length_encoded (first : UInt8) (value : Uint256) :
    (first :: value.bytes ++ checksum (first :: value.bytes)).length = 5 * 7 := by
  rw [List.length_append, List.length_cons, value.size]
  rfl

theorem spelling_bytes (low : BitVec 3) (key : T) :
    (spelling low key).length = 56 ∧ decode_b32 (spelling low key) =
      firstByte (toKeyVersion (type key)) low :: (getKeyValue key).bytes ++
        checksum (firstByte (toKeyVersion (type key)) low :: (getKeyValue key).bytes) := by
  obtain ⟨decodes, length⟩ := decode_encode_b32
    (length_encoded (firstByte (toKeyVersion (type key)) low) (getKeyValue key))
  exact ⟨length, decodes⟩

theorem spelling_inj {low low' : BitVec 3} {key key' : T}
    (same : spelling low key = spelling low' key') : low = low' ∧ key = key' := by
  have bytes := congrArg decode_b32 same
  rw [(spelling_bytes low key).2, (spelling_bytes low' key').2, List.cons_append, List.cons_append,
    List.cons.injEq] at bytes
  obtain ⟨first, rest⟩ := bytes
  have values : (getKeyValue key).bytes = (getKeyValue key').bytes := by
    have sizes : (getKeyValue key).bytes.length = (getKeyValue key').bytes.length :=
      (getKeyValue key).size.trans (getKeyValue key').size.symm
    exact (List.append_inj rest sizes).1
  obtain ⟨versions, lows⟩ := firstByte_bits (toKeyVersion_small (type key)) low
  obtain ⟨versions', lows'⟩ := firstByte_bits (toKeyVersion_small (type key')) low'
  rw [first] at versions lows
  refine ⟨lows.symm.trans lows', ?_⟩
  have sameVersion := versions.symm.trans versions'
  have types := toKeyType_toKeyVersion (type key)
  rw [sameVersion, toKeyType_toKeyVersion] at types
  have sameValue : getKeyValue key = getKeyValue key' := by
    cases value : getKeyValue key with
    | mk bytes size =>
        cases value' : getKeyValue key' with
        | mk bytes' size' =>
            rw [value, value'] at values
            cases values
            rfl
  rw [← ofValue_eta key, ← ofValue_eta key', sameValue, Except.ok.inj types]

/-! ### Reading -/

theorem checksum_concat_iff (data : List UInt8) (low high : UInt8) :
    crc16 data = high.toUInt16 <<< 8 ||| low.toUInt16 ↔ [low, high] = checksum data := by
  unfold checksum
  constructor
  · intro same
    rw [same, (checksum_bytes high low).1, (checksum_bytes high low).2]
  · intro same
    cases same
    exact (checksum_value (crc16 data)).symm

theorem strKey_fromStrKey_iff {s : List UInt8} (whole : s.length &&& 0x07 = 0) {version : UInt8}
    {k : List UInt8} :
    strKey.fromStrKey s = some (version, k) ↔
      ∃ first : UInt8, first >>> 3 = version ∧
        decode_b32 s = first :: k ++ checksum (first :: k) := by
  unfold strKey.fromStrKey
  rw [if_neg (not_not.mpr whole)]
  dsimp only
  generalize decode_b32 s = decoded
  constructor
  · intro accepted
    split at accepted
    · cases accepted
    · rename_i long
      obtain ⟨data, low, high, rfl⟩ : ∃ data low high, decoded = data ++ [low] ++ [high] := by
        rcases decoded.eq_nil_or_concat' with rfl | ⟨front, high, rfl⟩
        · exact absurd (by simp) long
        rcases front.eq_nil_or_concat' with rfl | ⟨data, low, rfl⟩
        · exact absurd (by simp) long
        exact ⟨data, low, high, rfl⟩
      simp only [List.getLastD_concat, List.dropLast_concat] at accepted
      split at accepted
      · cases accepted
      · rename_i checked
        rw [not_not, checksum_concat_iff] at checked
        cases data with
        | nil => cases accepted
        | cons first rest =>
            cases accepted
            refine ⟨first, rfl, ?_⟩
            rw [← checked, List.append_assoc]
            rfl
  · rintro ⟨first, rfl, rfl⟩
    have checked := (checksum_concat_iff (first :: k) _ _).mpr rfl
    have long : ¬ (first :: k ++ checksum (first :: k)).length < 3 := by
      simp [checksum]
    have split : first :: k ++ checksum (first :: k) =
        first :: k ++ [(crc16 (first :: k) &&& 0xFF).toUInt8] ++
          [((crc16 (first :: k) >>> 8) &&& 0xFF).toUInt8] := by
      rw [List.append_assoc]
      rfl
    rw [if_neg long, split]
    simp only [List.getLastD_concat, List.dropLast_concat]
    rw [if_neg (not_not.mpr checked)]

theorem fromStrKey_of_read {s : List UInt8} {version : UInt8} {k : List UInt8} {keyType : KeyType T}
    (length : s.length = 56) (size : k.length = 32)
    (read : strKey.fromStrKey s = some (version, k)) (isVersion : toKeyVersion keyType = version) :
    fromStrKey s = .ok (ofValue keyType ⟨k, size⟩ : T) := by
  subst isVersion
  have supported : ¬ getKeyVersionIsSupported T (toKeyVersion keyType) = false := by
    rw [Bool.not_eq_false]
    exact (supported_iff _).mpr ⟨keyType, toKeyType_toKeyVersion keyType, rfl⟩
  have sizes : ¬ (k.length ≠ 32 ∨ s.length ≠ getStrKeySize 32) := by
    rw [size, length]
    decide
  unfold fromStrKey
  rw [read]
  dsimp only
  rw [if_neg supported, size_toKeyVersion, toKeyType_toKeyVersion]
  refine (if_neg sizes).trans ?_
  exact dif_pos size

theorem exists_read {s : List UInt8} {key : T} (accepted : fromStrKey s = .ok key) :
    ∃ version k, strKey.fromStrKey s = some (version, k) ∧ s.length = 56 ∧ k.length = 32 ∧
      ∃ keyType : KeyType T, toKeyVersion keyType = version := by
  unfold fromStrKey at accepted
  split at accepted
  · cases accepted
  · rename_i version k read
    split at accepted
    · cases accepted
    · rename_i supported
      rw [Bool.not_eq_false, supported_iff] at supported
      obtain ⟨keyType, -, isVersion⟩ := supported
      rw [← isVersion, size_toKeyVersion] at accepted
      by_cases wrong : k.length ≠ 32 ∨ s.length ≠ getStrKeySize 32
      · have refused := (if_pos wrong).symm.trans accepted
        cases refused
      · rw [not_or, not_not, not_not] at wrong
        exact ⟨version, k, read, wrong.2, wrong.1, keyType, isVersion⟩

theorem fromStrKey_iff {s : List UInt8} {key : T} :
    fromStrKey s = .ok key ↔ ∃ low, s = spelling low key := by
  constructor
  · intro accepted
    obtain ⟨version, k, read, length, size, keyType, isVersion⟩ := exists_read accepted
    have isKey := fromStrKey_of_read length size read isVersion
    rw [accepted] at isKey
    have whole : s.length &&& 0x07 = 0 := by
      rw [length]
      rfl
    obtain ⟨first, shifted, decodes⟩ := (strKey_fromStrKey_iff whole).mp read
    obtain ⟨low, isFirst⟩ := exists_firstByte first
    refine ⟨low, ?_⟩
    have full : (decode_b32 s).length = 5 * 7 := by
      rw [decodes]
      exact length_encoded first ⟨k, size⟩
    rw [← encode_decode_b32 (show s.length = 8 * 7 from length) full, decodes, Except.ok.inj isKey]
    unfold spelling
    rw [type_ofValue, getKeyValue_ofValue, isVersion, ← shifted, ← isFirst]
  · rintro ⟨low, rfl⟩
    obtain ⟨length, decodes⟩ := spelling_bytes low key
    have whole : (spelling low key).length &&& 0x07 = 0 := by
      rw [length]
      rfl
    have shifted := (firstByte_bits (toKeyVersion_small (type key)) low).1
    have read := (strKey_fromStrKey_iff whole).mpr ⟨_, shifted, decodes⟩
    rw [fromStrKey_of_read length (getKeyValue key).size read rfl]
    exact congrArg Except.ok (ofValue_eta key)

/-- A string is read as a key exactly if it is one of its eight spellings, which belong to no other
key; what `toStrKey` writes is the one with no lower bits in the first byte. -/
theorem fromStrKey_spellings (T : Type) [KeyFunctions T] (s : List UInt8) :
    ((∃ key : T, fromStrKey s = .ok key) ↔ ∃ (low : BitVec 3) (key : T), s = spelling low key) ∧
    (∀ (low : BitVec 3) (key : T), fromStrKey (spelling low key) = .ok key) ∧
    (∀ (low low' : BitVec 3) (key key' : T),
      spelling low key = spelling low' key' ↔ low = low' ∧ key = key') ∧
    ∀ key : T, toStrKey key = spelling 0 key := by
  refine ⟨?_, fun low key => fromStrKey_iff.mpr ⟨low, rfl⟩, ?_, fun key => (spelling_zero key).symm⟩
  · constructor
    · intro ⟨key, accepted⟩
      obtain ⟨low, isSpelling⟩ := fromStrKey_iff.mp accepted
      exact ⟨low, key, isSpelling⟩
    · intro ⟨low, key, isSpelling⟩
      exact ⟨key, fromStrKey_iff.mpr ⟨low, isSpelling⟩⟩
  · intro low low' key key'
    constructor
    · exact spelling_inj
    · intro ⟨sameLow, sameKey⟩
      rw [sameLow, sameKey]

theorem zeros_length : (List.replicate 32 (0 : UInt8)).length = 32 := rfl

def zeroKey : PublicKey := ⟨⟨List.replicate 32 0, zeros_length⟩⟩

def zeroKeySpelling : List UInt8 :=
  characters "VEAAAAAAAAAAAAAAAAAAAAAAAAAAAAAAAAAAAAAAAAAAAAAAAAAAAKW4"

theorem fromStrKey_other_bits :
    (fromStrKey zeroKeySpelling : Except String PublicKey) = .ok zeroKey ∧
      ¬ ∃ key : PublicKey, zeroKeySpelling = toStrKey key := by
  refine ⟨by decide +kernel, ?_⟩
  intro ⟨key, same⟩
  have first : (decode_b32 zeroKeySpelling).head? = some 169 := by decide +kernel
  rw [same, ← spelling_zero, (spelling_bytes 0 key).2, firstByte_zero] at first
  have isFirst : STRKEY_PUBKEY_ED25519 <<< 3 = (169 : UInt8) := Option.some.inj first
  exact absurd isFirst (by decide)

end KeyUtils

end ViiCore
