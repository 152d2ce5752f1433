import ViiCore.Util.LruCache

/-!
The keys of a session between two peers (`overlay/PeerAuth.cpp`, `crypto/ECDH.cpp`,
`crypto/SHA.cpp`).

What libsodium computes is a parameter: multiplication on Curve25519, HMAC-SHA-256 and signatures.
Keys and authentication codes are of one type, since each derived key is a code.
-/

namespace ViiCore.Overlay

structure Uint256 where
  bytes : List UInt8
  size : bytes.length = 32
  deriving DecidableEq

inductive PeerRole where
  | REMOTE_CALLED_US
  | WE_CALLED_REMOTE
  deriving DecidableEq

def PeerRole.other : PeerRole → PeerRole
  | .REMOTE_CALLED_US => .WE_CALLED_REMOTE
  | .WE_CALLED_REMOTE => .REMOTE_CALLED_US

structure Primitives (Secret Key : Type) where
  crypto_scalarmult_base : Secret → Uint256
  crypto_scalarmult : Secret → Uint256 → Option Uint256
  crypto_auth_hmacsha256 : Key → List UInt8 → Key
  /-- A key of zeros. -/
  zerosalt : Key
  /-- `sha256` of the network, the kind of envelope, the expiration and the key of a certificate. -/
  certHash : Uint256 → UInt64 → Uint256 → Uint256
  verifySig : Uint256 → List UInt8 → Uint256 → Bool

structure AuthCert where
  pubkey : Uint256
  expiration : UInt64
  sig : List UInt8
  deriving DecidableEq

variable {Secret Key : Type}

namespace Primitives

variable (lib : Primitives Secret Key)

def hmacSha256 (key : Key) (bin : List UInt8) : Key := lib.crypto_auth_hmacsha256 key bin

def hmacSha256Verify [DecidableEq Key] (hmac : Key) (key : Key) (bin : List UInt8) : Bool :=
  hmac = lib.crypto_auth_hmacsha256 key bin

def hkdfExtract (bin : List UInt8) : Key := lib.hmacSha256 lib.zerosalt bin

def hkdfExpand (key : Key) (bin : List UInt8) : Key := lib.hmacSha256 key (bin ++ [1])

def EcdhDerivePublic (sec : Secret) : Uint256 := lib.crypto_scalarmult_base sec

def sharedInput (q publicA publicB : Uint256) : List UInt8 :=
  q.bytes ++ publicA.bytes ++ publicB.bytes

/-- Nothing is returned where the code throws. -/
def EcdhDeriveSharedKey (localSecret : Secret) (localPublic remotePublic : Uint256)
    (localFirst : Bool) : Option Key :=
  let publicA := if localFirst then localPublic else remotePublic
  let publicB := if localFirst then remotePublic else localPublic
  match lib.crypto_scalarmult localSecret remotePublic with
  | none => none
  | some q => some (lib.hkdfExtract (sharedInput q publicA publicB))

end Primitives

/-! ### The cache of a node -/

structure PeerAuth (Secret Key : Type) where
  mECDHSecretKey : Secret
  mCert : AuthCert
  mSharedKeyCache : LruCache (Uint256 × PeerRole) Key

def expirationLimit : UInt64 := 3600

variable (lib : Primitives Secret Key)

/-- `sign` is `NODE_SEED.sign`. -/
def makeAuthCert (sign : Uint256 → List UInt8) (networkID : Uint256) (timeNow : UInt64)
    (pub : Uint256) : AuthCert :=
  let expiration := timeNow + expirationLimit
  { pubkey := pub, expiration, sig := sign (lib.certHash networkID expiration pub) }

namespace PeerAuth

variable (auth : PeerAuth Secret Key)

def mECDHPublicKey : Uint256 := lib.EcdhDerivePublic auth.mECDHSecretKey

def getAuthCert (sign : Uint256 → List UInt8) (networkID : Uint256) (timeNow : UInt64) :
    AuthCert × PeerAuth Secret Key :=
  if auth.mCert.expiration < timeNow + expirationLimit / 2 then
    let mCert := makeAuthCert lib sign networkID timeNow (auth.mECDHPublicKey lib)
    (mCert, { auth with mCert })
  else (auth.mCert, auth)

omit auth in
def verifyRemoteAuthCert (networkID : Uint256) (timeNow : UInt64) (remoteNode : Uint256)
    (cert : AuthCert) : Bool :=
  if cert.expiration < timeNow then false
  else lib.verifySig remoteNode cert.sig (lib.certHash networkID cert.expiration cert.pubkey)

def deriveShared (remotePublic : Uint256) (role : PeerRole) : Option Key :=
  lib.EcdhDeriveSharedKey auth.mECDHSecretKey (auth.mECDHPublicKey lib) remotePublic
    (role = .WE_CALLED_REMOTE)

def getSharedKey (remotePublic : Uint256) (role : PeerRole) : Option (Key × PeerAuth Secret Key) :=
  let key := (remotePublic, role)
  if auth.mSharedKeyCache.exists_ key then
    match auth.mSharedKeyCache.get key with
    | none => none
    | some (value, touched) => some (value, { auth with mSharedKeyCache := touched })
  else
    match auth.deriveShared lib remotePublic role with
    | none => none
    | some value =>
        some (value, { auth with mSharedKeyCache := auth.mSharedKeyCache.put key value })

omit auth lib in
def sendingBuffer (localNonce remoteNonce : Uint256) (role : PeerRole) : List UInt8 :=
  if role = .WE_CALLED_REMOTE then 0 :: (localNonce.bytes ++ remoteNonce.bytes)
  else 1 :: (localNonce.bytes ++ remoteNonce.bytes)

omit auth lib in
def receivingBuffer (localNonce remoteNonce : Uint256) (role : PeerRole) : List UInt8 :=
  if role = .WE_CALLED_REMOTE then 1 :: (remoteNonce.bytes ++ localNonce.bytes)
  else 0 :: (remoteNonce.bytes ++ localNonce.bytes)

def expandShared (remotePublic : Uint256) (role : PeerRole) (buf : List UInt8) :
    Option (Key × PeerAuth Secret Key) :=
  match auth.getSharedKey lib remotePublic role with
  | none => none
  | some (k, auth) => some (lib.hkdfExpand k buf, auth)

def getSendingMacKey (remotePublic localNonce remoteNonce : Uint256) (role : PeerRole) :
    Option (Key × PeerAuth Secret Key) :=
  auth.expandShared lib remotePublic role (sendingBuffer localNonce remoteNonce role)

def getReceivingMacKey (remotePublic localNonce remoteNonce : Uint256) (role : PeerRole) :
    Option (Key × PeerAuth Secret Key) :=
  auth.expandShared lib remotePublic role (receivingBuffer localNonce remoteNonce role)

/-! ### What the cache holds -/

def CacheSound : Prop :=
  auth.mSharedKeyCache.Holds fun key value => auth.deriveShared lib key.1 key.2 = some value

variable {lib auth} {remotePublic localNonce remoteNonce : Uint256} {role : PeerRole}

theorem getSharedKey_spec (sound : auth.CacheSound lib) {k : Key} {after : PeerAuth Secret Key}
    (got : auth.getSharedKey lib remotePublic role = some (k, after)) :
    auth.deriveShared lib remotePublic role = some k ∧ after.CacheSound lib ∧
      after.mECDHSecretKey = auth.mECDHSecretKey := by
  unfold getSharedKey at got
  simp only at got
  split at got
  · split at got
    · cases got
    · rename_i value touched there
      cases got
      obtain ⟨valid, holds⟩ := LruCache.get_holds sound there
      exact ⟨valid, holds, rfl⟩
  · split at got
    · cases got
    · rename_i value derived
      cases got
      exact ⟨derived, LruCache.put_holds sound derived, rfl⟩

variable (remotePublic role) in
theorem getSharedKey_fst (sound : auth.CacheSound lib) :
    (auth.getSharedKey lib remotePublic role).map Prod.fst = auth.deriveShared lib remotePublic role := by
  cases got : auth.getSharedKey lib remotePublic role with
  | some pair =>
      obtain ⟨k, after⟩ := pair
      exact (getSharedKey_spec sound got).1.symm
  | none =>
      unfold getSharedKey at got
      simp only at got
      split at got
      · rename_i there
        split at got
        · rename_i missing
          exact absurd missing (LruCache.get_of_exists there)
        · cases got
      · split at got
        · rename_i missing
          rw [missing]
          rfl
        · cases got

theorem getAuthCert_after (sound : auth.CacheSound lib) (sign : Uint256 → List UInt8)
    (networkID : Uint256) (timeNow : UInt64) :
    (auth.getAuthCert lib sign networkID timeNow).2.CacheSound lib ∧
      (auth.getAuthCert lib sign networkID timeNow).2.mECDHSecretKey = auth.mECDHSecretKey := by
  unfold getAuthCert
  split
  · exact ⟨sound, rfl⟩
  · exact ⟨sound, rfl⟩

end PeerAuth

/-! ### Keys and what they are derived from -/

structure KeyInput where
  material : List UInt8
  buffer : List UInt8
  deriving DecidableEq

def Primitives.sessionKey (input : KeyInput) : Key :=
  lib.hkdfExpand (lib.hkdfExtract input.material) input.buffer

/-- The product on the curve, with the key of the calling side first. -/
def material (secret : Secret) (remotePublic : Uint256) (role : PeerRole) : Option (List UInt8) :=
  let localPublic := lib.EcdhDerivePublic secret
  let localFirst := role = .WE_CALLED_REMOTE
  (lib.crypto_scalarmult secret remotePublic).map fun q =>
    Primitives.sharedInput q (if localFirst then localPublic else remotePublic)
      (if localFirst then remotePublic else localPublic)

def sendingInput (secret : Secret) (remotePublic localNonce remoteNonce : Uint256)
    (role : PeerRole) : Option KeyInput :=
  (material lib secret remotePublic role).map fun material =>
    { material, buffer := PeerAuth.sendingBuffer localNonce remoteNonce role }

def receivingInput (secret : Secret) (remotePublic localNonce remoteNonce : Uint256)
    (role : PeerRole) : Option KeyInput :=
  (material lib secret remotePublic role).map fun material =>
    { material, buffer := PeerAuth.receivingBuffer localNonce remoteNonce role }

/-- Both sides compute the same point on the curve. -/
def Commutes : Prop :=
  ∀ a b, lib.crypto_scalarmult a (lib.EcdhDerivePublic b) =
    lib.crypto_scalarmult b (lib.EcdhDerivePublic a)

variable {lib} {auth : PeerAuth Secret Key} {a b : Secret}
  {remotePublic remotePublic' localNonce localNonce' remoteNonce remoteNonce' : Uint256}
  {role role' : PeerRole} {input : KeyInput}

theorem deriveShared_eq : auth.deriveShared lib remotePublic role =
    (material lib auth.mECDHSecretKey remotePublic role).map lib.hkdfExtract := by
  unfold PeerAuth.deriveShared Primitives.EcdhDeriveSharedKey material
  simp only [decide_eq_true_eq, PeerAuth.mECDHPublicKey]
  cases lib.crypto_scalarmult auth.mECDHSecretKey remotePublic with
  | none => rfl
  | some q => rfl

theorem expandShared_fst (sound : auth.CacheSound lib) (buffer : List UInt8) :
    (auth.expandShared lib remotePublic role buffer).map Prod.fst =
      (material lib auth.mECDHSecretKey remotePublic role).map fun material =>
        lib.sessionKey { material, buffer } := by
  have shared := PeerAuth.getSharedKey_fst remotePublic role sound
  rw [deriveShared_eq] at shared
  unfold PeerAuth.expandShared
  cases got : auth.getSharedKey lib remotePublic role with
  | none =>
      rw [got] at shared
      have nothing := Option.map_eq_none_iff.mp shared.symm
      rw [nothing]
      rfl
  | some pair =>
      rw [got] at shared
      obtain ⟨bytes, is, extracted⟩ := Option.map_eq_some_iff.mp shared.symm
      rw [is]
      simp [Primitives.sessionKey, extracted]

theorem expandShared_after (sound : auth.CacheSound lib) {buffer : List UInt8} {key : Key}
    {after : PeerAuth Secret Key}
    (got : auth.expandShared lib remotePublic role buffer = some (key, after)) :
    after.CacheSound lib ∧ after.mECDHSecretKey = auth.mECDHSecretKey := by
  unfold PeerAuth.expandShared at got
  split at got
  · cases got
  · rename_i k touched shared
    cases got
    exact (PeerAuth.getSharedKey_spec sound shared).2

variable (remotePublic localNonce remoteNonce role) in
theorem getSendingMacKey_fst (sound : auth.CacheSound lib) :
    (auth.getSendingMacKey lib remotePublic localNonce remoteNonce role).map Prod.fst =
      (sendingInput lib auth.mECDHSecretKey remotePublic localNonce remoteNonce role).map
        lib.sessionKey := by
  unfold PeerAuth.getSendingMacKey sendingInput
  rw [expandShared_fst sound, Option.map_map]
  rfl

variable (remotePublic localNonce remoteNonce role) in
theorem getReceivingMacKey_fst (sound : auth.CacheSound lib) :
    (auth.getReceivingMacKey lib remotePublic localNonce remoteNonce role).map Prod.fst =
      (receivingInput lib auth.mECDHSecretKey remotePublic localNonce remoteNonce role).map
        lib.sessionKey := by
  unfold PeerAuth.getReceivingMacKey receivingInput
  rw [expandShared_fst sound, Option.map_map]
  rfl

theorem sendingInput_eq_receivingInput (commutes : Commutes lib) (a b : Secret)
    (localNonce remoteNonce : Uint256) (role : PeerRole) :
    sendingInput lib a (lib.EcdhDerivePublic b) localNonce remoteNonce role =
      receivingInput lib b (lib.EcdhDerivePublic a) remoteNonce localNonce role.other := by
  unfold sendingInput receivingInput material
  rw [commutes a b]
  cases role with
  | REMOTE_CALLED_US => rfl
  | WE_CALLED_REMOTE => rfl

/-! ### Keys that are the same were derived from the same -/

theorem Uint256.append_injective {x x' : Uint256} {rest rest' : List UInt8}
    (same : x.bytes ++ rest = x'.bytes ++ rest') : x = x' ∧ rest = rest' := by
  obtain ⟨bytes, size⟩ := x
  obtain ⟨bytes', size'⟩ := x'
  obtain ⟨equal, rests⟩ := List.append_inj same (size.trans size'.symm)
  have bytesEqual : bytes = bytes' := equal
  subst bytesEqual
  exact ⟨rfl, rests⟩

theorem Uint256.pair_injective {x y x' y' : Uint256}
    (same : x.bytes ++ y.bytes = x'.bytes ++ y'.bytes) : x = x' ∧ y = y' := by
  obtain ⟨first, second⟩ := Uint256.append_injective same
  refine ⟨first, ?_⟩
  rw [← List.append_nil y.bytes, ← List.append_nil y'.bytes] at second
  exact (Uint256.append_injective second).1

theorem sharedInput_injective {q A B q' A' B' : Uint256}
    (same : Primitives.sharedInput q A B = Primitives.sharedInput q' A' B') : A = A' ∧ B = B' := by
  unfold Primitives.sharedInput at same
  rw [List.append_assoc, List.append_assoc] at same
  exact Uint256.pair_injective (Uint256.append_injective same).2

theorem receivingBuffer_eq : PeerAuth.receivingBuffer localNonce remoteNonce role =
    PeerAuth.sendingBuffer remoteNonce localNonce role.other := by
  cases role with
  | REMOTE_CALLED_US => rfl
  | WE_CALLED_REMOTE => rfl

theorem sendingBuffer_injective
    (same : PeerAuth.sendingBuffer localNonce remoteNonce role =
      PeerAuth.sendingBuffer localNonce' remoteNonce' role') :
    role = role' ∧ localNonce = localNonce' ∧ remoteNonce = remoteNonce' := by
  have roles : role = role' := by
    cases role with
    | REMOTE_CALLED_US =>
        cases role' with
        | REMOTE_CALLED_US => rfl
        | WE_CALLED_REMOTE => cases (List.cons.inj same).1
    | WE_CALLED_REMOTE =>
        cases role' with
        | REMOTE_CALLED_US => cases (List.cons.inj same).1
        | WE_CALLED_REMOTE => rfl
  subst roles
  refine ⟨rfl, ?_⟩
  cases role with
  | REMOTE_CALLED_US => exact Uint256.pair_injective (List.cons.inj same).2
  | WE_CALLED_REMOTE => exact Uint256.pair_injective (List.cons.inj same).2

theorem sendingInput_injective
    (first : sendingInput lib a remotePublic localNonce remoteNonce role = some input)
    (second : sendingInput lib b remotePublic' localNonce' remoteNonce' role' = some input) :
    localNonce = localNonce' := by
  obtain ⟨bytes, _, is⟩ := Option.map_eq_some_iff.mp first
  obtain ⟨bytes', _, is'⟩ := Option.map_eq_some_iff.mp second
  have same := congrArg KeyInput.buffer (is.trans is'.symm)
  exact (sendingBuffer_injective same).2.1

/-- Who sends under what is received under has the nonces and the keys of the session. -/
theorem sides_of_input
    (received : receivingInput lib a remotePublic localNonce remoteNonce role = some input)
    (sent : sendingInput lib b remotePublic' localNonce' remoteNonce' role' = some input) :
    role' = role.other ∧ remoteNonce = localNonce' ∧ localNonce = remoteNonce' ∧
      remotePublic = lib.EcdhDerivePublic b ∧ remotePublic' = lib.EcdhDerivePublic a := by
  obtain ⟨bytes, derived, is⟩ := Option.map_eq_some_iff.mp received
  obtain ⟨bytes', derived', is'⟩ := Option.map_eq_some_iff.mp sent
  have buffers := congrArg KeyInput.buffer (is.trans is'.symm)
  have materials : bytes = bytes' := congrArg KeyInput.material (is.trans is'.symm)
  simp only [receivingBuffer_eq] at buffers
  obtain ⟨roles, remotes, locals⟩ := sendingBuffer_injective buffers
  obtain ⟨q, _, ofQ⟩ := Option.map_eq_some_iff.mp derived
  obtain ⟨q', _, ofQ'⟩ := Option.map_eq_some_iff.mp derived'
  rw [← ofQ, ← ofQ'] at materials
  obtain ⟨first, second⟩ := sharedInput_injective materials
  refine ⟨roles.symm, remotes, locals, ?_⟩
  subst roles
  cases role with
  | REMOTE_CALLED_US => exact ⟨first, second.symm⟩
  | WE_CALLED_REMOTE => exact ⟨second, first.symm⟩

end ViiCore.Overlay
