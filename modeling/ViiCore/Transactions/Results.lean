import ViiCore.Transactions.OfferExchange

/-!
Operations and their results (`vii-transaction.x`).

A result of an operation is its success value or its failure code; the failure codes of
the offer operations are shared, as the two unions of the source differ by their prefix only.
-/

namespace ViiCore.Transactions

open ViiCore.Ledger

structure CreateAccountOp where
  destination : AccountID
  startingBalance : Int
  deriving DecidableEq

structure PaymentOp where
  destination : AccountID
  asset : Asset
  amount : Int
  deriving DecidableEq

structure PathPaymentOp where
  sendAsset : Asset
  sendMax : Int
  destination : AccountID
  destAsset : Asset
  destAmount : Int
  path : List Asset
  deriving DecidableEq

structure ManageSellOfferOp where
  selling : Asset
  buying : Asset
  amount : Int
  price : Price
  offerID : Int
  deriving DecidableEq

structure ManageBuyOfferOp where
  selling : Asset
  buying : Asset
  buyAmount : Int
  price : Price
  offerID : Int
  deriving DecidableEq

structure CreatePassiveSellOfferOp where
  selling : Asset
  buying : Asset
  amount : Int
  price : Price
  deriving DecidableEq

structure SetOptionsOp where
  inflationDest : Option AccountID
  clearFlags : Option (BitVec 32)
  setFlags : Option (BitVec 32)
  masterWeight : Option Nat
  lowThreshold : Option Nat
  medThreshold : Option Nat
  highThreshold : Option Nat
  homeDomain : Option (List UInt8)
  signer : Option Signer
  deriving DecidableEq

structure ChangeTrustOp where
  line : Asset
  limit : Int
  deriving DecidableEq

/-- The asset code of an allow-trust operation; its issuer is the source account. -/
inductive AllowTrustAsset where
  | native
  | assetCode4 (code : Vector UInt8 4)
  | assetCode12 (code : Vector UInt8 12)
  deriving DecidableEq

structure AllowTrustOp where
  trustor : AccountID
  asset : AllowTrustAsset
  authorize : Bool
  deriving DecidableEq

structure ManageDataOp where
  dataName : List UInt8
  dataValue : Option (List UInt8)
  deriving DecidableEq

inductive OperationBody where
  | CREATE_ACCOUNT (op : CreateAccountOp)
  | PAYMENT (op : PaymentOp)
  | PATH_PAYMENT (op : PathPaymentOp)
  | MANAGE_SELL_OFFER (op : ManageSellOfferOp)
  | CREATE_PASSIVE_SELL_OFFER (op : CreatePassiveSellOfferOp)
  | SET_OPTIONS (op : SetOptionsOp)
  | CHANGE_TRUST (op : ChangeTrustOp)
  | ALLOW_TRUST (op : AllowTrustOp)
  | ACCOUNT_MERGE (destination : AccountID)
  | INFLATION
  | MANAGE_DATA (op : ManageDataOp)
  | BUMP_SEQUENCE (bumpTo : SequenceNumber)
  | MANAGE_BUY_OFFER (op : ManageBuyOfferOp)
  deriving DecidableEq

structure Operation where
  sourceAccount : Option AccountID
  body : OperationBody
  deriving DecidableEq

inductive CreateAccountResultCode where
  | MALFORMED
  | UNDERFUNDED
  | LOW_RESERVE
  | ALREADY_EXIST
  deriving DecidableEq

inductive PaymentResultCode where
  | MALFORMED
  | UNDERFUNDED
  | SRC_NO_TRUST
  | SRC_NOT_AUTHORIZED
  | NO_DESTINATION
  | NO_TRUST
  | NOT_AUTHORIZED
  | LINE_FULL
  | NO_ISSUER
  deriving DecidableEq

inductive PathPaymentResultCode where
  | MALFORMED
  | UNDERFUNDED
  | SRC_NO_TRUST
  | SRC_NOT_AUTHORIZED
  | NO_DESTINATION
  | NO_TRUST
  | NOT_AUTHORIZED
  | LINE_FULL
  | NO_ISSUER (noIssuer : Asset)
  | TOO_FEW_OFFERS
  | OFFER_CROSS_SELF
  | OVER_SENDMAX
  deriving DecidableEq

inductive ManageOfferResultCode where
  | MALFORMED
  | SELL_NO_TRUST
  | BUY_NO_TRUST
  | SELL_NOT_AUTHORIZED
  | BUY_NOT_AUTHORIZED
  | LINE_FULL
  | UNDERFUNDED
  | CROSS_SELF
  | SELL_NO_ISSUER
  | BUY_NO_ISSUER
  | NOT_FOUND
  | LOW_RESERVE
  deriving DecidableEq

inductive SetOptionsResultCode where
  | LOW_RESERVE
  | TOO_MANY_SIGNERS
  | BAD_FLAGS
  | INVALID_INFLATION
  | CANT_CHANGE
  | UNKNOWN_FLAG
  | THRESHOLD_OUT_OF_RANGE
  | BAD_SIGNER
  | INVALID_HOME_DOMAIN
  deriving DecidableEq

inductive ChangeTrustResultCode where
  | MALFORMED
  | NO_ISSUER
  | INVALID_LIMIT
  | LOW_RESERVE
  | SELF_NOT_ALLOWED
  deriving DecidableEq

inductive AllowTrustResultCode where
  | MALFORMED
  | NO_TRUST_LINE
  | TRUST_NOT_REQUIRED
  | CANT_REVOKE
  | SELF_NOT_ALLOWED
  deriving DecidableEq

inductive AccountMergeResultCode where
  | MALFORMED
  | NO_ACCOUNT
  | IMMUTABLE_SET
  | HAS_SUB_ENTRIES
  | SEQNUM_TOO_FAR
  | DEST_FULL
  deriving DecidableEq

inductive ManageDataResultCode where
  | NOT_SUPPORTED_YET
  | NAME_NOT_FOUND
  | LOW_RESERVE
  | INVALID_NAME
  deriving DecidableEq

inductive BumpSequenceResultCode where
  | BAD_SEQ
  deriving DecidableEq

inductive OperationFailure where
  | opBAD_AUTH
  | opNO_ACCOUNT
  | opNOT_SUPPORTED
  | opTOO_MANY_SUBENTRIES
  | opEXCEEDED_WORK_LIMIT
  | createAccount (code : CreateAccountResultCode)
  | payment (code : PaymentResultCode)
  | pathPayment (code : PathPaymentResultCode)
  | manageSellOffer (code : ManageOfferResultCode)
  | setOptions (code : SetOptionsResultCode)
  | changeTrust (code : ChangeTrustResultCode)
  | allowTrust (code : AllowTrustResultCode)
  | accountMerge (code : AccountMergeResultCode)
  | manageData (code : ManageDataResultCode)
  | bumpSequence (code : BumpSequenceResultCode)
  | manageBuyOffer (code : ManageOfferResultCode)
  deriving DecidableEq

structure SimplePaymentResult where
  destination : AccountID
  asset : Asset
  amount : Int

/-- `sent` is what the source is charged in its asset, `curBSent` in the source; the union
of the source does not carry it. -/
structure PathPaymentSuccess where
  offers : List ClaimOfferAtom
  last : SimplePaymentResult
  sent : Int

inductive ManageOfferEffect where
  | CREATED (key : OfferKey) (offer : OfferEntry)
  | UPDATED (key : OfferKey) (offer : OfferEntry)
  | DELETED

structure ManageOfferSuccessResult where
  offersClaimed : List ClaimOfferAtom
  effect : ManageOfferEffect

inductive OperationSuccess where
  | createAccount
  | payment
  | pathPayment (success : PathPaymentSuccess)
  | manageOffer (success : ManageOfferSuccessResult)
  | setOptions
  | changeTrust
  | allowTrust
  | accountMerge (sourceAccountBalance : Int)
  | inflation
  | manageData
  | bumpSequence

abbrev OperationResult := Except OperationFailure OperationSuccess

/-- A nested `LedgerTxn` committed on success only. -/
def nested {α : Type} (body : Apply (Except OperationFailure α)) :
    Apply (Except OperationFailure α) := do
  let before ← get
  match ← body with
  | .ok value => return .ok value
  | .error code =>
      set before
      return .error code

def andThen {α β : Type} (step : Apply (Except OperationFailure α))
    (next : α → Apply (Except OperationFailure β)) : Apply (Except OperationFailure β) := do
  match ← step with
  | .ok value => next value
  | .error code => return .error code

/-! ### Validity of the data an operation carries -/

def isAlnum (byte : UInt8) : Bool :=
  (48 ≤ byte.toNat ∧ byte.toNat ≤ 57) ∨ (65 ≤ byte.toNat ∧ byte.toNat ≤ 90) ∨
    (97 ≤ byte.toNat ∧ byte.toNat ≤ 122)

/-- Characters of a zero-padded code: `none` where a character is not alphanumeric or
follows a zero. -/
def countCodeCharacters (code : List UInt8) : Option Nat :=
  let characters := code.takeWhile (· ≠ 0)
  if (code.drop characters.length).all (· = 0) ∧ characters.all isAlnum then
    some characters.length
  else
    none

def isAssetValid : Asset → Bool
  | .native => true
  | .alphaNum4 code _ => (countCodeCharacters code.toList).any fun count => 0 < count
  | .alphaNum12 code _ => (countCodeCharacters code.toList).any fun count => 4 < count

def compareAsset (first second : Asset) : Bool := first = second

def isString32Valid (text : List UInt8) : Bool :=
  text.all fun byte => 32 ≤ byte.toNat ∧ byte.toNat < 127

end ViiCore.Transactions
