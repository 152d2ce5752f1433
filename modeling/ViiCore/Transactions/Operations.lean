import Mathlib.Data.List.Sort
import ViiCore.Transactions.ManageOffer
import ViiCore.Transactions.Payments

/-!
The remaining operations from protocol version 8 on (`CreateAccountOpFrame.cpp`,
`SetOptionsOpFrame.cpp`, `ChangeTrustOpFrame.cpp`, `AllowTrustOpFrame.cpp`,
`MergeOpFrame.cpp`, `InflationOpFrame.cpp`, `ManageDataOpFrame.cpp`,
`BumpSequenceOpFrame.cpp`) and the dispatch over the operation types.
-/

namespace ViiCore.Transactions

open ViiCore.Ledger

def addSubEntry (accountID : AccountID) (lowReserve : OperationFailure) :
    Apply (Except OperationFailure Unit) := do
  match ← addNumEntriesOf accountID 1 with
  | .SUCCESS => return .ok ()
  | .LOW_RESERVE => return .error lowReserve
  | .TOO_MANY_SUBENTRIES => return .error .opTOO_MANY_SUBENTRIES

/-! ### Create account -/

namespace CreateAccountOp

variable (op : CreateAccountOp) (sourceID : AccountID)

def doCheckValid : Except OperationFailure Unit :=
  if op.startingBalance ≤ 0 then throw (.createAccount .MALFORMED)
  else if op.destination = sourceID then throw (.createAccount .MALFORMED)
  else return ()

def newAccount (header : LedgerHeader) : AccountEntry :=
  { balance := op.startingBalance
    seqNum := toSigned64 (getStartingSequenceNumber header)
    numSubEntries := 0
    inflationDest := none
    flags := 0
    homeDomain := []
    thresholds := { masterWeight := 1, low := 0, med := 0, high := 0 }
    signers := []
    ext := none }

def doApply : Apply OperationResult := do
  match ← accountTable.load op.destination with
  | some _ => return .error (.createAccount .ALREADY_EXIST)
  | none =>
      let header ← loadHeader
      if op.startingBalance < getMinBalance header 0 then
        return .error (.createAccount .LOW_RESERVE)
      else
        let source ← accountTable.current sourceID
        if (← computed (getAvailableBalanceOfAccount header source)) < op.startingBalance then
          return .error (.createAccount .UNDERFUNDED)
        else
          let ok ← addBalance sourceID .native (-op.startingBalance)
          computed (assertThat ok "ok")
          accountTable.create op.destination (op.newAccount header)
          return .ok .createAccount

end CreateAccountOp

/-! ### Set options -/

def MAX_SIGNERS : Nat := 20

def allAccountFlags : BitVec 32 :=
  AUTH_REQUIRED_FLAG ||| AUTH_REVOCABLE_FLAG ||| AUTH_IMMUTABLE_FLAG

/-- Signer keys are ordered by their type and then by their bytes. -/
def SignerKey.rank : SignerKey → Nat × Nat
  | .ed25519 key => (0, key.toNat)
  | .preAuthTx hash => (1, hash.toNat)
  | .hashX hash => (2, hash.toNat)

def normalizeSigners (account : AccountEntry) : AccountEntry :=
  { account with signers := account.signers.insertionSort fun left right =>
      let leftRank := SignerKey.rank left.key
      let rightRank := SignerKey.rank right.key
      leftRank.1 < rightRank.1 ∨ (leftRank.1 = rightRank.1 ∧ leftRank.2 ≤ rightRank.2) }

namespace SetOptionsOp

variable (op : SetOptionsOp) (sourceID : AccountID)

def outOfRange (threshold : Option Nat) : Bool := threshold.any fun value => value > UINT8_MAX

def unknownFlags (flags : Option (BitVec 32)) : Bool :=
  flags.any fun value => value &&& ~~~allAccountFlags != 0

def badSigner (ledgerVersion : Nat) (signer : Signer) : Bool :=
  let isSelf := signer.key = .ed25519 sourceID
  isSelf ∨ (signer.weight > UINT8_MAX ∧ ledgerVersion > 9)

def doCheckValid (ledgerVersion : Nat) : Except OperationFailure Unit :=
  if unknownFlags op.setFlags then throw (.setOptions .UNKNOWN_FLAG)
  else if unknownFlags op.clearFlags then throw (.setOptions .UNKNOWN_FLAG)
  else if op.setFlags.any fun set => op.clearFlags.any fun clear => set &&& clear != 0 then
    throw (.setOptions .BAD_FLAGS)
  else if outOfRange op.masterWeight ∨ outOfRange op.lowThreshold ∨ outOfRange op.medThreshold ∨
      outOfRange op.highThreshold then
    throw (.setOptions .THRESHOLD_OUT_OF_RANGE)
  else if op.signer.any (badSigner sourceID ledgerVersion) then throw (.setOptions .BAD_SIGNER)
  else if op.homeDomain.any fun domain => ¬ isString32Valid domain then
    throw (.setOptions .INVALID_HOME_DOMAIN)
  else return ()

def editSource (edit : AccountEntry → Except OperationFailure AccountEntry) :
    Apply (Except OperationFailure Unit) := do
  let account ← accountTable.current sourceID
  match edit account with
  | .error code => return .error code
  | .ok updated =>
      accountTable.store sourceID updated
      return .ok ()

def setInflationDest : Apply (Except OperationFailure Unit) :=
  match op.inflationDest with
  | none => return .ok ()
  | some inflationID => do
      if inflationID ≠ sourceID ∧ (← accountTable.load inflationID).isNone then
        return .error (.setOptions .INVALID_INFLATION)
      else
        editSource sourceID fun account => return { account with inflationDest := some inflationID }

def changeFlags (change : Option (BitVec 32)) (combine : BitVec 32 → BitVec 32 → BitVec 32)
    (account : AccountEntry) : Except OperationFailure AccountEntry :=
  match change with
  | none => return account
  | some flags =>
      if hasFlag flags allAccountFlags ∧ isImmutableAuth account then
        throw (.setOptions .CANT_CHANGE)
      else
        return { account with flags := combine account.flags flags }

def weight (given : Option Nat) (old : Nat) : Nat := (given.map (· % 256)).getD old

def setDomainAndThresholds (account : AccountEntry) : AccountEntry :=
  { account with
    homeDomain := op.homeDomain.getD account.homeDomain
    thresholds :=
      { masterWeight := weight op.masterWeight account.thresholds.masterWeight
        low := weight op.lowThreshold account.thresholds.low
        med := weight op.medThreshold account.thresholds.med
        high := weight op.highThreshold account.thresholds.high } }

def addSigner (signer : Signer) : Apply (Except OperationFailure Unit) := do
  let account ← accountTable.current sourceID
  if account.signers.any fun old => old.key = signer.key then
    accountTable.store sourceID
      { account with signers := account.signers.map fun old =>
          if old.key = signer.key then { old with weight := signer.weight } else old }
    return .ok ()
  else if account.signers.length = MAX_SIGNERS then
    return .error (.setOptions .TOO_MANY_SIGNERS)
  else
    andThen (addSubEntry sourceID (.setOptions .LOW_RESERVE)) fun _ =>
      editSource sourceID fun account => return { account with signers := account.signers ++ [signer] }

def removeSigners (header : LedgerHeader) (key : SignerKey) (account : AccountEntry) :
    Except Fault AccountEntry := do
  let removed := account.signers.filter fun old => old.key = key
  let updated ← removed.foldlM
    (fun account _ => return (← addNumEntries header account (-1)).2) account
  return { updated with signers := account.signers.filter fun old => old.key ≠ key }

def removeSigner (key : SignerKey) : Apply (Except OperationFailure Unit) := do
  let header ← loadHeader
  let account ← accountTable.current sourceID
  let updated ← computed (removeSigners header key account)
  accountTable.store sourceID updated
  return .ok ()

def changeSigner : Apply (Except OperationFailure Unit) :=
  match op.signer with
  | none => return .ok ()
  | some signer =>
      andThen
        (if signer.weight ≠ 0 then addSigner sourceID signer else removeSigner sourceID signer.key)
        fun _ => editSource sourceID fun account => return normalizeSigners account

def doApply : Apply OperationResult :=
  andThen (op.setInflationDest sourceID) fun _ =>
  andThen (editSource sourceID
    (changeFlags op.clearFlags fun flags clear => flags &&& ~~~clear)) fun _ =>
  andThen (editSource sourceID (changeFlags op.setFlags fun flags set => flags ||| set)) fun _ =>
  andThen (editSource sourceID fun account => return op.setDomainAndThresholds account) fun _ =>
  andThen (op.changeSigner sourceID) fun _ =>
    return .ok .setOptions

end SetOptionsOp

/-! ### Trust lines -/

namespace ChangeTrustOp

variable (op : ChangeTrustOp) (sourceID : AccountID)

def doCheckValid (ledgerVersion : Nat) : Except OperationFailure Unit :=
  if op.limit < 0 then throw (.changeTrust .MALFORMED)
  else if ¬ isAssetValid op.line then throw (.changeTrust .MALFORMED)
  else if ledgerVersion > 9 ∧ op.line = .native then throw (.changeTrust .MALFORMED)
  else return ()

def key : TrustLineKey := ⟨sourceID, op.line⟩

def changeLine (issuerID : AccountID) (line : TrustLineEntry) : Apply OperationResult := do
  let header ← loadHeader
  if op.limit < (← computed (getMinimumLimit header line)) then
    return .error (.changeTrust .INVALID_LIMIT)
  else if op.limit = 0 then
    trustLineTable.erase (op.key sourceID)
    let _ ← addNumEntriesOf sourceID (-1)
    return .ok .changeTrust
  else if (← accountTable.load issuerID).isNone then
    return .error (.changeTrust .NO_ISSUER)
  else
    trustLineTable.store (op.key sourceID) { line with limit := op.limit }
    return .ok .changeTrust

def createLine (issuerID : AccountID) : Apply OperationResult := do
  if op.limit = 0 then return .error (.changeTrust .INVALID_LIMIT)
  else
    match ← accountTable.load issuerID with
    | none => return .error (.changeTrust .NO_ISSUER)
    | some issuer =>
        andThen (addSubEntry sourceID (.changeTrust .LOW_RESERVE)) fun _ => do
          trustLineTable.create (op.key sourceID)
            { balance := 0, limit := op.limit,
              flags := if isAuthRequired issuer then 0 else AUTHORIZED_FLAG, ext := none }
          return .ok .changeTrust

def doApply : Apply OperationResult := do
  let issuerID ← computed (getIssuer op.line)
  if issuerID = sourceID then return .error (.changeTrust .SELF_NOT_ALLOWED)
  else
    match ← trustLineTable.load (op.key sourceID) with
    | some line => op.changeLine sourceID issuerID line
    | none => op.createLine sourceID issuerID

end ChangeTrustOp

namespace AllowTrustOp

variable (op : AllowTrustOp) (sourceID : AccountID)

/-- The asset named by the code, issued by the source account. -/
def ci : Asset :=
  match op.asset with
  | .native => .native
  | .assetCode4 code => .alphaNum4 code sourceID
  | .assetCode12 code => .alphaNum12 code sourceID

def doCheckValid : Except OperationFailure Unit :=
  if op.ci sourceID = .native then throw (.allowTrust .MALFORMED)
  else if ¬ isAssetValid (op.ci sourceID) then throw (.allowTrust .MALFORMED)
  else return ()

def key : TrustLineKey := ⟨op.trustor, op.ci sourceID⟩

def checkSource : Apply (Except OperationFailure Unit) := do
  let source ← accountTable.current sourceID
  if ¬ hasFlag source.flags AUTH_REQUIRED_FLAG then
    return .error (.allowTrust .TRUST_NOT_REQUIRED)
  else if ¬ hasFlag source.flags AUTH_REVOCABLE_FLAG ∧ ¬ op.authorize then
    return .error (.allowTrust .CANT_REVOKE)
  else
    return .ok ()

def removeOffer (offer : OfferKey × OfferEntry) : Apply Unit :=
  if offer.1.sellerID ≠ op.trustor then
    throw (.runtimeError "Offer not owned by expected account")
  else if offer.2.buying ≠ op.ci sourceID ∧ offer.2.selling ≠ op.ci sourceID then
    throw (.runtimeError "Offer not buying or selling expected asset")
  else do
    releaseLiabilities op.trustor offer.2
    let _ ← addNumEntriesOf op.trustor (-1)
    offerTable.erase offer.1

def removeOffers (line : TrustLineEntry) : Apply Unit := do
  let header ← loadHeader
  if header.ledgerVersion ≥ 10 ∧ isAuthorized line ∧ ¬ op.authorize then
    let offers ← loadOffersByAccountAndAsset op.trustor (op.ci sourceID)
    offers.forM (op.removeOffer sourceID)
  else
    return ()

def authorizeLine : Apply OperationResult := do
  let line ← trustLineTable.current (op.key sourceID)
  trustLineTable.store (op.key sourceID) (setAuthorized line op.authorize)
  return .ok .allowTrust

def doApply : Apply OperationResult :=
  if op.trustor = sourceID then return .error (.allowTrust .SELF_NOT_ALLOWED)
  else
    andThen (op.checkSource sourceID) fun _ => do
      match ← trustLineTable.load (op.key sourceID) with
      | none => return .error (.allowTrust .NO_TRUST_LINE)
      | some line =>
          op.removeOffers sourceID line
          op.authorizeLine sourceID

end AllowTrustOp

/-! ### Merge, inflation, data and sequence numbers -/

namespace AccountMerge

variable (sourceID destination : AccountID)

def doCheckValid : Except OperationFailure Unit :=
  if sourceID = destination then throw (.accountMerge .MALFORMED) else return ()

def doApply : Apply OperationResult := do
  let header ← loadHeader
  match ← accountTable.load destination with
  | none => return .error (.accountMerge .NO_ACCOUNT)
  | some _ =>
      let source ← accountTable.current sourceID
      if isImmutableAuth source then return .error (.accountMerge .IMMUTABLE_SET)
      else if source.numSubEntries ≠ source.signers.length then
        return .error (.accountMerge .HAS_SUB_ENTRIES)
      else if header.ledgerVersion ≥ 10 ∧
          source.seqNum ≥ toSigned64 (getStartingSequenceNumber header) then
        return .error (.accountMerge .SEQNUM_TOO_FAR)
      else if ← addBalance destination .native source.balance then
        accountTable.erase sourceID
        return .ok (.accountMerge source.balance)
      else
        return .error (.accountMerge .DEST_FULL)

end AccountMerge

namespace ManageDataOp

variable (op : ManageDataOp) (sourceID : AccountID)

def doCheckValid : Except OperationFailure Unit :=
  if op.dataName.length < 1 ∨ ¬ isString32Valid op.dataName then
    throw (.manageData .INVALID_NAME)
  else return ()

def key : DataKey := ⟨sourceID, op.dataName⟩

def doApply : Apply OperationResult := do
  let data ← dataTable.load (op.key sourceID)
  match op.dataValue with
  | some value =>
      if data.isNone then
        andThen (addSubEntry sourceID (.manageData .LOW_RESERVE)) fun _ => do
          dataTable.create (op.key sourceID) value
          return .ok .manageData
      else
        dataTable.store (op.key sourceID) value
        return .ok .manageData
  | none =>
      if data.isNone then return .error (.manageData .NAME_NOT_FOUND)
      else
        dataTable.erase (op.key sourceID)
        let _ ← addNumEntriesOf sourceID (-1)
        return .ok .manageData

end ManageDataOp

namespace BumpSequence

variable (sourceID : AccountID) (bumpTo : SequenceNumber)

def doCheckValid : Except OperationFailure Unit :=
  if bumpTo < 0 then throw (.bumpSequence .BAD_SEQ) else return ()

def doApply : Apply OperationResult := do
  let source ← accountTable.current sourceID
  if bumpTo > source.seqNum then
    accountTable.store sourceID { source with seqNum := bumpTo }
    return .ok .bumpSequence
  else
    return .ok .bumpSequence

end BumpSequence

/-- The inflation operation returns before it does anything. -/
def applyInflation : Apply OperationResult := return .ok .inflation

/-! ### Dispatch -/

namespace OperationBody

variable (body : OperationBody) (sourceID : AccountID) (book : OrderBook)

def isVersionSupported (protocolVersion : Nat) : Bool :=
  match body with
  | .BUMP_SEQUENCE _ => protocolVersion ≥ 10
  | .MANAGE_BUY_OFFER _ => protocolVersion ≥ 11
  | _ => true

def doCheckValid (ledgerVersion : Nat) : Except OperationFailure Unit :=
  match body with
  | .CREATE_ACCOUNT op => op.doCheckValid sourceID
  | .PAYMENT op => op.doCheckValid
  | .PATH_PAYMENT op => op.doCheckValid
  | .MANAGE_SELL_OFFER op => (manageSellOfferFrame sourceID op false).doCheckValid ledgerVersion
  | .CREATE_PASSIVE_SELL_OFFER op =>
      (createPassiveSellOfferFrame sourceID op).doCheckValid ledgerVersion
  | .SET_OPTIONS op => op.doCheckValid sourceID ledgerVersion
  | .CHANGE_TRUST op => op.doCheckValid ledgerVersion
  | .ALLOW_TRUST op => op.doCheckValid sourceID
  | .ACCOUNT_MERGE destination => AccountMerge.doCheckValid sourceID destination
  | .INFLATION => return ()
  | .MANAGE_DATA op => op.doCheckValid
  | .BUMP_SEQUENCE bumpTo => BumpSequence.doCheckValid bumpTo
  | .MANAGE_BUY_OFFER op => (manageBuyOfferFrame sourceID op).doCheckValid ledgerVersion

def doApply : Apply OperationResult :=
  match body with
  | .CREATE_ACCOUNT op => op.doApply sourceID
  | .PAYMENT op => op.doApply sourceID book
  | .PATH_PAYMENT op => do
      match ← op.doApply sourceID book with
      | .ok success => return .ok (.pathPayment success)
      | .error code => return .error code
  | .MANAGE_SELL_OFFER op => (manageSellOfferFrame sourceID op false).doApply book
  | .CREATE_PASSIVE_SELL_OFFER op => (createPassiveSellOfferFrame sourceID op).doApply book
  | .SET_OPTIONS op => op.doApply sourceID
  | .CHANGE_TRUST op => op.doApply sourceID
  | .ALLOW_TRUST op => op.doApply sourceID
  | .ACCOUNT_MERGE destination => AccountMerge.doApply sourceID destination
  | .INFLATION => applyInflation
  | .MANAGE_DATA op => op.doApply sourceID
  | .BUMP_SEQUENCE bumpTo => BumpSequence.doApply sourceID bumpTo
  | .MANAGE_BUY_OFFER op => (manageBuyOfferFrame sourceID op).doApply book

end OperationBody

end ViiCore.Transactions
