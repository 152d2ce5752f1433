import ViiCore.Transactions.SignatureChecker

/-!
Applying a transaction (`OperationFrame.cpp`, `TransactionFrame.cpp`) from protocol version
8 on. The hash of a transaction is a parameter; memo, metrics and the meta data written for
history are left out.
-/

namespace ViiCore.Transactions

open ViiCore.Ledger

structure TimeBounds where
  minTime : Nat
  maxTime : Nat
  deriving DecidableEq

structure Transaction where
  sourceAccount : AccountID
  fee : Nat
  seqNum : SequenceNumber
  timeBounds : Option TimeBounds
  operations : List Operation
  deriving DecidableEq

structure TransactionEnvelope where
  tx : Transaction
  signatures : List DecoratedSignature
  deriving DecidableEq

structure Environment where
  crypto : Crypto
  contentsHash : Transaction → Uint256
  book : OrderBook

inductive TransactionResultCode where
  | txSUCCESS
  | txFAILED
  | txTOO_EARLY
  | txTOO_LATE
  | txMISSING_OPERATION
  | txBAD_SEQ
  | txBAD_AUTH
  | txINSUFFICIENT_BALANCE
  | txNO_ACCOUNT
  | txINSUFFICIENT_FEE
  | txBAD_AUTH_EXTRA
  | txINTERNAL_ERROR
  deriving DecidableEq

/-- Ordered as in the source: a later case has passed the checks of the earlier ones. -/
inductive ValidationType where
  | kInvalid
  | kInvalidUpdateSeqNum
  | kInvalidPostAuth
  | kFullyValid
  deriving DecidableEq

def ValidationType.rank : ValidationType → Nat
  | .kInvalid => 0
  | .kInvalidUpdateSeqNum => 1
  | .kInvalidPostAuth => 2
  | .kFullyValid => 3

inductive ThresholdLevel where
  | LOW
  | MEDIUM
  | HIGH
  deriving DecidableEq

/-! ### Operations inside a transaction -/

def OperationBody.getThresholdLevel : OperationBody → ThresholdLevel
  | .ALLOW_TRUST _ => .LOW
  | .INFLATION => .LOW
  | .BUMP_SEQUENCE _ => .LOW
  | .ACCOUNT_MERGE _ => .HIGH
  | .SET_OPTIONS op =>
      if op.masterWeight.isSome ∨ op.lowThreshold.isSome ∨ op.medThreshold.isSome ∨
          op.highThreshold.isSome ∨ op.signer.isSome then .HIGH
      else .MEDIUM
  | _ => .MEDIUM

def getNeededThreshold (account : AccountEntry) : ThresholdLevel → Int
  | .LOW => account.thresholds.low
  | .MEDIUM => account.thresholds.med
  | .HIGH => account.thresholds.high

variable (env : Environment) (envelope : TransactionEnvelope)

def checkAccountSignature (checker : SignatureChecker) (accountID : AccountID)
    (account : AccountEntry) (neededWeight : Int) : SignatureChecker × Bool :=
  let master := if account.thresholds.masterWeight ≠ 0 then
      [{ key := .ed25519 accountID, weight := account.thresholds.masterWeight : Signer }]
    else []
  checker.checkSignature env.crypto accountID (master ++ account.signers) neededWeight

def checkSignatureNoAccount (checker : SignatureChecker) (accountID : AccountID) :
    SignatureChecker × Bool :=
  checker.checkSignature env.crypto accountID [{ key := .ed25519 accountID, weight := 1 }] 0

namespace Operation

variable (op : Operation)

def getSourceID : AccountID := op.sourceAccount.getD envelope.tx.sourceAccount

def checkSignature (checker : SignatureChecker) (forApply : Bool) :
    Apply (SignatureChecker × Except OperationFailure Unit) := do
  match ← accountTable.load (op.getSourceID envelope) with
  | some source =>
      let (checker, ok) := checkAccountSignature env checker (op.getSourceID envelope) source
        (getNeededThreshold source op.body.getThresholdLevel)
      return (checker, if ok then .ok () else .error .opBAD_AUTH)
  | none =>
      match op.sourceAccount with
      | none => return (checker, .error .opNO_ACCOUNT)
      | some sourceID =>
          if forApply then return (checker, .error .opNO_ACCOUNT)
          else
            let (checker, ok) := checkSignatureNoAccount env checker sourceID
            return (checker, if ok then .ok () else .error .opBAD_AUTH)

/-- The source account must exist, and before version 10 its signature is checked here. -/
def checkSource (checker : SignatureChecker) (forApply : Bool) :
    Apply (SignatureChecker × Except OperationFailure Unit) := do
  let header ← loadHeader
  if ¬ forApply ∨ header.ledgerVersion < 10 then
    op.checkSignature env envelope checker forApply
  else if (← accountTable.load (op.getSourceID envelope)).isNone then
    return (checker, .error .opNO_ACCOUNT)
  else
    return (checker, .ok ())

def checkValid (checker : SignatureChecker) (forApply : Bool) :
    Apply (SignatureChecker × Except OperationFailure Unit) :=
  rolledBack do
    let header ← loadHeader
    if ¬ op.body.isVersionSupported header.ledgerVersion then
      return (checker, .error .opNOT_SUPPORTED)
    else
      match ← op.checkSource env envelope checker forApply with
      | (checker, .error code) => return (checker, .error code)
      | (checker, .ok _) =>
          return (checker, op.body.doCheckValid (op.getSourceID envelope) header.ledgerVersion)

def apply (checker : SignatureChecker) : Apply (SignatureChecker × OperationResult) := do
  match ← op.checkValid env envelope checker true with
  | (checker, .error code) => return (checker, .error code)
  | (checker, .ok _) =>
      return (checker, ← op.body.doApply (op.getSourceID envelope) env.book)

end Operation

/-! ### Checks on the transaction itself -/

def getMinFee (header : LedgerHeader) : Int :=
  (header.baseFee : Int) * max 1 (envelope.tx.operations.length : Int)

def getFee (header : LedgerHeader) (baseFee : Int) : Int :=
  if header.ledgerVersion < 11 then envelope.tx.fee
  else min (envelope.tx.fee : Int) (baseFee * max 1 (envelope.tx.operations.length : Int))

def commonValidPreSeqNum : Apply (Except TransactionResultCode AccountEntry) := do
  let header ← loadHeader
  if envelope.tx.operations.isEmpty then return .error .txMISSING_OPERATION
  else if envelope.tx.timeBounds.any fun bounds => bounds.minTime > header.closeTime then
    return .error .txTOO_EARLY
  else if envelope.tx.timeBounds.any fun bounds =>
      bounds.maxTime ≠ 0 ∧ bounds.maxTime < header.closeTime then
    return .error .txTOO_LATE
  else if (envelope.tx.fee : Int) < getMinFee envelope header then
    return .error .txINSUFFICIENT_FEE
  else
    match ← accountTable.load envelope.tx.sourceAccount with
    | none => return .error .txNO_ACCOUNT
    | some source => return .ok source

/-- The sequence check: `current` 0 stands for the number stored in the account. -/
def isBadSeq (current accountSeqNum : SequenceNumber) : Bool :=
  let current := if current = 0 then accountSeqNum else current
  current = INT64_MAX ∨ current + 1 ≠ envelope.tx.seqNum

/-- What `commonValid` decides, with the result code where it is not fully valid. -/
structure Validation where
  type : ValidationType
  code : Option TransactionResultCode

def commonValid (checker : SignatureChecker) (current : SequenceNumber) (applying : Bool) :
    Apply (SignatureChecker × Validation) :=
  rolledBack do
    match ← commonValidPreSeqNum envelope with
    | .error code => return (checker, { type := .kInvalid, code := some code })
    | .ok source =>
        let header ← loadHeader
        if (header.ledgerVersion ≥ 10 ∨ ¬ applying) ∧ isBadSeq envelope current source.seqNum then
          return (checker, { type := .kInvalid, code := some .txBAD_SEQ })
        else
          let (checker, ok) := checkAccountSignature env checker envelope.tx.sourceAccount source
            source.thresholds.low
          if ¬ ok then
            return (checker, { type := .kInvalidUpdateSeqNum, code := some .txBAD_AUTH })
          else
            let feeToPay : Int :=
              if applying ∧ header.ledgerVersion > 8 then 0 else envelope.tx.fee
            if (← computed (getAvailableBalanceOfAccount header source)) < feeToPay then
              return (checker, { type := .kInvalidPostAuth, code := some .txINSUFFICIENT_BALANCE })
            else
              return (checker, { type := .kFullyValid, code := none })

def checkOperations : List Operation → SignatureChecker → Apply (SignatureChecker × Bool)
  | [], checker => return (checker, true)
  | op :: rest, checker => do
      match ← op.checkValid env envelope checker false with
      | (checker, .error _) => return (checker, false)
      | (checker, .ok _) => checkOperations rest checker

def checkValid (current : SequenceNumber) : Apply Bool :=
  rolledBack do
    let header ← loadHeader
    let checker := SignatureChecker.ofSignatures header.ledgerVersion
      (env.contentsHash envelope.tx) envelope.signatures
    let (checker, validation) ← commonValid env envelope checker current false
    if validation.type ≠ .kFullyValid then return false
    else
      let (checker, opsValid) ← checkOperations env envelope envelope.tx.operations checker
      if ¬ opsValid then return false else return checker.checkAllSignaturesUsed

/-! ### Fees, sequence numbers and one-time signers -/

def chargeFee (source : AccountEntry) (fee : Int) : Except Fault (Int × AccountEntry) :=
  if fee > 0 then do
    let charged := min source.balance fee
    let newBalance ← addToBalance source.balance (-charged) INT64_MAX
    return (charged, { source with balance := newBalance.getD source.balance })
  else
    return (0, source)

def processFeeSeqNum (baseFee : Int) : Apply Unit := do
  let header ← loadHeader
  match ← accountTable.load envelope.tx.sourceAccount with
  | none => throw (.runtimeError "Unexpected database state")
  | some source =>
      let (charged, paid) ← computed (chargeFee source (getFee envelope header baseFee))
      modify fun ledger =>
        { ledger with header := { ledger.header with feePool := ledger.header.feePool + charged } }
      if header.ledgerVersion ≤ 9 then
        if source.seqNum + 1 ≠ envelope.tx.seqNum then
          throw (.runtimeError "Unexpected account state")
        else
          accountTable.store envelope.tx.sourceAccount { paid with seqNum := envelope.tx.seqNum }
      else
        accountTable.store envelope.tx.sourceAccount paid

def processSeqNum : Apply Unit := do
  let header ← loadHeader
  if header.ledgerVersion ≥ 10 then
    let source ← accountTable.current envelope.tx.sourceAccount
    if source.seqNum > envelope.tx.seqNum then
      throw (.runtimeError "unexpected sequence number")
    else
      accountTable.store envelope.tx.sourceAccount { source with seqNum := envelope.tx.seqNum }
  else
    return ()

def removeAccountSigner (header : LedgerHeader) (account : AccountEntry) (key : SignerKey) :
    Except Fault (Option AccountEntry) := do
  if account.signers.any fun signer => signer.key = key then
    let (removed, updated) ← addNumEntries header account (-1)
    assertThat (removed = .SUCCESS) "removed == AddSubentryResult::SUCCESS"
    return some
      { updated with signers := account.signers.eraseP fun signer => signer.key = key }
  else
    return none

/-- The first of the keys that the account has is removed, as `||` stops there. -/
def removeFirstSigner (header : LedgerHeader) (account : AccountEntry) :
    List SignerKey → Except Fault (Option AccountEntry)
  | [] => return none
  | key :: rest => do
      match ← removeAccountSigner header account key with
      | some updated => return some updated
      | none => removeFirstSigner header account rest

def removeUsedOneTimeSignerKeysOf (accountID : AccountID) (keys : List SignerKey) :
    Apply Unit := do
  match ← accountTable.load accountID with
  | none => return ()
  | some account =>
      let header ← loadHeader
      match ← computed (removeFirstSigner header account keys) with
      | none => return ()
      | some updated => accountTable.store accountID (normalizeSigners updated)

def removeUsedOneTimeSignerKeys (checker : SignatureChecker) : Apply Unit :=
  checker.usedOneTimeSignerKeys.entries.forM fun used =>
    removeUsedOneTimeSignerKeysOf used.1 used.2

def checkOperationSignatures : List Operation → SignatureChecker → Apply (SignatureChecker × Bool)
  | [], checker => return (checker, true)
  | op :: rest, checker => do
      let (checker, result) ← op.checkSignature env envelope checker false
      let (checker, restValid) ← checkOperationSignatures rest checker
      return (checker, result.isOk && restValid)

def processSignatures (checker : SignatureChecker) :
    Apply (SignatureChecker × Except TransactionResultCode Unit) := do
  let header ← loadHeader
  if header.ledgerVersion < 10 then return (checker, .ok ())
  else
    let (checker, allOpsValid) ← rolledBack
      (checkOperationSignatures env envelope envelope.tx.operations checker)
    removeUsedOneTimeSignerKeys checker
    if ¬ allOpsValid then return (checker, .error .txFAILED)
    else if ¬ checker.checkAllSignaturesUsed then return (checker, .error .txBAD_AUTH_EXTRA)
    else return (checker, .ok ())

/-! ### Applying -/

def applyEach : List Operation → SignatureChecker →
    Apply (SignatureChecker × List OperationResult)
  | [], checker => return (checker, [])
  | op :: rest, checker => do
      let (checker, result) ← op.apply env envelope checker
      let (checker, results) ← applyEach rest checker
      return (checker, result :: results)

def applyOperations (checker : SignatureChecker) :
    Apply (TransactionResultCode × List OperationResult) := do
  let before ← get
  let (checker, results) ← applyEach env envelope envelope.tx.operations checker
  if ¬ results.all Except.isOk then
    set before
    return (.txFAILED, results)
  else
    let header ← loadHeader
    if header.ledgerVersion < 10 then
      if ¬ checker.checkAllSignaturesUsed then
        set before
        return (.txBAD_AUTH_EXTRA, results)
      else
        removeUsedOneTimeSignerKeys checker
        return (.txSUCCESS, results)
    else
      return (.txSUCCESS, results)

/-- The part of `apply` that runs before the operations, in a transaction of its own. -/
def applyHeader : Apply (SignatureChecker × ValidationType × Except TransactionResultCode Unit) := do
  let header ← loadHeader
  let checker := SignatureChecker.ofSignatures header.ledgerVersion
    (env.contentsHash envelope.tx) envelope.signatures
  let (checker, validation) ← commonValid env envelope checker 0 true
  if validation.type.rank < ValidationType.kInvalidUpdateSeqNum.rank then
    return (checker, validation.type, .error (validation.code.getD .txSUCCESS))
  else
    processSeqNum envelope
    if validation.type.rank < ValidationType.kInvalidPostAuth.rank then
      return (checker, validation.type, .error (validation.code.getD .txSUCCESS))
    else
      let (checker, signatures) ← processSignatures env envelope checker
      match signatures, validation.code with
      | .error code, _ => return (checker, validation.type, .error code)
      | .ok _, some code => return (checker, validation.type, .error code)
      | .ok _, none => return (checker, validation.type, .ok ())

structure Applied where
  validation : ValidationType
  code : TransactionResultCode
  results : List OperationResult

def apply : Apply Applied := do
  let (checker, validation, valid) ← inLedgerTxn (applyHeader env envelope)
  match valid with
  | .error code => return { validation, code, results := [] }
  | .ok _ =>
      let (code, results) ← inLedgerTxn (applyOperations env envelope checker)
      return { validation, code, results }

end ViiCore.Transactions
