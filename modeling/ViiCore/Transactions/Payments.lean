import ViiCore.Transactions.Results

/-!
Path payments and payments (`PathPaymentOpFrame.cpp`, `PaymentOpFrame.cpp`) from protocol
version 8 on, where the source account is no longer cached by the transaction.
-/

namespace ViiCore.Transactions

open ViiCore.Ledger

namespace PathPaymentOp

variable (op : PathPaymentOp) (sourceID : AccountID) (book : OrderBook)

def doCheckValid : Except OperationFailure Unit :=
  if op.destAmount ≤ 0 ∨ op.sendMax ≤ 0 then throw (.pathPayment .MALFORMED)
  else if ¬ isAssetValid op.sendAsset ∨ ¬ isAssetValid op.destAsset then
    throw (.pathPayment .MALFORMED)
  else if ¬ op.path.all isAssetValid then throw (.pathPayment .MALFORMED)
  else return ()

/-- Credit sent straight back to its issuer needs no issuer account. -/
def bypassIssuerCheck : Bool :=
  op.destAsset.issuer? = some op.destination ∧ op.path = [] ∧ op.sendAsset = op.destAsset

def checkIssuer (asset : Asset) : Apply (Except OperationFailure Unit) :=
  match asset.issuer? with
  | none => return .ok ()
  | some issuerID => do
      if (← accountTable.load issuerID).isNone then
        return .error (.pathPayment (.NO_ISSUER asset))
      else
        return .ok ()

def checkIssuerUnlessBypassed (asset : Asset) : Apply (Except OperationFailure Unit) :=
  if op.bypassIssuerCheck then return .ok () else checkIssuer asset

def checkDestination : Apply (Except OperationFailure Unit) := do
  if op.bypassIssuerCheck then return .ok ()
  else if (← accountTable.load op.destination).isNone then
    return .error (.pathPayment .NO_DESTINATION)
  else return .ok ()

def addToLine (accountID : AccountID) (asset : Asset) (delta : Int)
    (noTrust notAuthorized full : PathPaymentResultCode) : Apply (Except OperationFailure Unit) := do
  match ← loadTrustLine accountID asset with
  | none => return .error (.pathPayment noTrust)
  | some line =>
      if ¬ line.isAuthorized then return .error (.pathPayment notAuthorized)
      else if ← addBalance accountID asset delta then return .ok ()
      else return .error (.pathPayment full)

def creditDestination : Apply (Except OperationFailure Unit) :=
  match op.destAsset with
  | .native => do
      let header ← loadHeader
      if ← addBalance op.destination .native op.destAmount then return .ok ()
      else return .error (.pathPayment (if header.ledgerVersion ≥ 11 then .LINE_FULL else .MALFORMED))
  | asset =>
      andThen (op.checkIssuerUnlessBypassed asset) fun _ =>
        addToLine op.destination asset op.destAmount .NO_TRUST .NOT_AUTHORIZED .LINE_FULL

def filter (key : OfferKey) (_ : OfferEntry) : Except Fault OfferFilterResult :=
  if key.sellerID = sourceID then return .eStop true else return .eKeep

/-- The asset and amount the path still has to provide, with the offers crossed so far. -/
structure Leg where
  curB : Asset
  curBReceived : Int
  offers : List ClaimOfferAtom

def Leg.next (leg : Leg) (curA : Asset) (converted : Converted) : Except OperationFailure Leg :=
  match converted.result with
  | .eFilterStop _ => throw (.pathPayment .OFFER_CROSS_SELF)
  | .eCrossedTooMany => throw .opEXCEEDED_WORK_LIMIT
  | .ePartial => throw (.pathPayment .TOO_FEW_OFFERS)
  | .eOK =>
      if leg.curBReceived = converted.wheatReceived then
        return { curB := curA, curBReceived := converted.sheepSend,
                 offers := converted.offerTrail ++ leg.offers }
      else
        throw (.pathPayment .TOO_FEW_OFFERS)

def convertLeg (leg : Leg) (curA : Asset) : Apply (Except OperationFailure Leg) :=
  andThen (checkIssuer curA) fun _ => do
    let header ← loadHeader
    let maxOffersToCross : Int :=
      if header.ledgerVersion ≥ FIRST_PROTOCOL_SUPPORTING_OPERATION_LIMITS then
        (MAX_OFFERS_TO_CROSS : Int) - leg.offers.length
      else
        INT64_MAX
    let converted ← convertWithOffers
      { book, sheep := curA, wheat := leg.curB, isPathPayment := true, filter := filter sourceID,
        maxOffersToCross } INT64_MAX leg.curBReceived
    computed (assertThat (0 ≤ converted.sheepSend) "curASent >= 0")
    return leg.next curA converted

def convertPath : List Asset → Leg → Apply (Except OperationFailure Leg)
  | [], leg => return .ok leg
  | curA :: rest, leg =>
      if curA = leg.curB then convertPath rest leg
      else andThen (convertLeg sourceID book leg curA) (convertPath rest)

def debitNative (amount : Int) : Apply (Except OperationFailure Unit) := do
  let header ← loadHeader
  match ← accountTable.load sourceID with
  | none => return .error (.pathPayment .MALFORMED)
  | some source =>
      if amount > (← computed (getAvailableBalanceOfAccount header source)) then
        return .error (.pathPayment .UNDERFUNDED)
      else
        let ok ← addBalance sourceID .native (-amount)
        computed (assertThat ok "ok")
        return .ok ()

def debitSource (leg : Leg) : Apply (Except OperationFailure Unit) :=
  if leg.curBReceived > op.sendMax then return .error (.pathPayment .OVER_SENDMAX)
  else
    match leg.curB with
    | .native => debitNative sourceID leg.curBReceived
    | asset =>
        andThen (op.checkIssuerUnlessBypassed asset) fun _ =>
          addToLine sourceID asset (-leg.curBReceived) .SRC_NO_TRUST .SRC_NOT_AUTHORIZED
            .UNDERFUNDED

def lastLeg : Leg := { curB := op.destAsset, curBReceived := op.destAmount, offers := [] }

def doApply : Apply (Except OperationFailure PathPaymentSuccess) :=
  andThen op.checkDestination fun _ =>
  andThen op.creditDestination fun _ =>
  andThen (convertPath sourceID book (op.sendAsset :: op.path).reverse op.lastLeg) fun leg =>
  andThen (op.debitSource sourceID leg) fun _ =>
    return .ok
      { offers := leg.offers, sent := leg.curBReceived,
        last := { destination := op.destination, asset := op.destAsset, amount := op.destAmount } }

end PathPaymentOp

namespace PaymentOp

variable (op : PaymentOp) (sourceID : AccountID) (book : OrderBook)

def doCheckValid : Except OperationFailure Unit :=
  if op.amount ≤ 0 then throw (.payment .MALFORMED)
  else if ¬ isAssetValid op.asset then throw (.payment .MALFORMED)
  else return ()

def pathPayment : PathPaymentOp :=
  { sendAsset := op.asset, sendMax := op.amount, destination := op.destination,
    destAsset := op.asset, destAmount := op.amount, path := [] }

def translate : OperationFailure → Except Fault OperationFailure
  | .pathPayment .UNDERFUNDED => return .payment .UNDERFUNDED
  | .pathPayment .SRC_NOT_AUTHORIZED => return .payment .SRC_NOT_AUTHORIZED
  | .pathPayment .SRC_NO_TRUST => return .payment .SRC_NO_TRUST
  | .pathPayment .NO_DESTINATION => return .payment .NO_DESTINATION
  | .pathPayment .NO_TRUST => return .payment .NO_TRUST
  | .pathPayment .NOT_AUTHORIZED => return .payment .NOT_AUTHORIZED
  | .pathPayment .LINE_FULL => return .payment .LINE_FULL
  | .pathPayment (.NO_ISSUER _) => return .payment .NO_ISSUER
  | _ => throw (.runtimeError "Unexpected error code from pathPayment")

def applyPathPayment : Apply (Except OperationFailure PathPaymentSuccess) :=
  match op.pathPayment.doCheckValid with
  | .error code => return .error code
  | .ok _ => op.pathPayment.doApply sourceID book

/-- A native payment to oneself succeeds without touching the ledger. -/
def doApply : Apply OperationResult :=
  if op.destination = sourceID ∧ op.asset = .native then return .ok .payment
  else do
    match ← op.applyPathPayment sourceID book with
    | .error code => return .error (← computed (translate code))
    | .ok _ => return .ok .payment

end PaymentOp

end ViiCore.Transactions
