import ViiCore.Transactions.Results

/-!
The three offer operations (`ManageOfferOpFrameBase.cpp`, `ManageSellOfferOpFrame.cpp`,
`ManageBuyOfferOpFrame.cpp`, `CreatePassiveSellOfferOpFrame.cpp`).

The virtual functions of the base class are the fields of `ManageOfferOpFrame`. `sheep` is
the asset sold and `wheat` the asset bought.
-/

namespace ViiCore.Transactions

open ViiCore.Ledger

structure ManageOfferOpFrame where
  sourceID : AccountID
  sheep : Asset
  wheat : Asset
  offerID : Int
  price : Price
  setPassiveOnCreate : Bool
  isAmountValid : Bool
  isDeleteOffer : Bool
  getOfferBuyingLiabilities : Except Fault Int
  getOfferSellingLiabilities : Except Fault Int
  /-- `maxSheepSend`, `sheepSent`, `maxWheatReceive`, `wheatReceived` to the new maxima. -/
  applyOperationSpecificLimits : Int → Int → Int → Int → Int × Int
  getExchangeParametersBeforeV10 : Int → Int → Except Fault (Int × Int)
  result : ManageOfferResultCode → OperationFailure

def manageSellOfferFrame (sourceID : AccountID) (op : ManageSellOfferOp) (passive : Bool) :
    ManageOfferOpFrame where
  sourceID := sourceID
  sheep := op.selling
  wheat := op.buying
  offerID := op.offerID
  price := op.price
  setPassiveOnCreate := passive
  isAmountValid := op.amount ≥ 0
  isDeleteOffer := op.amount = 0
  getOfferBuyingLiabilities := return (← offerLiabilities op.price op.amount).numSheepSend
  getOfferSellingLiabilities := return (← offerLiabilities op.price op.amount).numWheatReceived
  applyOperationSpecificLimits maxSheepSend sheepSent maxWheatReceive _ :=
    (min (op.amount - sheepSent) maxSheepSend, maxWheatReceive)
  getExchangeParametersBeforeV10 maxSheepSend maxWheatReceive := do
    let maxSheepBasedOnWheat :=
      (← bigDivide maxWheatReceive op.price.d op.price.n .ROUND_DOWN).getD INT64_MAX
    return (min (min maxSheepSend maxSheepBasedOnWheat) op.amount, maxWheatReceive)
  result := .manageSellOffer

def getInversePrice (price : Price) : Price := ⟨price.d, price.n⟩

def buyOfferLiabilities (price : Price) (buyAmount : Int) : Except Fault ExchangeResultV10 :=
  exchangeV10WithoutPriceErrorThresholds (getInversePrice price) INT64_MAX INT64_MAX INT64_MAX
    buyAmount false

def manageBuyOfferFrame (sourceID : AccountID) (op : ManageBuyOfferOp) : ManageOfferOpFrame where
  sourceID := sourceID
  sheep := op.selling
  wheat := op.buying
  offerID := op.offerID
  price := getInversePrice op.price
  setPassiveOnCreate := false
  isAmountValid := op.buyAmount ≥ 0
  isDeleteOffer := op.buyAmount = 0
  getOfferBuyingLiabilities := return (← buyOfferLiabilities op.price op.buyAmount).numSheepSend
  getOfferSellingLiabilities :=
    return (← buyOfferLiabilities op.price op.buyAmount).numWheatReceived
  applyOperationSpecificLimits maxSheepSend _ maxWheatReceive wheatReceived :=
    (maxSheepSend, min (op.buyAmount - wheatReceived) maxWheatReceive)
  getExchangeParametersBeforeV10 _ _ :=
    throw (.runtimeError "ManageBuyOffer used before protocol version 10")
  result := .manageBuyOffer

def createPassiveSellOfferFrame (sourceID : AccountID) (op : CreatePassiveSellOfferOp) :
    ManageOfferOpFrame :=
  manageSellOfferFrame sourceID
    { selling := op.selling, buying := op.buying, amount := op.amount, price := op.price,
      offerID := 0 } true

namespace ManageOfferOpFrame

variable (frame : ManageOfferOpFrame) (book : OrderBook)

def doCheckValid (ledgerVersion : Nat) : Except OperationFailure Unit :=
  if ¬ isAssetValid frame.sheep ∨ ¬ isAssetValid frame.wheat then throw (frame.result .MALFORMED)
  else if compareAsset frame.sheep frame.wheat then throw (frame.result .MALFORMED)
  else if ¬ frame.isAmountValid ∨ frame.price.d ≤ 0 ∨ frame.price.n ≤ 0 then
    throw (frame.result .MALFORMED)
  else if frame.offerID = 0 ∧ frame.isDeleteOffer ∧ ledgerVersion ≥ 11 then
    throw (frame.result .MALFORMED)
  else if frame.offerID = 0 ∧ frame.isDeleteOffer ∧ ledgerVersion ≥ 3 then
    throw (frame.result .NOT_FOUND)
  else return ()

def checkSheepLine : Apply (Except OperationFailure Unit) :=
  match frame.sheep.issuer? with
  | none => return .ok ()
  | some issuerID => do
      let sheepLine ← loadTrustLine frame.sourceID frame.sheep
      let issuer ← accountTable.load issuerID
      if issuer.isNone then return .error (frame.result .SELL_NO_ISSUER)
      else
        match sheepLine with
        | none => return .error (frame.result .SELL_NO_TRUST)
        | some line =>
            if line.getBalance = 0 then return .error (frame.result .UNDERFUNDED)
            else if ¬ line.isAuthorized then return .error (frame.result .SELL_NOT_AUTHORIZED)
            else return .ok ()

def checkWheatLine : Apply (Except OperationFailure Unit) :=
  match frame.wheat.issuer? with
  | none => return .ok ()
  | some issuerID => do
      let wheatLine ← loadTrustLine frame.sourceID frame.wheat
      let issuer ← accountTable.load issuerID
      if issuer.isNone then return .error (frame.result .BUY_NO_ISSUER)
      else
        match wheatLine with
        | none => return .error (frame.result .BUY_NO_TRUST)
        | some line =>
            if ¬ line.isAuthorized then return .error (frame.result .BUY_NOT_AUTHORIZED)
            else return .ok ()

def checkOfferValid : Apply (Except OperationFailure Unit) :=
  rolledBack <|
    if frame.isDeleteOffer then return .ok ()
    else andThen frame.checkSheepLine fun _ => frame.checkWheatLine

def addOfferEntry : Apply (Except OperationFailure Unit) := do
  match ← addNumEntriesOf frame.sourceID 1 with
  | .SUCCESS => return .ok ()
  | .LOW_RESERVE => return .error (frame.result .LOW_RESERVE)
  | .TOO_MANY_SUBENTRIES => return .error .opTOO_MANY_SUBENTRIES

/-- The room the source has for the whole offer must cover its liabilities. -/
def checkLiabilities : Apply (Except OperationFailure Unit) := do
  let header ← loadHeader
  let source ← accountTable.load frame.sourceID
  let sheepLine ← loadTrustLineIfNotNative frame.sourceID frame.sheep
  let wheatLine ← loadTrustLineIfNotNative frame.sourceID frame.wheat
  let availableLimit ← computed (availableOf wheatLine source
    (getMaxAmountReceiveOfAccount header) (·.getMaxAmountReceive header) frame.wheat)
  let buying ← computed frame.getOfferBuyingLiabilities
  if availableLimit < buying then return .error (frame.result .LINE_FULL)
  else
    let availableBalance ← computed (availableOf sheepLine source
      (getAvailableBalanceOfAccount header) (·.getAvailableBalance header) frame.sheep)
    let selling ← computed frame.getOfferSellingLiabilities
    if availableBalance < selling then return .error (frame.result .UNDERFUNDED)
    else return .ok ()
where
  availableOf (line : Option TrustLineWrapper) (source : Option AccountEntry)
      (native : AccountEntry → Except Fault Int) (credit : TrustLineWrapper → Except Fault Int) :
      Asset → Except Fault Int
    | .native => do native (← activeAccount source)
    | _ =>
        match line with
        | some wrapper => credit wrapper
        | none => throw (.runtimeError "TrustLineWrapper not active")

def exchangeParameters : Apply (Except OperationFailure (Int × Int)) := do
  let header ← loadHeader
  let (maxSheepSend, maxWheatReceive) ← tradeLimits frame.sourceID frame.sheep frame.wheat
  if header.ledgerVersion ≥ 10 then
    andThen frame.checkLiabilities fun _ =>
      return .ok (frame.applyOperationSpecificLimits maxSheepSend 0 maxWheatReceive 0)
  else
    return .ok (← computed (frame.getExchangeParametersBeforeV10 maxSheepSend maxWheatReceive))

/-- A new offer counts as a sub-entry while its limits are computed, and this is undone. -/
def computeOfferExchangeParameters (creatingNewOffer : Bool) :
    Apply (Except OperationFailure (Int × Int)) :=
  rolledBack do
    let header ← loadHeader
    if creatingNewOffer ∧
        (header.ledgerVersion ≥ 10 ∨ (frame.sheep = .native ∧ header.ledgerVersion > 8)) then
      andThen frame.addOfferEntry fun _ => frame.exchangeParameters
    else
      frame.exchangeParameters

def filter (passive : Bool) (key : OfferKey) (offer : OfferEntry) :
    Except Fault OfferFilterResult := do
  assertThat (key.offerID ≠ frame.offerID) "o.offerID != mOfferID"
  let maxWheatPrice : Price := ⟨frame.price.d, frame.price.n⟩
  if (passive ∧ offer.price.n * maxWheatPrice.d ≥ offer.price.d * maxWheatPrice.n) ∨
      offer.price.n * maxWheatPrice.d > offer.price.d * maxWheatPrice.n then
    return .eStop false
  else if key.sellerID = frame.sourceID then return .eStop true
  else return .eKeep

/-- Takes the offer to be changed off the book, or starts a new one: whether it is new, and
its flags. -/
def takeOldOffer : Apply (Except OperationFailure (Bool × BitVec 32)) :=
  if frame.offerID ≠ 0 then do
    let key : OfferKey := ⟨frame.sourceID, frame.offerID⟩
    match ← offerTable.load key with
    | none => return .error (frame.result .NOT_FOUND)
    | some offer =>
        let header ← loadHeader
        releaseFrom header offer
        offerTable.erase key
        return .ok (false, offer.flags)
  else
    return .ok (true, if frame.setPassiveOnCreate then PASSIVE_FLAG else 0)
where
  releaseFrom (header : LedgerHeader) (offer : OfferEntry) : Apply Unit :=
    if header.ledgerVersion ≥ 10 then releaseLiabilities frame.sourceID offer else return ()

def settleSource (converted : Converted) : Apply Unit :=
  if converted.wheatReceived > 0 then do
    orThrow (addBalance frame.sourceID frame.wheat converted.wheatReceived)
      "offer claimed over limit"
    orThrow (addBalance frame.sourceID frame.sheep (-converted.sheepSend))
      "offer sold more than balance"
  else
    return ()

def amountLeft (maxSheepSend : Int) (sheepStays : Bool) (converted : Converted) : Apply Int := do
  let header ← loadHeader
  if header.ledgerVersion ≥ 10 then
    if sheepStays then
      let (sheepSendLimit, wheatReceiveLimit) ←
        tradeLimits frame.sourceID frame.sheep frame.wheat
      let (sheepSendLimit, wheatReceiveLimit) := frame.applyOperationSpecificLimits
        sheepSendLimit converted.sheepSend wheatReceiveLimit converted.wheatReceived
      computed (adjustOfferAmount frame.price sheepSendLimit wheatReceiveLimit)
    else
      return 0
  else
    return maxSheepSend - converted.sheepSend

/-- Whether the offer's own sheep is left over, or why the operation fails. -/
def sheepStays (converted : Converted) : Except OperationFailure Bool :=
  match converted.result with
  | .eOK => return false
  | .ePartial => return true
  | .eFilterStop crossSelf => if crossSelf then throw (frame.result .CROSS_SELF) else return true
  | .eCrossedTooMany => throw .opEXCEEDED_WORK_LIMIT

def crossBook (passive : Bool) (maxSheepSend maxWheatReceive : Int) :
    Apply (Except OperationFailure (Int × List ClaimOfferAtom)) := do
  let header ← loadHeader
  let maxOffersToCross : Int :=
    if header.ledgerVersion ≥ FIRST_PROTOCOL_SUPPORTING_OPERATION_LIMITS then MAX_OFFERS_TO_CROSS
    else INT64_MAX
  let converted ← convertWithOffers
    { book, sheep := frame.sheep, wheat := frame.wheat, isPathPayment := false,
      filter := frame.filter passive, maxOffersToCross } maxSheepSend maxWheatReceive
  computed (assertThat (0 ≤ converted.sheepSend) "sheepSent >= 0")
  match frame.sheepStays converted with
  | .error code => return .error code
  | .ok sheepStays =>
      frame.settleSource converted
      return .ok (← frame.amountLeft maxSheepSend sheepStays converted, converted.offerTrail)

def tradeOffer (creatingNewOffer passive : Bool) :
    Apply (Except OperationFailure (Int × List ClaimOfferAtom)) :=
  if frame.isDeleteOffer then return .ok (0, [])
  else
    andThen (frame.computeOfferExchangeParameters creatingNewOffer) fun parameters =>
      if parameters.2 = 0 then return .error (frame.result .LINE_FULL)
      else frame.crossBook book passive parameters.1 parameters.2

def buildOffer (amount : Int) (flags : BitVec 32) : OfferEntry :=
  { selling := frame.sheep, buying := frame.wheat, amount, price := frame.price, flags }

def storeOffer (key : OfferKey) (offer : OfferEntry) : Apply Unit := do
  offerTable.create key offer
  let header ← loadHeader
  if header.ledgerVersion ≥ 10 then acquireLiabilities key.sellerID offer else return ()

def placeOffer (creatingNewOffer : Bool) (flags : BitVec 32) (amount : Int) :
    Apply (Except OperationFailure ManageOfferEffect) :=
  if amount > 0 then
    let offer := frame.buildOffer amount flags
    if creatingNewOffer then
      andThen frame.addOfferEntry fun _ => do
        let key : OfferKey := ⟨frame.sourceID, ← generateID⟩
        storeOffer key offer
        return .ok (.CREATED key offer)
    else do
      let key : OfferKey := ⟨frame.sourceID, frame.offerID⟩
      storeOffer key offer
      return .ok (.UPDATED key offer)
  else if creatingNewOffer then return .ok .DELETED
  else do
    let _ ← addNumEntriesOf frame.sourceID (-1)
    return .ok .DELETED

def doApply : Apply OperationResult :=
  nested <|
    andThen frame.checkOfferValid fun _ =>
    andThen frame.takeOldOffer fun (creatingNewOffer, flags) =>
    andThen (frame.tradeOffer book creatingNewOffer (hasFlag flags PASSIVE_FLAG))
      fun (amount, offersClaimed) =>
    andThen (frame.placeOffer creatingNewOffer flags amount) fun effect =>
      return .ok (.manageOffer { offersClaimed, effect })

end ManageOfferOpFrame

end ViiCore.Transactions
