import ViiCore.Transactions.TransactionUtils

/-!
Crossing offers (`OfferExchange.cpp`): `crossOffer` up to version 9, `crossOfferV10` from
version 10 on, and the loop `convertWithOffers` that crosses the best offers of a pair.

Output parameters of the source are results here. The offer a call crosses is passed with
its key and written back when the call is done with it.
-/

namespace ViiCore.Transactions

open ViiCore.Ledger

structure ClaimOfferAtom where
  sellerID : AccountID
  offerID : Int
  assetSold : Asset
  amountSold : Int
  assetBought : Asset
  amountBought : Int
  deriving DecidableEq

/-- Why a filter stops: `crossSelf` is the case in which it also sets a failure code. -/
inductive OfferFilterResult where
  | eKeep
  | eStop (crossSelf : Bool)
  deriving DecidableEq

inductive ConvertResult where
  | eOK
  | ePartial
  | eFilterStop (crossSelf : Bool)
  | eCrossedTooMany
  deriving DecidableEq

inductive CrossOfferResult where
  | eOfferPartial
  | eOfferTaken
  | eOfferCantConvert
  deriving DecidableEq

/-! ### Limits -/

def canSellAtMostBasedOnSheep (header : LedgerHeader) (sheep : Asset)
    (sheepLine : Option TrustLineWrapper) (wheatPrice : Price) : Except Fault Int :=
  if sheep = .native then return INT64_MAX
  else do
    let sellerMaxSheep ← (sheepLine.map (·.getMaxAmountReceive header)).getD (pure 0)
    return (← bigDivide sellerMaxSheep wheatPrice.d wheatPrice.n .ROUND_DOWN).getD INT64_MAX

def activeAccount (account : Option AccountEntry) : Except Fault AccountEntry :=
  match account with
  | some entry => return entry
  | none => throw (.runtimeError "LedgerTxnEntry not active")

def canSellAtMost (header : LedgerHeader) (account : Option AccountEntry) (asset : Asset)
    (trustLine : Option TrustLineWrapper) : Except Fault Int :=
  match asset with
  | .native => do
      let entry ← activeAccount account
      return max (← getAvailableBalanceOfAccount header entry) 0
  | _ =>
      match trustLine with
      | some line =>
          if line.isAuthorized then return max (← line.getAvailableBalance header) 0 else return 0
      | none => return 0

def canBuyAtMost (header : LedgerHeader) (account : Option AccountEntry) (asset : Asset)
    (trustLine : Option TrustLineWrapper) : Except Fault Int :=
  match asset with
  | .native => do
      let entry ← activeAccount account
      return max (← getMaxAmountReceiveOfAccount header entry) 0
  | _ =>
      match trustLine with
      | some line => return max (← line.getMaxAmountReceive header) 0
      | none => return 0

def tradeLimits (accountID : AccountID) (selling buying : Asset) : Apply (Int × Int) := do
  let header ← loadHeader
  let account ← accountTable.load accountID
  let sellingLine ← loadTrustLineIfNotNative accountID selling
  let buyingLine ← loadTrustLineIfNotNative accountID buying
  let maxSell ← computed (canSellAtMost header account selling sellingLine)
  let maxBuy ← computed (canBuyAtMost header account buying buyingLine)
  return (maxSell, maxBuy)

def adjustOffer (sellerID : AccountID) (offer : OfferEntry) : Apply Int := do
  let (maxSell, maxBuy) ← tradeLimits sellerID offer.selling offer.buying
  computed (adjustOfferAmount offer.price (min offer.amount maxSell) maxBuy)

/-! ### Crossing one offer -/

structure Crossing where
  result : CrossOfferResult
  numWheatReceived : Int
  numSheepSend : Int
  wheatStays : Bool
  deriving DecidableEq

def Crossing.claim (crossing : Crossing) (key : OfferKey) (offer : OfferEntry) : ClaimOfferAtom :=
  { sellerID := key.sellerID, offerID := key.offerID, assetSold := offer.selling,
    amountSold := crossing.numWheatReceived, assetBought := offer.buying,
    amountBought := crossing.numSheepSend }

structure PerformedExchange where
  type : ExchangeResultType
  numWheatReceived : Int
  numSheepSend : Int
  newAmount : Int
  deriving DecidableEq

def performExchange (header : LedgerHeader) (offer : OfferEntry) (accountB : AccountEntry)
    (wheatLine sheepLine : Option TrustLineWrapper) (maxWheatReceived maxSheepSend : Int) :
    Except Fault PerformedExchange := do
  let basedOnSheep ← canSellAtMostBasedOnSheep header offer.buying sheepLine offer.price
  let basedOnWheat ← canSellAtMost header (some accountB) offer.selling wheatLine
  let available := min (min basedOnSheep basedOnWheat) offer.amount
  assertThat (0 ≤ available) "numWheatReceived >= 0"
  let exchanged ←
    (if header.ledgerVersion < 3 then exchangeV2 else exchangeV3)
      available offer.price maxWheatReceived maxSheepSend
  match exchanged.type with
  | .REDUCED_TO_ZERO =>
      return { type := .REDUCED_TO_ZERO, numWheatReceived := exchanged.numWheatReceived,
               numSheepSend := exchanged.numSheepSend, newAmount := available }
  | .BOGUS => return { type := .NORMAL, numWheatReceived := 0, numSheepSend := 0, newAmount := 0 }
  | .NORMAL =>
      return { type := .NORMAL, numWheatReceived := exchanged.numWheatReceived,
               numSheepSend := exchanged.numSheepSend,
               newAmount := if offer.amount ≤ exchanged.numWheatReceived then 0
                 else available - exchanged.numWheatReceived }

/-- Both crossings skip a balance update of zero. -/
def addBalanceUnlessZero (accountID : AccountID) (asset : Asset) (delta : Int) : Apply Bool :=
  if delta = 0 then return true else addBalance accountID asset delta

def eraseOffer (key : OfferKey) : Apply Unit := do
  offerTable.erase key
  let _ ← addNumEntriesOf key.sellerID (-1)

def settleOffer (key : OfferKey) (offer : OfferEntry) : Apply Unit :=
  if offer.amount = 0 then eraseOffer key else offerTable.store key offer

def crossOffer (key : OfferKey) (offer : OfferEntry) (maxWheatReceived maxSheepSend : Int) :
    Apply Crossing := do
  computed (assertThat (0 < maxWheatReceived) "maxWheatReceived > 0")
  computed (assertThat (0 < maxSheepSend) "maxSheepSend > 0")
  match ← accountTable.load key.sellerID with
  | none => throw (.runtimeError "invalid database state: offer must have matching account")
  | some accountB =>
      let header ← loadHeader
      let sheepLine ← loadTrustLineIfNotNative key.sellerID offer.buying
      let wheatLine ← loadTrustLineIfNotNative key.sellerID offer.selling
      let exchange ← computed (performExchange header offer accountB wheatLine sheepLine
        maxWheatReceived maxSheepSend)
      let crossing (result : CrossOfferResult) : Crossing :=
        { result, numWheatReceived := exchange.numWheatReceived,
          numSheepSend := exchange.numSheepSend, wheatStays := false }
      if exchange.type = .REDUCED_TO_ZERO then return crossing .eOfferCantConvert
      else
        settleOffer key { offer with amount := exchange.newAmount }
        let received ← addBalanceUnlessZero key.sellerID offer.buying exchange.numSheepSend
        if ¬ received then return crossing .eOfferCantConvert
        else
          let sent ← addBalanceUnlessZero key.sellerID offer.selling (-exchange.numWheatReceived)
          if ¬ sent then return crossing .eOfferCantConvert
          else return crossing (if exchange.newAmount = 0 then .eOfferTaken else .eOfferPartial)

/-- The remaining amount after a crossing: only wheat that stays keeps the offer alive. -/
def remainingAmount (key : OfferKey) (offer : OfferEntry) (exchange : ExchangeResultV10) :
    Apply Int :=
  if exchange.wheatStays then
    adjustOffer key.sellerID { offer with amount := offer.amount - exchange.numWheatReceived }
  else
    return 0

def settleOfferV10 (key : OfferKey) (offer : OfferEntry) : Apply Unit :=
  if offer.amount = 0 then eraseOffer key
  else do
    offerTable.store key offer
    acquireLiabilities key.sellerID offer

def crossOfferV10 (key : OfferKey) (offer : OfferEntry) (maxWheatReceived maxSheepSend : Int)
    (isPathPayment : Bool) : Apply Crossing := do
  computed (assertThat (0 < maxWheatReceived) "maxWheatReceived > 0")
  computed (assertThat (0 < maxSheepSend) "maxSheepSend > 0")
  match ← accountTable.load key.sellerID with
  | none => throw (.runtimeError "invalid database state: offer must have matching account")
  | some _ =>
      releaseLiabilities key.sellerID offer
      let adjusted := { offer with amount := ← adjustOffer key.sellerID offer }
      let (maxSell, maxSheepReceive) ← tradeLimits key.sellerID offer.selling offer.buying
      let exchange ← computed (exchangeV10 offer.price (min adjusted.amount maxSell)
        maxWheatReceived maxSheepSend maxSheepReceive isPathPayment)
      orThrow (addBalanceUnlessZero key.sellerID offer.buying exchange.numSheepSend)
        "overflowed sheep balance"
      orThrow (addBalanceUnlessZero key.sellerID offer.selling (-exchange.numWheatReceived))
        "overflowed wheat balance"
      let remaining := { adjusted with amount := ← remainingAmount key adjusted exchange }
      settleOfferV10 key remaining
      return { result := if remaining.amount = 0 then .eOfferTaken else .eOfferPartial,
               numWheatReceived := exchange.numWheatReceived,
               numSheepSend := exchange.numSheepSend, wheatStays := exchange.wheatStays }

/-! ### Crossing the book -/

structure Converted where
  result : ConvertResult
  sheepSend : Int
  wheatReceived : Int
  offerTrail : List ClaimOfferAtom

structure Conversion where
  book : OrderBook
  sheep : Asset
  wheat : Asset
  isPathPayment : Bool
  filter : OfferKey → OfferEntry → Except Fault OfferFilterResult
  maxOffersToCross : Int

structure ConvertProgress where
  maxSheepSend : Int
  maxWheatReceive : Int
  sheepSend : Int
  wheatReceived : Int
  offerTrail : List ClaimOfferAtom

def ConvertProgress.finish (progress : ConvertProgress) (result : ConvertResult) : Converted :=
  { result, sheepSend := progress.sheepSend, wheatReceived := progress.wheatReceived,
    offerTrail := progress.offerTrail }

def ConvertProgress.needMore (progress : ConvertProgress) : Bool :=
  0 < progress.maxWheatReceive ∧ 0 < progress.maxSheepSend

def ConvertProgress.cross (progress : ConvertProgress) (key : OfferKey) (offer : OfferEntry)
    (crossing : Crossing) : ConvertProgress :=
  { maxSheepSend := progress.maxSheepSend - crossing.numSheepSend
    maxWheatReceive := progress.maxWheatReceive - crossing.numWheatReceived
    sheepSend := progress.sheepSend + crossing.numSheepSend
    wheatReceived := progress.wheatReceived + crossing.numWheatReceived
    offerTrail := progress.offerTrail ++ [crossing.claim key offer] }

def Crossing.checkBounds (crossing : Crossing) (progress : ConvertProgress) :
    Except Fault Unit := do
  assertThat (0 ≤ crossing.numSheepSend) "numSheepSend >= 0"
  assertThat (crossing.numSheepSend ≤ progress.maxSheepSend) "numSheepSend <= maxSheepSend"
  assertThat (0 ≤ crossing.numWheatReceived) "numWheatReceived >= 0"
  assertThat (crossing.numWheatReceived ≤ progress.maxWheatReceive)
    "numWheatReceived <= maxWheatReceive"

def crossBestOffer (conversion : Conversion) (progress : ConvertProgress) (key : OfferKey)
    (offer : OfferEntry) : Apply Crossing := do
  let header ← loadHeader
  if header.ledgerVersion ≥ 10 then
    crossOfferV10 key offer progress.maxWheatReceive progress.maxSheepSend conversion.isPathPayment
  else
    crossOffer key offer progress.maxWheatReceive progress.maxSheepSend

def convertStep (conversion : Conversion) (progress : ConvertProgress) :
    Apply (Converted ⊕ ConvertProgress) := do
  let header ← loadHeader
  match ← conversion.book.loadBestOffer conversion.sheep conversion.wheat with
  | none => return .inl (progress.finish (if header.ledgerVersion < 10 then .eOK else .ePartial))
  | some (key, offer) =>
      match ← computed (conversion.filter key offer) with
      | .eStop crossSelf => return .inl (progress.finish (.eFilterStop crossSelf))
      | .eKeep =>
          -- The limit is cast to an unsigned number.
          if conversion.maxOffersToCross % 2 ^ 64 ≤ progress.offerTrail.length then
            return .inl (progress.finish .eCrossedTooMany)
          else
            let before ← get
            let crossing ← crossBestOffer conversion progress key offer
            computed (crossing.checkBounds progress)
            if crossing.result = .eOfferCantConvert then
              set before
              return .inl (progress.finish .ePartial)
            else
              let progress := progress.cross key offer crossing
              if crossing.wheatStays ∨ ¬ progress.needMore then
                return .inl (progress.finish .eOK)
              else if crossing.result = .eOfferPartial then
                return .inl (progress.finish .ePartial)
              else
                return .inr progress

def convertLoop (conversion : Conversion) : Nat → ConvertProgress → Apply Converted
  | 0, _ => throw .diverged
  | fuel + 1, progress => do
      match ← convertStep conversion progress with
      | .inl converted => return converted
      | .inr progress => convertLoop conversion fuel progress

/-- Every round that goes on has removed an offer, so one round more than there are offers
is enough. -/
def convertWithOffers (conversion : Conversion) (maxSheepSend maxWheatReceive : Int) :
    Apply Converted := do
  let progress : ConvertProgress :=
    { maxSheepSend, maxWheatReceive, sheepSend := 0, wheatReceived := 0, offerTrail := [] }
  if progress.needMore then
    convertLoop conversion ((← get).offers.entries.length + 1) progress
  else
    return progress.finish .eOK

end ViiCore.Transactions
