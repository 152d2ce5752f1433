import ViiCore.Ledger.Entries

/-!
The exchange arithmetic of `OfferExchange.cpp`: how much wheat and sheep change hands
between an offer that sells wheat at a price and a taker who sends sheep.
-/

namespace ViiCore.Transactions

open ViiCore.Ledger

inductive ExchangeResultType where
  | NORMAL
  | REDUCED_TO_ZERO
  | BOGUS
  deriving DecidableEq

structure ExchangeResult where
  numWheatReceived : Int
  numSheepSend : Int
  reduced : Bool
  deriving DecidableEq

def ExchangeResult.type (result : ExchangeResult) : ExchangeResultType :=
  if result.numWheatReceived ≠ 0 ∧ result.numSheepSend ≠ 0 then .NORMAL
  else if result.reduced then .REDUCED_TO_ZERO else .BOGUS

structure ExchangeResultV10 where
  numWheatReceived : Int
  numSheepSend : Int
  wheatStays : Bool
  deriving DecidableEq

def exchangeV2 (wheatReceived : Int) (price : Price) (maxWheatReceive maxSheepSend : Int) :
    Except Fault ExchangeResult := do
  let reduced : Bool := wheatReceived > maxWheatReceive
  let wheatReceived := min wheatReceived maxWheatReceive
  let sheepSend := (← bigDivide wheatReceived price.n price.d .ROUND_DOWN).getD INT64_MAX
  let reduced := reduced || decide (sheepSend > maxSheepSend)
  let sheepSend := min sheepSend maxSheepSend
  let wheatReceived ← bigDivideOrThrow sheepSend price.d price.n .ROUND_DOWN
  return { numWheatReceived := wheatReceived, numSheepSend := sheepSend, reduced }

def exchangeV3 (wheatReceived : Int) (price : Price) (maxWheatReceive maxSheepSend : Int) :
    Except Fault ExchangeResult := do
  let reduced : Bool := wheatReceived > maxWheatReceive
  let wheatReceived := min wheatReceived maxWheatReceive
  let divided ← bigDivide wheatReceived price.n price.d .ROUND_UP
  let reduced := reduced || divided.isNone
  let sheepSend := divided.getD INT64_MAX
  let reduced := reduced || decide (sheepSend > maxSheepSend)
  let sheepSend := min sheepSend maxSheepSend
  let newWheatReceived := (← bigDivide sheepSend price.d price.n .ROUND_DOWN).getD INT64_MAX
  return { numWheatReceived := min wheatReceived newWheatReceived, numSheepSend := sheepSend,
           reduced }

def checkPriceErrorBound (price : Price) (wheatReceive sheepSend : Int) (canFavorWheat : Bool) :
    Except Fault Bool := do
  let lhs ← bigMultiply (100 * price.n) wheatReceive
  let rhs ← bigMultiply (100 * price.d) sheepSend
  if canFavorWheat ∧ rhs > lhs then
    return true
  else
    let absDiff := if lhs > rhs then lhs - rhs else rhs - lhs
    let cap ← bigMultiply price.n wheatReceive
    return decide (absDiff ≤ cap)

def calculateOfferValue (priceN priceD maxSend maxReceive : Int) : Except Fault Nat := do
  let sendValue ← bigMultiply maxSend priceN
  let receiveValue ← bigMultiply maxReceive priceD
  return min sendValue receiveValue

/-- The amounts before the bounds are checked. The side that runs out decides: its value
is divided by the larger of the two price terms first, so that rounding favours the side
that stays. -/
def exchangeAmounts (price : Price) (wheatValue sheepValue : Nat) (isPathPayment : Bool) :
    Except Fault (Int × Int) :=
  if wheatValue > sheepValue then
    if price.n > price.d ∨ isPathPayment then do
      let wheatReceive ← bigDivide128OrThrow sheepValue price.n .ROUND_DOWN
      let sheepSend ← bigDivideOrThrow wheatReceive price.n price.d .ROUND_UP
      return (wheatReceive, sheepSend)
    else do
      let sheepSend ← bigDivide128OrThrow sheepValue price.d .ROUND_DOWN
      let wheatReceive ← bigDivideOrThrow sheepSend price.d price.n .ROUND_DOWN
      return (wheatReceive, sheepSend)
  else
    if price.n > price.d then do
      let wheatReceive ← bigDivide128OrThrow wheatValue price.n .ROUND_DOWN
      let sheepSend ← bigDivideOrThrow wheatReceive price.n price.d .ROUND_DOWN
      return (wheatReceive, sheepSend)
    else do
      let sheepSend ← bigDivide128OrThrow wheatValue price.d .ROUND_DOWN
      let wheatReceive ← bigDivideOrThrow sheepSend price.d price.n .ROUND_UP
      return (wheatReceive, sheepSend)

def exchangeV10WithoutPriceErrorThresholds (price : Price)
    (maxWheatSend maxWheatReceive maxSheepSend maxSheepReceive : Int) (isPathPayment : Bool) :
    Except Fault ExchangeResultV10 := do
  let wheatValue ← calculateOfferValue price.n price.d maxWheatSend maxSheepReceive
  let sheepValue ← calculateOfferValue price.d price.n maxSheepSend maxWheatReceive
  let amounts ← exchangeAmounts price wheatValue sheepValue isPathPayment
  if amounts.1 < 0 ∨ amounts.1 > min maxWheatReceive maxWheatSend then
    throw (.runtimeError "wheatReceive out of bounds")
  else if amounts.2 < 0 ∨ amounts.2 > min maxSheepReceive maxSheepSend then
    throw (.runtimeError "sheepSend out of bounds")
  else
    return { numWheatReceived := amounts.1, numSheepSend := amounts.2,
             wheatStays := decide (wheatValue > sheepValue) }

def applyPriceErrorThresholds (price : Price) (wheatReceive sheepSend : Int)
    (wheatStays isPathPayment : Bool) : Except Fault ExchangeResultV10 :=
  if wheatReceive > 0 ∧ sheepSend > 0 then do
    let wheatReceiveValue ← bigMultiply wheatReceive price.n
    let sheepSendValue ← bigMultiply sheepSend price.d
    if wheatStays ∧ sheepSendValue < wheatReceiveValue then
      throw (.runtimeError "favored sheep when wheat stays")
    else if ¬ wheatStays ∧ sheepSendValue > wheatReceiveValue then
      throw (.runtimeError "favored wheat when sheep stays")
    else
      let bounded ← checkPriceErrorBound price wheatReceive sheepSend isPathPayment
      if bounded then
        return { numWheatReceived := wheatReceive, numSheepSend := sheepSend, wheatStays }
      else if isPathPayment then
        throw (.runtimeError "exceeded price error bound")
      else
        return { numWheatReceived := 0, numSheepSend := 0, wheatStays }
  else
    return { numWheatReceived := 0, numSheepSend := 0, wheatStays }

def exchangeV10 (price : Price)
    (maxWheatSend maxWheatReceive maxSheepSend maxSheepReceive : Int) (isPathPayment : Bool) :
    Except Fault ExchangeResultV10 := do
  let beforeThresholds ← exchangeV10WithoutPriceErrorThresholds price maxWheatSend maxWheatReceive
    maxSheepSend maxSheepReceive isPathPayment
  applyPriceErrorThresholds price beforeThresholds.numWheatReceived
    beforeThresholds.numSheepSend beforeThresholds.wheatStays isPathPayment

def adjustOfferAmount (price : Price) (maxWheatSend maxSheepReceive : Int) : Except Fault Int := do
  let result ← exchangeV10 price maxWheatSend INT64_MAX INT64_MAX maxSheepReceive false
  return result.numWheatReceived

/-! ### What the results satisfy by construction -/

/-- Both amounts of an exchange are zero, or both are positive and within the limits. -/
structure ExchangeResultV10.Bounded (result : ExchangeResultV10)
    (maxWheatSend maxWheatReceive maxSheepSend maxSheepReceive : Int) : Prop where
  wheatNonneg : 0 ≤ result.numWheatReceived
  sheepNonneg : 0 ≤ result.numSheepSend
  wheatSend : result.numWheatReceived ≤ max 0 maxWheatSend
  wheatReceive : result.numWheatReceived ≤ max 0 maxWheatReceive
  sheepSend : result.numSheepSend ≤ max 0 maxSheepSend
  sheepReceive : result.numSheepSend ≤ max 0 maxSheepReceive
  together : result.numWheatReceived = 0 ↔ result.numSheepSend = 0

theorem exchangeWithout_within {price : Price}
    {maxWheatSend maxWheatReceive maxSheepSend maxSheepReceive : Int} {isPathPayment : Bool}
    {result : ExchangeResultV10}
    (exchanged : exchangeV10WithoutPriceErrorThresholds price maxWheatSend maxWheatReceive
      maxSheepSend maxSheepReceive isPathPayment = .ok result) :
    0 ≤ result.numWheatReceived ∧ result.numWheatReceived ≤ min maxWheatReceive maxWheatSend ∧
    0 ≤ result.numSheepSend ∧ result.numSheepSend ≤ min maxSheepReceive maxSheepSend := by
  unfold exchangeV10WithoutPriceErrorThresholds at exchanged
  obtain ⟨wheatValue, -, exchanged⟩ := except_bind_ok.mp exchanged
  obtain ⟨sheepValue, -, exchanged⟩ := except_bind_ok.mp exchanged
  obtain ⟨amounts, -, exchanged⟩ := except_bind_ok.mp exchanged
  split at exchanged
  · cases exchanged
  split at exchanged
  · cases exchanged
  cases exchanged
  simp only
  omega

theorem applyPriceErrorThresholds_cases {price : Price} {wheatReceive sheepSend : Int}
    {wheatStays isPathPayment : Bool} {result : ExchangeResultV10}
    (applied : applyPriceErrorThresholds price wheatReceive sheepSend wheatStays isPathPayment =
      .ok result) :
    result.wheatStays = wheatStays ∧
    ((result.numWheatReceived = 0 ∧ result.numSheepSend = 0) ∨
      (0 < wheatReceive ∧ 0 < sheepSend ∧ result.numWheatReceived = wheatReceive ∧
        result.numSheepSend = sheepSend)) := by
  unfold applyPriceErrorThresholds at applied
  by_cases positive : wheatReceive > 0 ∧ sheepSend > 0
  · rw [if_pos positive] at applied
    obtain ⟨wheatValue, -, applied⟩ := except_bind_ok.mp applied
    obtain ⟨sheepValue, -, applied⟩ := except_bind_ok.mp applied
    split at applied
    · cases applied
    split at applied
    · cases applied
    obtain ⟨bounded, -, applied⟩ := except_bind_ok.mp applied
    split at applied
    · cases applied
      exact ⟨rfl, .inr ⟨positive.1, positive.2, rfl, rfl⟩⟩
    split at applied
    · cases applied
    · cases applied
      exact ⟨rfl, .inl ⟨rfl, rfl⟩⟩
  · rw [if_neg positive] at applied
    cases applied
    exact ⟨rfl, .inl ⟨rfl, rfl⟩⟩

theorem exchangeV10_bounded {price : Price}
    {maxWheatSend maxWheatReceive maxSheepSend maxSheepReceive : Int} {isPathPayment : Bool}
    {result : ExchangeResultV10}
    (exchanged : exchangeV10 price maxWheatSend maxWheatReceive maxSheepSend maxSheepReceive
      isPathPayment = .ok result) :
    result.Bounded maxWheatSend maxWheatReceive maxSheepSend maxSheepReceive := by
  unfold exchangeV10 at exchanged
  obtain ⟨before, without, applied⟩ := except_bind_ok.mp exchanged
  have within := exchangeWithout_within without
  obtain ⟨-, zero | ⟨wheatPositive, sheepPositive, wheatSame, sheepSame⟩⟩ :=
    applyPriceErrorThresholds_cases applied
  · constructor <;> omega
  · constructor <;> omega

end ViiCore.Transactions
