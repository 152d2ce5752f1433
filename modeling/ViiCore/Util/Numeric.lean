import Mathlib.Algebra.Order.Group.Int
import Mathlib.Algebra.Order.Ring.Int
import Mathlib.Tactic.Linarith
import Mathlib.Tactic.Ring
import Mathlib.Tactic.Positivity
import ViiCore.Library.Execution

/-!
Integer arithmetic of `util/numeric.cpp` and `util/types.cpp`.

Values of the signed 64-bit type are integers; the 128-bit intermediate results of the
divisions wrap as `uint128_t` does.
-/

namespace ViiCore

def INT64_MAX : Int := 9223372036854775807

def INT32_MAX : Int := 2147483647

def UINT64_MAX : Nat := 18446744073709551615

def UINT8_MAX : Nat := 255

/-- What ends a call early: an exception, or an assertion that stops the process. An `int`
addition that overflows has no defined result and is `signedOverflow`; a loop that would
never end is `diverged`. -/
inductive Fault where
  | runtimeError (what : String)
  | overflowError (what : String)
  | wrongUnion
  | assertFailed (what : String)
  | signedOverflow
  | diverged
  deriving DecidableEq

def assertThat (holds : Bool) (what : String) : Except Fault Unit :=
  if holds then pure () else throw (.assertFailed what)

def INT64_MIN : Int := -9223372036854775808

/-- The result of an operation in `int64_t`, whose overflow is not defined. -/
def inInt64 (value : Int) : Except Fault Int :=
  if value < INT64_MIN ∨ INT64_MAX < value then throw .signedOverflow else return value

inductive Rounding where
  | ROUND_DOWN
  | ROUND_UP
  deriving DecidableEq

def toSigned64 (pattern : Nat) : Int :=
  let low : Nat := pattern % 2 ^ 64
  if low < 2 ^ 63 then (low : Int) else (low : Int) - 2 ^ 64

def wrap128 (value : Nat) : Nat := value % 2 ^ 128

def bigDivideUnsigned (a b c : Nat) (rounding : Rounding) : Option Nat :=
  let x := match rounding with
    | .ROUND_DOWN => wrap128 (a * b) / c
    | .ROUND_UP => wrap128 (wrap128 (a * b) + c + (2 ^ 128 - 1)) / c
  if x ≤ UINT64_MAX then some x else none

/-- The `bool` overload on `int64_t`: `none` where it returns false. -/
def bigDivide (a b c : Int) (rounding : Rounding) : Except Fault (Option Int) := do
  assertThat (0 ≤ a ∧ 0 ≤ b ∧ 0 < c) "(A >= 0) && (B >= 0) && (C > 0)"
  match bigDivideUnsigned a.toNat b.toNat c.toNat rounding with
  | some quotient => return if (quotient : Int) ≤ INT64_MAX then some (quotient : Int) else none
  | none => return none

def bigDivideOrThrow (a b c : Int) (rounding : Rounding) : Except Fault Int := do
  match ← bigDivide a b c rounding with
  | some quotient => return quotient
  | none => throw (.overflowError "overflow while performing bigDivide")

def bigDivide128Unsigned (a b : Nat) (rounding : Rounding) : Option Nat :=
  if rounding = .ROUND_UP ∧ (2 ^ 128 - 1) - (b - 1) < a then none
  else
    let x := match rounding with
      | .ROUND_DOWN => a / b
      | .ROUND_UP => wrap128 (wrap128 (a + b) + (2 ^ 128 - 1)) / b
    if x ≤ UINT64_MAX then some x else none

def bigDivide128 (a : Nat) (b : Int) (rounding : Rounding) : Except Fault (Option Int) := do
  assertThat (0 < b) "B > 0"
  match bigDivide128Unsigned a b.toNat rounding with
  | some quotient => return if (quotient : Int) ≤ INT64_MAX then some (quotient : Int) else none
  | none => return none

def bigDivide128OrThrow (a : Nat) (b : Int) (rounding : Rounding) : Except Fault Int := do
  match ← bigDivide128 a b rounding with
  | some quotient => return quotient
  | none => throw (.overflowError "overflow while performing bigDivide")

def bigMultiply (a b : Int) : Except Fault Nat := do
  assertThat (0 ≤ a ∧ 0 ≤ b) "(a >= 0) && (b >= 0)"
  return wrap128 (a.toNat * b.toNat)

/-- `addBalance` on a plain balance: the new balance, or `none` where it returns false. -/
def addToBalance (balance delta maxBalance : Int) : Except Fault (Option Int) := do
  assertThat (0 ≤ balance) "balance >= 0"
  assertThat (0 ≤ maxBalance) "maxBalance >= 0"
  if delta = 0 then return some balance
  else if delta < -balance then return none
  else if maxBalance - balance < delta then return none
  else return some (balance + delta)

/-! ### Computations that did not throw -/

theorem assertThat_bind_ok {α : Type} {holds : Bool} {what : String} {f : Unit → Except Fault α}
    {result : α} :
    (assertThat holds what >>= f) = .ok result ↔ holds = true ∧ f () = .ok result := by
  cases holds <;> simp [assertThat, bind, Except.bind, pure, Except.pure, throw, throwThe,
    MonadExceptOf.throw]

/-! ### The divisions as integer division -/

def quotient (rounding : Rounding) (a c : Int) : Int :=
  match rounding with
  | .ROUND_DOWN => a / c
  | .ROUND_UP => (a + c - 1) / c

theorem quotient_down_le (a c bound : Int) (positive : 0 < c) (fits : a ≤ bound * c) :
    quotient .ROUND_DOWN a c ≤ bound :=
  Int.ediv_le_of_le_mul positive fits

theorem quotient_nonneg (rounding : Rounding) (a c : Int) (nonneg : 0 ≤ a) (positive : 0 < c) :
    0 ≤ quotient rounding a c := by
  cases rounding <;> exact Int.ediv_nonneg (by omega) (by omega)

theorem quotient_down_mul_le (a c : Int) (positive : 0 < c) :
    quotient .ROUND_DOWN a c * c ≤ a :=
  Int.ediv_mul_le a (by omega)

theorem lt_quotient_down_mul (a c : Int) (positive : 0 < c) :
    a < quotient .ROUND_DOWN a c * c + c := by
  have bound := Int.lt_ediv_add_one_mul_self a positive
  have expanded : (a / c + 1) * c = a / c * c + c := by ring
  rw [expanded] at bound
  exact bound

theorem le_quotient_up_mul (a c : Int) (positive : 0 < c) : a ≤ quotient .ROUND_UP a c * c := by
  have bound := lt_quotient_down_mul (a + c - 1) c positive
  simp only [quotient] at bound ⊢
  omega

theorem quotient_up_mul_lt (a c : Int) (positive : 0 < c) : quotient .ROUND_UP a c * c < a + c := by
  have bound := quotient_down_mul_le (a + c - 1) c positive
  simp only [quotient] at bound ⊢
  omega

theorem wrap128_of_lt {value : Nat} (small : value < 2 ^ 128) : wrap128 value = value :=
  Nat.mod_eq_of_lt small

/-- Subtracting one in 128 bits is adding the largest value. -/
private theorem wrap128_pred {value : Nat} (positive : 0 < value) (small : value < 2 ^ 128) :
    wrap128 (value + (2 ^ 128 - 1)) = value - 1 := by
  unfold wrap128
  omega

private theorem narrow (x : Nat) :
    (match (if x ≤ UINT64_MAX then some x else none : Option Nat) with
      | some quotient =>
        (pure (if (quotient : Int) ≤ INT64_MAX then some (quotient : Int) else none) :
          Except Fault (Option Int))
      | none => pure none) =
    .ok (if (x : Int) ≤ INT64_MAX then some (x : Int) else none) := by
  by_cases fits : x ≤ UINT64_MAX
  · rw [if_pos fits]
    rfl
  · have large : ¬ (x : Int) ≤ INT64_MAX := by
      unfold UINT64_MAX at fits
      unfold INT64_MAX
      omega
    rw [if_neg fits, if_neg large]
    rfl

theorem bigDivideUnsigned_eq (a b c : Nat) (rounding : Rounding) (positive : 0 < c)
    (small : a * b + c < 2 ^ 128) :
    bigDivideUnsigned a b c rounding =
      let x := match rounding with
        | .ROUND_DOWN => a * b / c
        | .ROUND_UP => (a * b + c - 1) / c
      if x ≤ UINT64_MAX then some x else none := by
  unfold bigDivideUnsigned
  rw [wrap128_of_lt (show a * b < 2 ^ 128 by omega), wrap128_pred (by omega) small]

theorem bigDivide_eq (a b c : Int) (rounding : Rounding) (aNonneg : 0 ≤ a) (aFits : a ≤ INT64_MAX)
    (bNonneg : 0 ≤ b) (bFits : b ≤ INT64_MAX) (positive : 0 < c) (cFits : c ≤ INT64_MAX) :
    bigDivide a b c rounding =
      .ok (if quotient rounding (a * b) c ≤ INT64_MAX
        then some (quotient rounding (a * b) c) else none) := by
  obtain ⟨a, rfl⟩ := Int.eq_ofNat_of_zero_le aNonneg
  obtain ⟨b, rfl⟩ := Int.eq_ofNat_of_zero_le bNonneg
  obtain ⟨c, rfl⟩ := Int.eq_ofNat_of_zero_le positive.le
  have cPositive : 0 < c := by omega
  have productFits : a * b ≤ 9223372036854775807 * 9223372036854775807 := by
    unfold INT64_MAX at aFits bFits
    exact Nat.mul_le_mul (by omega) (by omega)
  have small : a * b + c < 2 ^ 128 := by
    unfold INT64_MAX at cFits
    norm_num at productFits ⊢
    omega
  have asserted : decide (0 ≤ (a : Int) ∧ 0 ≤ (b : Int) ∧ 0 < (c : Int)) = true := by
    simp [cPositive]
  unfold bigDivide assertThat
  rw [if_pos asserted]
  simp only [pure_bind, Int.toNat_natCast]
  rw [bigDivideUnsigned_eq a b c rounding cPositive small]
  cases rounding with
  | ROUND_DOWN =>
      refine (narrow (a * b / c)).trans ?_
      have cast : ((a * b / c : Nat) : Int) = quotient .ROUND_DOWN ((a : Int) * b) c := by
        rw [Int.natCast_ediv, Nat.cast_mul]
        rfl
      rw [cast]
  | ROUND_UP =>
      refine (narrow ((a * b + c - 1) / c)).trans ?_
      have cast : (((a * b + c - 1) / c : Nat) : Int) = quotient .ROUND_UP ((a : Int) * b) c := by
        rw [Int.natCast_ediv, Nat.cast_sub (by omega)]
        push_cast
        rfl
      rw [cast]

/-- The sum may reach `2 ^ 128`: it then wraps, and taking one off wraps back. -/
private theorem wrap128_sum_pred {value : Nat} (positive : 0 < value) (fits : value ≤ 2 ^ 128) :
    wrap128 (wrap128 value + (2 ^ 128 - 1)) = value - 1 := by
  unfold wrap128
  omega

theorem bigDivide128Unsigned_eq (a b : Nat) (rounding : Rounding) (positive : 0 < b)
    (bFits : b ≤ UINT64_MAX) (small : a < 2 ^ 128) :
    bigDivide128Unsigned a b rounding =
      let x := match rounding with
        | .ROUND_DOWN => a / b
        | .ROUND_UP => (a + b - 1) / b
      if x ≤ UINT64_MAX then some x else none := by
  unfold UINT64_MAX at bFits
  unfold bigDivide128Unsigned
  cases rounding with
  | ROUND_DOWN => rw [if_neg (fun both => Rounding.noConfusion both.1)]
  | ROUND_UP =>
      by_cases tooLarge : (2 ^ 128 - 1) - (b - 1) < a
      · rw [if_pos ⟨rfl, tooLarge⟩]
        have large : ¬ (a + b - 1) / b ≤ UINT64_MAX := by
          rw [Nat.not_le, Nat.lt_div_iff_mul_lt positive]
          unfold UINT64_MAX
          omega
        exact (if_neg large).symm
      · rw [if_neg (fun both => tooLarge both.2)]
        dsimp only
        rw [wrap128_sum_pred (by omega) (by omega)]

theorem bigDivide128_eq (a : Nat) (b : Int) (rounding : Rounding) (positive : 0 < b)
    (bFits : b ≤ INT64_MAX) (small : a < 2 ^ 128) :
    bigDivide128 a b rounding =
      .ok (if quotient rounding a b ≤ INT64_MAX then some (quotient rounding a b) else none) := by
  obtain ⟨b, rfl⟩ := Int.eq_ofNat_of_zero_le positive.le
  have bPositive : 0 < b := by omega
  have bSmall : b ≤ UINT64_MAX := by
    unfold INT64_MAX at bFits
    unfold UINT64_MAX
    omega
  have asserted : decide (0 < (b : Int)) = true := by simp [bPositive]
  unfold bigDivide128 assertThat
  rw [if_pos asserted]
  simp only [pure_bind, Int.toNat_natCast]
  rw [bigDivide128Unsigned_eq a b rounding bPositive bSmall small]
  cases rounding with
  | ROUND_DOWN =>
      refine (narrow (a / b)).trans ?_
      have cast : ((a / b : Nat) : Int) = quotient .ROUND_DOWN (a : Int) b := by
        rw [Int.natCast_ediv]
        rfl
      rw [cast]
  | ROUND_UP =>
      refine (narrow ((a + b - 1) / b)).trans ?_
      have cast : (((a + b - 1) / b : Nat) : Int) = quotient .ROUND_UP (a : Int) b := by
        rw [Int.natCast_ediv, Nat.cast_sub (by omega)]
        push_cast
        rfl
      rw [cast]

end ViiCore
