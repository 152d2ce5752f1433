import Mathlib.Data.Nat.Size
import Mathlib.Tactic.Linarith
import Mathlib.Tactic.Ring
import ViiCore.Util.Numeric

/-!
The class `uint128_t` (`lib/util/uint128_t.h`, `lib/util/uint128_t.cpp`), as far as the divisions
use it.

A value is two words. The operators work on the words; each of them is the operation on numbers
modulo `2 ^ 128`, and the division, which shifts and subtracts, is exact.
-/

namespace ViiCore

structure Uint128 where
  UPPER : UInt64
  LOWER : UInt64
  deriving DecidableEq

namespace Uint128

def ofUInt64 (rhs : UInt64) : Uint128 := ⟨0, rhs⟩

def uint128_0 : Uint128 := ofUInt64 0

def uint128_1 : Uint128 := ofUInt64 1

def complement (lhs : Uint128) : Uint128 := ⟨~~~lhs.UPPER, ~~~lhs.LOWER⟩

def or (lhs rhs : Uint128) : Uint128 := ⟨lhs.UPPER ||| rhs.UPPER, lhs.LOWER ||| rhs.LOWER⟩

def shiftLeft (lhs rhs : Uint128) : Uint128 :=
  let shift := rhs.LOWER
  if rhs.UPPER ≠ 0 ∨ shift ≥ 128 then uint128_0
  else if shift = 64 then ⟨lhs.LOWER, 0⟩
  else if shift = 0 then lhs
  else if shift < 64 then
    ⟨(lhs.UPPER <<< shift) + (lhs.LOWER >>> (64 - shift)), lhs.LOWER <<< shift⟩
  else if 128 > shift ∧ shift > 64 then ⟨lhs.LOWER <<< (shift - 64), 0⟩
  else uint128_0

def shiftRight (lhs rhs : Uint128) : Uint128 :=
  let shift := rhs.LOWER
  if rhs.UPPER ≠ 0 ∨ shift ≥ 128 then uint128_0
  else if shift = 64 then ⟨0, lhs.UPPER⟩
  else if shift = 0 then lhs
  else if shift < 64 then
    ⟨lhs.UPPER >>> shift, (lhs.UPPER <<< (64 - shift)) + (lhs.LOWER >>> shift)⟩
  else if 128 > shift ∧ shift > 64 then ⟨0, lhs.UPPER >>> (shift - 64)⟩
  else uint128_0

def greater (lhs rhs : Uint128) : Bool :=
  if lhs.UPPER = rhs.UPPER then lhs.LOWER > rhs.LOWER else lhs.UPPER > rhs.UPPER

def less (lhs rhs : Uint128) : Bool :=
  if lhs.UPPER = rhs.UPPER then lhs.LOWER < rhs.LOWER else lhs.UPPER < rhs.UPPER

def greaterEqual (lhs rhs : Uint128) : Bool := lhs.greater rhs || lhs = rhs

def lessEqualWord (lhs : Uint128) (rhs : UInt64) : Bool :=
  (lhs.UPPER = 0 && lhs.LOWER < rhs) || (lhs.UPPER = 0 && lhs.LOWER = rhs)

def carry (holds : Bool) : UInt64 := if holds then 1 else 0

def plus (lhs rhs : Uint128) : Uint128 :=
  ⟨lhs.UPPER + rhs.UPPER + carry (lhs.LOWER + rhs.LOWER < lhs.LOWER), lhs.LOWER + rhs.LOWER⟩

def minus (lhs rhs : Uint128) : Uint128 :=
  ⟨lhs.UPPER - rhs.UPPER - carry (lhs.LOWER - rhs.LOWER > lhs.LOWER), lhs.LOWER - rhs.LOWER⟩

def minusWord (lhs : Uint128) (rhs : UInt64) : Uint128 :=
  ⟨lhs.UPPER - carry (lhs.LOWER - rhs > lhs.LOWER), lhs.LOWER - rhs⟩

def low32 (word : UInt64) : UInt64 := word &&& 0xffffffff

/-- `operator*`; `pxy` is `products[x][y]`. -/
def times (lhs rhs : Uint128) : Uint128 :=
  let t0 := lhs.UPPER >>> 32
  let t1 := low32 lhs.UPPER
  let t2 := lhs.LOWER >>> 32
  let t3 := low32 lhs.LOWER
  let b0 := rhs.UPPER >>> 32
  let b1 := low32 rhs.UPPER
  let b2 := rhs.LOWER >>> 32
  let b3 := low32 rhs.LOWER
  let p00 := t3 * b0
  let p01 := t3 * b1
  let p02 := t3 * b2
  let p03 := t3 * b3
  let p11 := t2 * b1
  let p12 := t2 * b2
  let p13 := t2 * b3
  let p22 := t1 * b2
  let p23 := t1 * b3
  let p33 := t0 * b3
  let fourth32 := low32 p03
  let third32 := low32 p02 + (p03 >>> 32)
  let second32 := low32 p01 + (p02 >>> 32)
  let first32 := low32 p00 + (p01 >>> 32)
  let third32 := third32 + low32 p13
  let second32 := second32 + (low32 p12 + (p13 >>> 32))
  let first32 := first32 + (low32 p11 + (p12 >>> 32))
  let second32 := second32 + low32 p23
  let first32 := first32 + (low32 p22 + (p23 >>> 32))
  let first32 := first32 + low32 p33
  (((⟨first32 <<< 32, 0⟩ : Uint128).plus ⟨third32 >>> 32, third32 <<< 32⟩).plus ⟨second32, 0⟩).plus
    (ofUInt64 fourth32)

def wordBits : Nat → UInt64 → Nat
  | 0, _ => 0
  | rest + 1, word => if word = 0 then 0 else wordBits rest (word >>> 1) + 1

/-- A word has 64 bits, so its loop ends. -/
def bits (value : Uint128) : Nat :=
  if value.UPPER ≠ 0 then 64 + wordBits 64 value.UPPER else wordBits 64 value.LOWER

def toNat (value : Uint128) : Nat := value.UPPER.toNat * 2 ^ 64 + value.LOWER.toNat

/-! ### Operations that leave the range

An operation whose exact result is no value of the type yields it modulo `2 ^ 128`. The computations
below go on with that value as the source does and also note the operation, so that one can say that
none of this kind took place. -/

inductive Uint128Operation where
  | times
  | plus
  | minus
  | shiftLeft
  deriving DecidableEq

/-- The state holds the operations noted so far, the latest first. -/
abbrev Arithmetic := StateT (List Uint128Operation) (Except Fault)

def noteIf (leaves : Bool) (operation : Uint128Operation) : Arithmetic Unit :=
  if leaves then modify (operation :: ·) else pure ()

def timesNoting (lhs rhs : Uint128) : Arithmetic Uint128 := do
  noteIf (2 ^ 128 ≤ lhs.toNat * rhs.toNat) .times
  return lhs.times rhs

def plusNoting (lhs rhs : Uint128) : Arithmetic Uint128 := do
  noteIf (2 ^ 128 ≤ lhs.toNat + rhs.toNat) .plus
  return lhs.plus rhs

def minusNoting (lhs rhs : Uint128) : Arithmetic Uint128 := do
  noteIf (lhs.toNat < rhs.toNat) .minus
  return lhs.minus rhs

def minusWordNoting (lhs : Uint128) (rhs : UInt64) : Arithmetic Uint128 := do
  noteIf (lhs.toNat < rhs.toNat) .minus
  return lhs.minusWord rhs

def shiftLeftNoting (lhs rhs : Uint128) : Arithmetic Uint128 := do
  noteIf (2 ^ 128 ≤ lhs.toNat * 2 ^ rhs.toNat) .shiftLeft
  return lhs.shiftLeft rhs

/-- The loop of `divmod`, with the two halves of `qr`. -/
def divmodLoop (rhs : Uint128) :
    Nat → Uint128 → Uint128 → Uint128 → Uint128 → Arithmetic (Uint128 × Uint128)
  | 0, _, _, _, _ => throw .diverged
  | rounds + 1, first, second, copyd, adder =>
      if second.greaterEqual rhs then
        if second.greaterEqual copyd then do
          let second ← second.minusNoting copyd
          divmodLoop rhs rounds (first.or adder) second (copyd.shiftRight uint128_1)
            (adder.shiftRight uint128_1)
        else
          divmodLoop rhs rounds first second (copyd.shiftRight uint128_1)
            (adder.shiftRight uint128_1)
      else return (first, second)

/-- The quotient takes at most 128 rounds, and one more finds the end. -/
def divmod (lhs rhs : Uint128) : Arithmetic (Uint128 × Uint128) :=
  if rhs = uint128_0 then throw (.runtimeError "Error: division or modulus by 0")
  else if rhs = uint128_1 then return (lhs, uint128_0)
  else if lhs = rhs then return (uint128_1, uint128_0)
  else if lhs = uint128_0 ∨ lhs.less rhs then return (uint128_0, lhs)
  else do
    let shift := ofUInt64 (UInt64.ofNat (lhs.bits - rhs.bits))
    let copyd ← rhs.shiftLeftNoting shift
    let adder ← uint128_1.shiftLeftNoting shift
    if copyd.greater lhs then
      divmodLoop rhs 129 uint128_0 lhs (copyd.shiftRight uint128_1) (adder.shiftRight uint128_1)
    else divmodLoop rhs 129 uint128_0 lhs copyd adder

def divide (lhs rhs : Uint128) : Arithmetic Uint128 := do
  let qr ← divmod lhs rhs
  return qr.1

/-! ### The values -/

theorem toNat_lt (value : Uint128) : value.toNat < 2 ^ 128 := by
  have upper := value.UPPER.toNat_lt
  have lower := value.LOWER.toNat_lt
  unfold toNat
  omega

theorem toNat_inj {lhs rhs : Uint128} : lhs.toNat = rhs.toNat ↔ lhs = rhs := by
  constructor
  · intro same
    have lower := lhs.LOWER.toNat_lt
    have lower' := rhs.LOWER.toNat_lt
    unfold toNat at same
    obtain ⟨upper₁, lower₁⟩ := lhs
    obtain ⟨upper₂, lower₂⟩ := rhs
    dsimp only at same lower lower'
    obtain rfl : upper₁ = upper₂ := UInt64.toNat_inj.mp (by omega)
    obtain rfl : lower₁ = lower₂ := UInt64.toNat_inj.mp (by omega)
    rfl
  · exact congrArg toNat

@[simp] theorem toNat_ofUInt64 (word : UInt64) : (ofUInt64 word).toNat = word.toNat := by
  simp [toNat, ofUInt64]

@[simp] theorem toNat_zero : uint128_0.toNat = 0 := rfl

@[simp] theorem toNat_one : uint128_1.toNat = 1 := rfl

theorem toNat_complement_zero : (complement uint128_0).toNat = 2 ^ 128 - 1 := by decide

theorem greater_iff (lhs rhs : Uint128) : lhs.greater rhs = true ↔ rhs.toNat < lhs.toNat := by
  have lower := lhs.LOWER.toNat_lt
  have lower' := rhs.LOWER.toNat_lt
  unfold greater toNat
  split
  · rename_i same
    rw [decide_eq_true_eq, gt_iff_lt, UInt64.lt_iff_toNat_lt, same]
    omega
  · rename_i different
    rw [decide_eq_true_eq, gt_iff_lt, UInt64.lt_iff_toNat_lt]
    rw [← UInt64.toNat_inj] at different
    omega

theorem less_iff (lhs rhs : Uint128) : lhs.less rhs = true ↔ lhs.toNat < rhs.toNat := by
  rw [← greater_iff]
  unfold less greater
  simp only [gt_iff_lt, eq_comm]

theorem greaterEqual_iff (lhs rhs : Uint128) :
    lhs.greaterEqual rhs = true ↔ rhs.toNat ≤ lhs.toNat := by
  unfold greaterEqual
  rw [Bool.or_eq_true, greater_iff, decide_eq_true_eq, ← toNat_inj]
  omega

theorem lessEqualWord_iff (lhs : Uint128) (rhs : UInt64) :
    lhs.lessEqualWord rhs = true ↔ lhs.toNat ≤ rhs.toNat := by
  have fits := rhs.toNat_lt
  unfold lessEqualWord toNat
  simp only [Bool.or_eq_true, Bool.and_eq_true, decide_eq_true_eq, UInt64.lt_iff_toNat_lt,
    ← UInt64.toNat_inj, UInt64.toNat_zero]
  omega

/-! ### Addition, subtraction and multiplication -/

theorem carry_toNat (holds : Bool) : (carry holds).toNat = if holds then 1 else 0 := by
  cases holds <;> rfl

theorem toNat_plus (lhs rhs : Uint128) :
    (lhs.plus rhs).toNat = (lhs.toNat + rhs.toNat) % 2 ^ 128 := by
  have low := lhs.LOWER.toNat_lt
  have low' := rhs.LOWER.toNat_lt
  have up := lhs.UPPER.toNat_lt
  have up' := rhs.UPPER.toNat_lt
  unfold plus toNat
  simp only [UInt64.toNat_add, carry_toNat, decide_eq_true_eq, UInt64.lt_iff_toNat_lt]
  split_ifs with wraps
  · omega
  · omega

theorem toNat_minus (lhs rhs : Uint128) :
    (lhs.minus rhs).toNat = (lhs.toNat + (2 ^ 128 - rhs.toNat)) % 2 ^ 128 := by
  have low := lhs.LOWER.toNat_lt
  have low' := rhs.LOWER.toNat_lt
  have up := lhs.UPPER.toNat_lt
  have up' := rhs.UPPER.toNat_lt
  unfold minus toNat
  simp only [UInt64.toNat_sub, carry_toNat, decide_eq_true_eq, gt_iff_lt, UInt64.lt_iff_toNat_lt]
  split_ifs with wraps
  · omega
  · omega

theorem toNat_minusWord (lhs : Uint128) (rhs : UInt64) :
    (lhs.minusWord rhs).toNat = (lhs.toNat + (2 ^ 128 - rhs.toNat)) % 2 ^ 128 := by
  rw [← toNat_ofUInt64 rhs, ← toNat_minus]
  unfold minusWord minus ofUInt64
  rw [UInt64.sub_zero]

theorem toNat_minus_of_le {lhs rhs : Uint128} (below : rhs.toNat ≤ lhs.toNat) :
    (lhs.minus rhs).toNat = lhs.toNat - rhs.toNat := by
  have fits := lhs.toNat_lt
  rw [toNat_minus]
  omega

theorem low32_toNat (word : UInt64) : (low32 word).toNat = word.toNat % 2 ^ 32 := by
  unfold low32
  rw [UInt64.toNat_and]
  exact Nat.and_two_pow_sub_one_eq_mod word.toNat 32

theorem shiftRight32_toNat (word : UInt64) : (word >>> 32).toNat = word.toNat / 2 ^ 32 := by
  rw [UInt64.toNat_shiftRight]
  exact Nat.shiftRight_eq_div_pow _ 32

theorem shiftLeft32_toNat (word : UInt64) : (word <<< 32).toNat = word.toNat * 2 ^ 32 % 2 ^ 64 := by
  rw [UInt64.toNat_shiftLeft]
  exact congrArg (fun shifted => shifted % 2 ^ 64) (Nat.shiftLeft_eq _ 32)

theorem times32_toNat {left right : UInt64} (isLeft : left.toNat < 2 ^ 32)
    (isRight : right.toNat < 2 ^ 32) :
    (left * right).toNat = left.toNat * right.toNat ∧ left.toNat * right.toNat < 2 ^ 64 := by
  have bound : left.toNat * right.toNat < 2 ^ 32 * 2 ^ 32 := Nat.mul_lt_mul'' isLeft isRight
  constructor
  · rw [UInt64.toNat_mul]
    exact Nat.mod_eq_of_lt bound
  · exact bound

/-- The four numbers of the last line of `operator*` carry the weights of their 32-bit places. -/
theorem columns_toNat {first second third fourth : UInt64} :
    ((((⟨first <<< 32, 0⟩ : Uint128).plus ⟨third >>> 32, third <<< 32⟩).plus ⟨second, 0⟩).plus
        (ofUInt64 fourth)).toNat =
      (first.toNat * 2 ^ 96 + second.toNat * 2 ^ 64 + third.toNat * 2 ^ 32 + fourth.toNat) %
        2 ^ 128 := by
  rw [toNat_plus, toNat_plus, toNat_plus, toNat_ofUInt64]
  simp only [toNat, shiftLeft32_toNat, shiftRight32_toNat, UInt64.toNat_zero]
  omega

theorem toNat_times (lhs rhs : Uint128) :
    (lhs.times rhs).toNat = lhs.toNat * rhs.toNat % 2 ^ 128 := by
  have high (word : UInt64) : (word >>> 32).toNat < 2 ^ 32 := by
    have fits := word.toNat_lt
    rw [shiftRight32_toNat]
    omega
  have low (word : UInt64) : (low32 word).toNat < 2 ^ 32 := by
    rw [low32_toNat]
    omega
  have split (word : UInt64) :
      word.toNat = (word >>> 32).toNat * 2 ^ 32 + (low32 word).toNat := by
    rw [shiftRight32_toNat, low32_toNat]
    omega
  unfold times
  dsimp only
  have t0 := high lhs.UPPER
  have t1 := low lhs.UPPER
  have t2 := high lhs.LOWER
  have t3 := low lhs.LOWER
  have b0 := high rhs.UPPER
  have b1 := low rhs.UPPER
  have b2 := high rhs.LOWER
  have b3 := low rhs.LOWER
  -- The places from `2 ^ 128` on drop out.
  have product : lhs.toNat * rhs.toNat =
      ((low32 lhs.LOWER).toNat * (rhs.UPPER >>> 32).toNat +
          (lhs.LOWER >>> 32).toNat * (low32 rhs.UPPER).toNat +
          (low32 lhs.UPPER).toNat * (rhs.LOWER >>> 32).toNat +
          (lhs.UPPER >>> 32).toNat * (low32 rhs.LOWER).toNat) * 2 ^ 96 +
        ((low32 lhs.LOWER).toNat * (low32 rhs.UPPER).toNat +
          (lhs.LOWER >>> 32).toNat * (rhs.LOWER >>> 32).toNat +
          (low32 lhs.UPPER).toNat * (low32 rhs.LOWER).toNat) * 2 ^ 64 +
        ((low32 lhs.LOWER).toNat * (rhs.LOWER >>> 32).toNat +
          (lhs.LOWER >>> 32).toNat * (low32 rhs.LOWER).toNat) * 2 ^ 32 +
        (low32 lhs.LOWER).toNat * (low32 rhs.LOWER).toNat +
        ((lhs.LOWER >>> 32).toNat * (rhs.UPPER >>> 32).toNat +
          (low32 lhs.UPPER).toNat * (low32 rhs.UPPER).toNat +
          (lhs.UPPER >>> 32).toNat * (rhs.LOWER >>> 32).toNat +
          ((low32 lhs.UPPER).toNat * (rhs.UPPER >>> 32).toNat +
            (lhs.UPPER >>> 32).toNat * (low32 rhs.UPPER).toNat) * 2 ^ 32 +
          (lhs.UPPER >>> 32).toNat * (rhs.UPPER >>> 32).toNat * 2 ^ 64) * 2 ^ 128 := by
    unfold toNat
    rw [split lhs.UPPER, split lhs.LOWER, split rhs.UPPER, split rhs.LOWER]
    ring
  rw [product, Nat.add_mul_mod_self_right]
  obtain ⟨p00, fits00⟩ := times32_toNat t3 b0
  obtain ⟨p01, fits01⟩ := times32_toNat t3 b1
  obtain ⟨p02, fits02⟩ := times32_toNat t3 b2
  obtain ⟨p03, fits03⟩ := times32_toNat t3 b3
  obtain ⟨p11, fits11⟩ := times32_toNat t2 b1
  obtain ⟨p12, fits12⟩ := times32_toNat t2 b2
  obtain ⟨p13, fits13⟩ := times32_toNat t2 b3
  obtain ⟨p22, fits22⟩ := times32_toNat t1 b2
  obtain ⟨p23, fits23⟩ := times32_toNat t1 b3
  obtain ⟨p33, fits33⟩ := times32_toNat t0 b3
  rw [← p00, ← p01, ← p02, ← p03, ← p11, ← p12, ← p13, ← p22, ← p23, ← p33]
  rw [← p00] at fits00
  rw [← p01] at fits01
  rw [← p02] at fits02
  rw [← p03] at fits03
  rw [← p11] at fits11
  rw [← p12] at fits12
  rw [← p13] at fits13
  rw [← p22] at fits22
  rw [← p23] at fits23
  rw [← p33] at fits33
  generalize low32 lhs.LOWER * (rhs.UPPER >>> 32) = q00 at *
  generalize low32 lhs.LOWER * low32 rhs.UPPER = q01 at *
  generalize low32 lhs.LOWER * (rhs.LOWER >>> 32) = q02 at *
  generalize low32 lhs.LOWER * low32 rhs.LOWER = q03 at *
  generalize (lhs.LOWER >>> 32) * low32 rhs.UPPER = q11 at *
  generalize (lhs.LOWER >>> 32) * (rhs.LOWER >>> 32) = q12 at *
  generalize (lhs.LOWER >>> 32) * low32 rhs.LOWER = q13 at *
  generalize low32 lhs.UPPER * (rhs.LOWER >>> 32) = q22 at *
  generalize low32 lhs.UPPER * low32 rhs.LOWER = q23 at *
  generalize (lhs.UPPER >>> 32) * low32 rhs.LOWER = q33 at *
  rw [columns_toNat]
  simp only [UInt64.toNat_add, low32_toNat, shiftRight32_toNat]
  omega

/-! ### Shifts, disjunction and the number of bits -/

theorem toNat_shiftRight_one (value : Uint128) :
    (value.shiftRight uint128_1).toNat = value.toNat / 2 := by
  have halves : value.shiftRight uint128_1 =
      ⟨value.UPPER >>> 1, (value.UPPER <<< 63) + (value.LOWER >>> 1)⟩ := rfl
  have up := value.UPPER.toNat_lt
  have low := value.LOWER.toNat_lt
  rw [halves]
  unfold toNat
  have left : (value.UPPER <<< 63).toNat = value.UPPER.toNat * 2 ^ 63 % 2 ^ 64 := by
    rw [UInt64.toNat_shiftLeft]
    exact congrArg (fun shifted => shifted % 2 ^ 64) (Nat.shiftLeft_eq _ 63)
  have right (word : UInt64) : (word >>> 1).toNat = word.toNat / 2 := by
    rw [UInt64.toNat_shiftRight]
    exact Nat.shiftRight_eq_div_pow _ 1
  simp only [UInt64.toNat_add, left, right]
  omega

theorem wordShiftLeft_toNat (word shift : UInt64) (small : shift.toNat < 64) :
    (word <<< shift).toNat = word.toNat * 2 ^ shift.toNat % 2 ^ 64 := by
  rw [UInt64.toNat_shiftLeft, Nat.mod_eq_of_lt small, Nat.shiftLeft_eq]

theorem wordShiftRight_toNat (word shift : UInt64) (small : shift.toNat < 64) :
    (word >>> shift).toNat = word.toNat / 2 ^ shift.toNat := by
  rw [UInt64.toNat_shiftRight, Nat.mod_eq_of_lt small, Nat.shiftRight_eq_div_pow]

theorem toNat_shiftLeft {value : Uint128} {shift : UInt64} (small : shift.toNat < 128)
    (fits : value.toNat * 2 ^ shift.toNat < 2 ^ 128) :
    (value.shiftLeft (ofUInt64 shift)).toNat = value.toNat * 2 ^ shift.toNat := by
  have low := value.LOWER.toNat_lt
  have inRange : ¬ ((ofUInt64 shift).UPPER ≠ 0 ∨ (ofUInt64 shift).LOWER ≥ 128) := by
    rintro (upper | beyond)
    · exact upper rfl
    · exact absurd (UInt64.le_iff_toNat_le.mp beyond) (Nat.not_le.mpr small)
  have isLower : (ofUInt64 shift).LOWER = shift := rfl
  unfold shiftLeft
  dsimp only
  rw [if_neg inRange, isLower]
  by_cases is64 : shift = 64
  · rw [if_pos is64]
    rw [is64] at fits ⊢
    have amount : (64 : UInt64).toNat = 64 := rfl
    rw [amount] at fits ⊢
    unfold toNat at fits ⊢
    dsimp only
    rw [UInt64.toNat_zero]
    omega
  rw [if_neg is64]
  by_cases isZero : shift = 0
  · rw [if_pos isZero, isZero, UInt64.toNat_zero, pow_zero, Nat.mul_one]
  rw [if_neg isZero]
  have not64 : shift.toNat ≠ 64 := fun same => is64 (UInt64.toNat_inj.mp same)
  have positive : shift.toNat ≠ 0 := fun zero => isZero (UInt64.toNat_inj.mp zero)
  by_cases below : shift < 64
  · -- The bits that leave the lower word enter the upper one.
    rw [if_pos below]
    have amount : shift.toNat < 64 := UInt64.lt_iff_toNat_lt.mp below
    have rest : (64 - shift).toNat = 64 - shift.toNat := by
      rw [UInt64.toNat_sub_of_le _ _ (UInt64.le_iff_toNat_le.mpr amount.le)]
      rfl
    have restSmall : (64 - shift).toNat < 64 := by omega
    unfold toNat at fits ⊢
    dsimp only
    rw [UInt64.toNat_add, wordShiftLeft_toNat _ _ amount, wordShiftLeft_toNat _ _ amount,
      wordShiftRight_toNat _ _ restSmall, rest]
    have split : 2 ^ (64 - shift.toNat) * 2 ^ shift.toNat = 2 ^ 64 := by
      rw [← pow_add]
      congr 1
      omega
    generalize 2 ^ shift.toNat = factor at *
    generalize 2 ^ (64 - shift.toNat) = cofactor at *
    have cofactorPositive : 0 < cofactor := by
      apply Nat.pos_of_ne_zero
      intro zero
      rw [zero, Nat.zero_mul] at split
      omega
    have division := Nat.div_add_mod value.LOWER.toNat cofactor
    have lowest : value.LOWER.toNat % cofactor * factor < 2 ^ 64 := by
      rw [← split]
      exact Nat.mul_lt_mul_of_pos_right (Nat.mod_lt _ cofactorPositive)
        (Nat.pos_of_ne_zero fun zero => by rw [zero, Nat.mul_zero] at split; omega)
    have lower : value.LOWER.toNat * factor =
        value.LOWER.toNat / cofactor * 2 ^ 64 + value.LOWER.toNat % cofactor * factor := by
      rw [← split]
      conv_lhs => rw [← division]
      ring
    have total : (value.UPPER.toNat * 2 ^ 64 + value.LOWER.toNat) * factor =
        value.UPPER.toNat * factor * 2 ^ 64 + value.LOWER.toNat * factor := by ring
    rw [total, lower] at fits ⊢
    omega
  · rw [if_neg below]
    have above : 64 < shift.toNat := by
      rw [UInt64.lt_iff_toNat_lt] at below
      have amount : (64 : UInt64).toNat = 64 := rfl
      omega
    rw [if_pos ⟨UInt64.lt_iff_toNat_lt.mpr small, UInt64.lt_iff_toNat_lt.mpr above⟩]
    have rest : (shift - 64).toNat = shift.toNat - 64 := by
      have ordered : (64 : UInt64).toNat ≤ shift.toNat := Nat.le_of_lt above
      rw [UInt64.toNat_sub_of_le _ _ (UInt64.le_iff_toNat_le.mpr ordered)]
      rfl
    have restSmall : (shift - 64).toNat < 64 := by omega
    unfold toNat at fits ⊢
    dsimp only
    rw [wordShiftLeft_toNat _ _ restSmall, rest, UInt64.toNat_zero]
    have split : 2 ^ shift.toNat = 2 ^ (shift.toNat - 64) * 2 ^ 64 := by
      rw [← pow_add]
      congr 1
      omega
    rw [split] at fits ⊢
    generalize 2 ^ (shift.toNat - 64) = factor at *
    have total : (value.UPPER.toNat * 2 ^ 64 + value.LOWER.toNat) * (factor * 2 ^ 64) =
        value.UPPER.toNat * factor * 2 ^ 128 + value.LOWER.toNat * factor * 2 ^ 64 := by ring
    rw [total] at fits ⊢
    omega

theorem toNat_or (lhs rhs : Uint128) : (lhs.or rhs).toNat = lhs.toNat ||| rhs.toNat := by
  have places (value : Uint128) :
      value.toNat = 2 ^ 64 * value.UPPER.toNat ||| value.LOWER.toNat := by
    rw [← Nat.two_pow_add_eq_or_of_lt value.LOWER.toNat_lt, toNat, Nat.mul_comm]
  rw [places lhs, places rhs, places (lhs.or rhs)]
  unfold or
  dsimp only
  rw [UInt64.toNat_or, UInt64.toNat_or]
  apply Nat.eq_of_testBit_eq
  intro place
  simp only [Nat.testBit_or, Nat.testBit_two_pow_mul, Bool.and_or_distrib_left]
  ac_rfl

theorem toNat_or_power {first adder : Uint128} {place : Nat} (isPower : adder.toNat = 2 ^ place)
    (divides : 2 ^ (place + 1) ∣ first.toNat) :
    (first.or adder).toNat = first.toNat + 2 ^ place := by
  obtain ⟨factor, isMultiple⟩ := divides
  have small : 2 ^ place < 2 ^ (place + 1) := Nat.pow_lt_pow_right (by omega) (by omega)
  rw [toNat_or, isPower, isMultiple, Nat.two_pow_add_eq_or_of_lt small]

theorem wordBits_bounds {rounds : Nat} {word : UInt64} (fits : word.toNat < 2 ^ rounds)
    (nonzero : word ≠ 0) :
    wordBits rounds word ≤ rounds ∧ word.toNat < 2 ^ wordBits rounds word ∧
      2 ^ wordBits rounds word ≤ 2 * word.toNat := by
  have half (word : UInt64) : (word >>> 1).toNat = word.toNat / 2 := by
    rw [UInt64.toNat_shiftRight]
    exact Nat.shiftRight_eq_div_pow _ 1
  have positive {word : UInt64} (nonzero : word ≠ 0) : 0 < word.toNat :=
    Nat.pos_of_ne_zero fun zero => nonzero (UInt64.toNat_inj.mp zero)
  induction rounds generalizing word with
  | zero =>
      have := positive nonzero
      omega
  | succ rounds ih =>
      have isPositive := positive nonzero
      unfold wordBits
      rw [if_neg nonzero]
      by_cases last : word >>> 1 = 0
      · have one : word.toNat / 2 = 0 := by
          rw [← half, last]
          rfl
        have noMore : wordBits rounds (word >>> 1) = 0 := by
          rw [last]
          cases rounds <;> rfl
        rw [noMore]
        omega
      · have smaller : (word >>> 1).toNat < 2 ^ rounds := by
          rw [half]
          rw [pow_succ] at fits
          omega
        obtain ⟨few, below, above⟩ := ih smaller last
        rw [half] at below above
        rw [pow_succ]
        omega

theorem bits_bounds {value : Uint128} (nonzero : value ≠ uint128_0) :
    value.bits ≤ 128 ∧ value.toNat < 2 ^ value.bits ∧ 2 ^ value.bits ≤ 2 * value.toNat := by
  have low := value.LOWER.toNat_lt
  unfold bits
  by_cases upper : value.UPPER ≠ 0
  · rw [if_pos upper]
    obtain ⟨few, below, above⟩ := wordBits_bounds value.UPPER.toNat_lt upper
    rw [pow_add]
    unfold toNat
    omega
  · rw [if_neg upper]
    rw [not_not] at upper
    have lower : value.LOWER ≠ 0 := by
      intro zero
      exact nonzero (by cases value; cases upper; cases zero; rfl)
    obtain ⟨few, below, above⟩ := wordBits_bounds low lower
    unfold toNat
    rw [upper, UInt64.toNat_zero]
    omega

/-! ### Division -/

theorem noteIf_not {leaves : Prop} [Decidable leaves] (operation : Uint128Operation)
    (stays : ¬ leaves) : noteIf (decide leaves) operation = pure () := by
  rw [decide_eq_false stays]
  rfl

theorem run_noteIf (leaves : Prop) [Decidable leaves] (operation : Uint128Operation)
    (value : Uint128) (noted : List Uint128Operation) :
    (do noteIf (decide leaves) operation; pure value : Arithmetic Uint128).run noted =
      .ok (value, if leaves then operation :: noted else noted) := by
  unfold noteIf
  by_cases holds : leaves
  · rw [decide_eq_true holds, if_pos rfl, if_pos holds]
    rfl
  · rw [decide_eq_false holds, if_neg holds]
    rfl

theorem run_bind_ok {α β : Type} {program : Arithmetic α} {next : α → Arithmetic β} {value : α}
    {noted after : List Uint128Operation} (runs : program.run noted = .ok (value, after)) :
    (program >>= next).run noted = (next value).run after := by
  rw [StateT.run_bind, runs]
  rfl

theorem plusNoting_run (lhs rhs : Uint128) (noted : List Uint128Operation) :
    (lhs.plusNoting rhs).run noted =
      .ok (lhs.plus rhs, if 2 ^ 128 ≤ lhs.toNat + rhs.toNat then .plus :: noted else noted) := by
  unfold plusNoting
  rw [run_noteIf]

theorem minusWordNoting_run (lhs : Uint128) (rhs : UInt64) (noted : List Uint128Operation) :
    (lhs.minusWordNoting rhs).run noted =
      .ok (lhs.minusWord rhs, if lhs.toNat < rhs.toNat then .minus :: noted else noted) := by
  unfold minusWordNoting
  rw [run_noteIf]

theorem minusNoting_of_le {lhs rhs : Uint128} (below : rhs.toNat ≤ lhs.toNat) :
    lhs.minusNoting rhs = pure (lhs.minus rhs) := by
  unfold minusNoting
  rw [noteIf_not _ (Nat.not_lt.mpr below), pure_bind]

theorem shiftLeftNoting_of_fits {value shift : Uint128}
    (fits : value.toNat * 2 ^ shift.toNat < 2 ^ 128) :
    value.shiftLeftNoting shift = pure (value.shiftLeft shift) := by
  unfold shiftLeftNoting
  rw [noteIf_not _ (Nat.not_le.mpr fits), pure_bind]

/-- What holds at the head of the loop as long as it has a round for the place. -/
structure Dividing (lhs rhs : Uint128) (place : Nat) (first second copyd adder : Uint128) : Prop
    where
  multiple : copyd.toNat = rhs.toNat * 2 ^ place
  power : adder.toNat = 2 ^ place
  remainder : second.toNat < 2 * copyd.toNat
  divided : lhs.toNat = first.toNat * rhs.toNat + second.toNat
  places : 2 ^ (place + 1) ∣ first.toNat

def Divided (lhs rhs : Uint128) (qr : Uint128 × Uint128) : Prop :=
  qr.1.toNat = lhs.toNat / rhs.toNat ∧ qr.2.toNat = lhs.toNat % rhs.toNat

theorem divided_of_remainder {lhs rhs first second : Uint128}
    (divided : lhs.toNat = first.toNat * rhs.toNat + second.toNat)
    (small : second.toNat < rhs.toNat) : Divided lhs rhs (first, second) := by
  have positive : 0 < rhs.toNat := by omega
  constructor
  · rw [divided, Nat.mul_comm, Nat.mul_add_div positive, Nat.div_eq_of_lt small, Nat.add_zero]
  · rw [divided, Nat.mul_comm, Nat.mul_add_mod, Nat.mod_eq_of_lt small]

theorem Dividing.subtract {lhs rhs first second copyd adder : Uint128} {place : Nat}
    (dividing : Dividing lhs rhs place first second copyd adder)
    (reached : copyd.toNat ≤ second.toNat) :
    lhs.toNat = (first.or adder).toNat * rhs.toNat + (second.minus copyd).toNat ∧
      (second.minus copyd).toNat < copyd.toNat ∧ 2 ^ place ∣ (first.or adder).toNat := by
  have added := toNat_or_power dividing.power dividing.places
  have subtracted := toNat_minus_of_le reached
  have remainder := dividing.remainder
  refine ⟨?_, by omega, ?_⟩
  · rw [added, subtracted, dividing.divided, Nat.add_mul, Nat.mul_comm (2 ^ place),
      ← dividing.multiple]
    omega
  · rw [added]
    have divides : 2 ^ place ∣ first.toNat :=
      (Nat.pow_dvd_pow 2 (by omega)).trans dividing.places
    exact Nat.dvd_add divides (Nat.dvd_refl _)

theorem Dividing.shift {lhs rhs first second copyd adder : Uint128} {place : Nat}
    (multiple : copyd.toNat = rhs.toNat * 2 ^ (place + 1)) (power : adder.toNat = 2 ^ (place + 1))
    (remainder : second.toNat < copyd.toNat)
    (divided : lhs.toNat = first.toNat * rhs.toNat + second.toNat)
    (places : 2 ^ (place + 1) ∣ first.toNat) :
    Dividing lhs rhs place first second (copyd.shiftRight uint128_1)
      (adder.shiftRight uint128_1) := by
  have halved : copyd.toNat = 2 * (rhs.toNat * 2 ^ place) := by
    rw [multiple, pow_succ]
    ring
  constructor
  case multiple =>
    rw [toNat_shiftRight_one]
    omega
  case power =>
    rw [toNat_shiftRight_one, power, pow_succ]
    omega
  case remainder =>
    rw [toNat_shiftRight_one]
    omega
  case divided => exact divided
  case places => exact places

theorem divmodLoop_ends {rhs first second : Uint128} (small : second.toNat < rhs.toNat)
    (rounds : Nat) (copyd adder : Uint128) :
    divmodLoop rhs (rounds + 1) first second copyd adder = pure (first, second) := by
  have ends : ¬ second.greaterEqual rhs = true := by
    rw [greaterEqual_iff]
    omega
  rw [divmodLoop, if_neg ends]

theorem divmodLoop_spec {lhs rhs : Uint128} (place : Nat) {rounds : Nat}
    (enough : place + 2 ≤ rounds) {first second copyd adder : Uint128}
    (dividing : Dividing lhs rhs place first second copyd adder) :
    ∃ qr, divmodLoop rhs rounds first second copyd adder = pure qr ∧ Divided lhs rhs qr := by
  induction place generalizing rounds first second copyd adder with
  | zero =>
      obtain ⟨rounds, rfl⟩ : ∃ rest, rounds = rest + 2 := ⟨rounds - 2, by omega⟩
      by_cases small : second.toNat < rhs.toNat
      · exact ⟨_, divmodLoop_ends small _ _ _, divided_of_remainder dividing.divided small⟩
      · have last : copyd.toNat = rhs.toNat := by
          rw [dividing.multiple, pow_zero, Nat.mul_one]
        have reached : copyd.toNat ≤ second.toNat := by omega
        obtain ⟨divided, remainder, -⟩ := dividing.subtract reached
        rw [last] at remainder
        rw [divmodLoop, if_pos ((greaterEqual_iff second rhs).mpr (by omega)),
          if_pos ((greaterEqual_iff second copyd).mpr reached), minusNoting_of_le reached,
          pure_bind]
        exact ⟨_, divmodLoop_ends remainder _ _ _, divided_of_remainder divided remainder⟩
  | succ place ih =>
      obtain ⟨rounds, rfl⟩ : ∃ rest, rounds = rest + 1 := ⟨rounds - 1, by omega⟩
      have fewer : place + 2 ≤ rounds := by omega
      by_cases small : second.toNat < rhs.toNat
      · exact ⟨_, divmodLoop_ends small _ _ _, divided_of_remainder dividing.divided small⟩
      rw [divmodLoop, if_pos ((greaterEqual_iff second rhs).mpr (by omega))]
      by_cases reached : copyd.toNat ≤ second.toNat
      · obtain ⟨divided, remainder, places⟩ := dividing.subtract reached
        rw [if_pos ((greaterEqual_iff second copyd).mpr reached), minusNoting_of_le reached,
          pure_bind]
        exact ih fewer (.shift dividing.multiple dividing.power remainder divided places)
      · have places : 2 ^ (place + 1) ∣ first.toNat :=
          (Nat.pow_dvd_pow 2 (by omega)).trans dividing.places
        have stays : ¬ second.greaterEqual copyd = true := by rwa [greaterEqual_iff]
        rw [if_neg stays]
        exact ih fewer
          (.shift dividing.multiple dividing.power (by omega) dividing.divided places)

/-- The difference of the numbers of bits moves the divisor as far as the dividend allows, or one
place further. -/
theorem aligned {lhs rhs : Uint128} (positive : rhs ≠ uint128_0) (larger : rhs.toNat ≤ lhs.toNat) :
    lhs.bits - rhs.bits < 128 ∧ rhs.toNat * 2 ^ (lhs.bits - rhs.bits) < 2 ^ 128 ∧
      lhs.toNat < 2 * (rhs.toNat * 2 ^ (lhs.bits - rhs.bits)) := by
  have rhsPositive : 0 < rhs.toNat :=
    Nat.pos_of_ne_zero fun zero => positive (toNat_inj.mp zero)
  have lhsPositive : lhs ≠ uint128_0 := by
    rintro rfl
    rw [toNat_zero] at larger
    omega
  obtain ⟨few, below, above⟩ := bits_bounds lhsPositive
  obtain ⟨few', below', above'⟩ := bits_bounds positive
  have ordered : rhs.bits ≤ lhs.bits := by
    have powers : 2 ^ rhs.bits < 2 ^ (lhs.bits + 1) := by
      rw [pow_succ]
      omega
    exact Nat.lt_succ_iff.mp ((Nat.pow_lt_pow_iff_right (by omega)).mp powers)
  have someBits : rhs.bits ≠ 0 := by
    intro none
    rw [none] at below'
    omega
  have split : 2 ^ rhs.bits * 2 ^ (lhs.bits - rhs.bits) = 2 ^ lhs.bits := by
    rw [← pow_add]
    congr 1
    omega
  have top : 2 ^ lhs.bits ≤ 2 ^ 128 := Nat.pow_le_pow_right (by omega) few
  have shiftPositive : 0 < 2 ^ (lhs.bits - rhs.bits) := Nat.two_pow_pos _
  refine ⟨by omega, ?_, ?_⟩
  · calc rhs.toNat * 2 ^ (lhs.bits - rhs.bits)
        < 2 ^ rhs.bits * 2 ^ (lhs.bits - rhs.bits) := Nat.mul_lt_mul_of_pos_right below' shiftPositive
      _ ≤ 2 ^ 128 := split ▸ top
  · calc lhs.toNat < 2 ^ rhs.bits * 2 ^ (lhs.bits - rhs.bits) := split ▸ below
      _ ≤ 2 * rhs.toNat * 2 ^ (lhs.bits - rhs.bits) := Nat.mul_le_mul_right _ above'
      _ = 2 * (rhs.toNat * 2 ^ (lhs.bits - rhs.bits)) := Nat.mul_assoc _ _ _

theorem shiftLeftNoting_places {value : Uint128} {amount : Nat} (few : amount < 128)
    (fits : value.toNat * 2 ^ amount < 2 ^ 128) :
    ∃ shifted, value.shiftLeftNoting (ofUInt64 (UInt64.ofNat amount)) = pure shifted ∧
      shifted.toNat = value.toNat * 2 ^ amount := by
  have isAmount : (UInt64.ofNat amount).toNat = amount := by
    rw [UInt64.toNat_ofNat']
    omega
  rw [← isAmount] at few fits
  have shifted := toNat_shiftLeft few fits
  rw [← toNat_ofUInt64] at fits
  rw [isAmount] at shifted
  exact ⟨_, shiftLeftNoting_of_fits fits, shifted⟩

theorem divmod_spec (lhs : Uint128) {rhs : Uint128} (positive : rhs ≠ uint128_0) :
    ∃ qr, divmod lhs rhs = pure qr ∧ Divided lhs rhs qr := by
  have rhsPositive : 0 < rhs.toNat :=
    Nat.pos_of_ne_zero fun zero => positive (toNat_inj.mp zero)
  unfold divmod
  rw [if_neg positive]
  by_cases isOne : rhs = uint128_1
  · rw [if_pos isOne, isOne]
    refine ⟨_, rfl, ?_, ?_⟩
    · rw [toNat_one, Nat.div_one]
    · rw [toNat_one, toNat_zero, Nat.mod_one]
  rw [if_neg isOne]
  by_cases same : lhs = rhs
  · rw [if_pos same, same]
    refine ⟨_, rfl, ?_, ?_⟩
    · rw [toNat_one, Nat.div_self rhsPositive]
    · rw [toNat_zero, Nat.mod_self]
  rw [if_neg same]
  by_cases smaller : lhs.toNat < rhs.toNat
  · rw [if_pos (Or.inr ((less_iff lhs rhs).mpr smaller))]
    refine ⟨_, rfl, ?_, ?_⟩
    · rw [toNat_zero, Nat.div_eq_of_lt smaller]
    · rw [Nat.mod_eq_of_lt smaller]
  have larger : ¬ (lhs = uint128_0 ∨ lhs.less rhs = true) := by
    rw [less_iff]
    rintro (zero | below)
    · rw [zero, toNat_zero] at smaller
      omega
    · exact smaller below
  rw [if_neg larger]
  obtain ⟨few, fits, top⟩ := aligned positive (Nat.not_lt.mp smaller)
  generalize lhs.bits - rhs.bits = amount at few fits top
  have powerFits : uint128_1.toNat * 2 ^ amount < 2 ^ 128 := by
    rw [toNat_one, Nat.one_mul]
    exact Nat.pow_lt_pow_right (by omega) few
  obtain ⟨copyd, copies, isCopyd⟩ := shiftLeftNoting_places few fits
  obtain ⟨adder, adds, isAdder⟩ := shiftLeftNoting_places few powerFits
  rw [toNat_one, Nat.one_mul] at isAdder
  dsimp only
  rw [copies, adds, pure_bind, pure_bind]
  have divided : lhs.toNat = uint128_0.toNat * rhs.toNat + lhs.toNat := by
    rw [toNat_zero, Nat.zero_mul, Nat.zero_add]
  have places (place : Nat) : 2 ^ place ∣ uint128_0.toNat := by
    rw [toNat_zero]
    exact Nat.dvd_zero _
  by_cases tooFar : copyd.greater lhs = true
  · rw [if_pos tooFar]
    rw [greater_iff] at tooFar
    cases amount with
    | zero =>
        rw [pow_zero, Nat.mul_one] at isCopyd
        omega
    | succ place =>
        exact divmodLoop_spec place (by omega) (.shift isCopyd isAdder tooFar divided (places _))
  · rw [if_neg tooFar]
    exact divmodLoop_spec amount (by omega)
      ⟨isCopyd, isAdder, by rwa [isCopyd], divided, places _⟩

theorem divide_spec (lhs : Uint128) {rhs : Uint128} (positive : rhs ≠ uint128_0) :
    ∃ quotient, divide lhs rhs = pure quotient ∧
      quotient.toNat = lhs.toNat / rhs.toNat := by
  obtain ⟨qr, runs, isQuotient, -⟩ := divmod_spec lhs positive
  unfold divide
  rw [runs, pure_bind]
  exact ⟨qr.1, rfl, isQuotient⟩

end Uint128

end ViiCore
