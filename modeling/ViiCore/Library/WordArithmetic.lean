import Mathlib.Algebra.Group.Nat.Defs
import Mathlib.Tactic.Common

/-!
32-bit unsigned arithmetic that remembers where it wrapped.

Values are those of the machine. A computation keeps beside its value every operation on the way to
it whose mathematical result did not fit, so that a statement about wrapping is a statement about
the same computation.
-/

namespace ViiCore

inductive Wrap where
  | plus (left right : UInt32)
  | minus (left right : UInt32)
  | times (left right : UInt32)
  deriving DecidableEq

structure Tracked (α : Type) where
  value : α
  wraps : List Wrap
  deriving DecidableEq

namespace Tracked

variable {α β : Type}

instance : Monad Tracked where
  pure a := ⟨a, []⟩
  bind x f := ⟨(f x.value).value, x.wraps ++ (f x.value).wraps⟩

def plus (left right : UInt32) : Tracked UInt32 :=
  ⟨left + right, if left.toNat + right.toNat < 2 ^ 32 then [] else [.plus left right]⟩

def minus (left right : UInt32) : Tracked UInt32 :=
  ⟨left - right, if right.toNat ≤ left.toNat then [] else [.minus left right]⟩

def times (left right : UInt32) : Tracked UInt32 :=
  ⟨left * right, if left.toNat * right.toNat < 2 ^ 32 then [] else [.times left right]⟩

@[simp] theorem value_pure (a : α) : (pure a : Tracked α).value = a := rfl
@[simp] theorem wraps_pure (a : α) : (pure a : Tracked α).wraps = [] := rfl
@[simp] theorem value_bind (x : Tracked α) (f : α → Tracked β) :
    (x >>= f).value = (f x.value).value := rfl
@[simp] theorem wraps_bind (x : Tracked α) (f : α → Tracked β) :
    (x >>= f).wraps = x.wraps ++ (f x.value).wraps := rfl
@[simp] theorem value_plus (left right : UInt32) : (plus left right).value = left + right := rfl
@[simp] theorem value_minus (left right : UInt32) : (minus left right).value = left - right := rfl
@[simp] theorem value_times (left right : UInt32) : (times left right).value = left * right := rfl

/-! ### Computations that do not wrap -/

/-- The value is the mathematical one, and nothing wrapped on the way to it. -/
structure Exact (x : Tracked UInt32) (n : Nat) : Prop where
  value : x.value.toNat = n
  wraps : x.wraps = []

theorem Exact.pure (word : UInt32) : Exact (Pure.pure word) word.toNat := ⟨rfl, rfl⟩

theorem Exact.plus {left right : UInt32} {m n : Nat} (isLeft : left.toNat = m)
    (isRight : right.toNat = n) (fits : m + n < 2 ^ 32) : Exact (plus left right) (m + n) := by
  subst isLeft isRight
  constructor
  · rw [value_plus, UInt32.toNat_add, Nat.mod_eq_of_lt fits]
  · exact if_pos fits

theorem Exact.minus {left right : UInt32} {m n : Nat} (isLeft : left.toNat = m)
    (isRight : right.toNat = n) (fits : n ≤ m) : Exact (minus left right) (m - n) := by
  subst isLeft isRight
  constructor
  · rw [value_minus, UInt32.toNat_sub_of_le _ _ (UInt32.le_iff_toNat_le.mpr fits)]
  · exact if_pos fits

theorem Exact.times {left right : UInt32} {m n : Nat} (isLeft : left.toNat = m)
    (isRight : right.toNat = n) (fits : m * n < 2 ^ 32) : Exact (times left right) (m * n) := by
  subst isLeft isRight
  constructor
  · rw [value_times, UInt32.toNat_mul, Nat.mod_eq_of_lt fits]
  · exact if_pos fits

theorem Exact.bind {x : Tracked UInt32} {f : UInt32 → Tracked UInt32} {m n : Nat}
    (first : Exact x m) (second : ∀ word : UInt32, word.toNat = m → Exact (f word) n) :
    Exact (x >>= f) n := by
  have later := second x.value first.value
  constructor
  · exact later.value
  · rw [wraps_bind, first.wraps, later.wraps, List.append_nil]

theorem Exact.eq {x : Tracked UInt32} {word : UInt32} (exact : Exact x word.toNat) :
    x = ⟨word, []⟩ := by
  obtain ⟨value, wraps⟩ := x
  obtain rfl : value = word := UInt32.toNat_inj.mp exact.value
  obtain rfl : wraps = [] := exact.wraps
  rfl

theorem Exact.bind_eq {x : Tracked UInt32} {n : Nat} (exact : Exact x n)
    (f : UInt32 → Tracked β) : x >>= f = f x.value := by
  obtain ⟨word, wraps⟩ := x
  obtain rfl : wraps = [] := exact.wraps
  rfl

end Tracked

end ViiCore
