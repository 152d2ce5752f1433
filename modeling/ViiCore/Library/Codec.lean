import Mathlib.Algebra.Group.Nat.Defs
import Mathlib.Data.Fintype.EquivFin
import Mathlib.Logic.Equiv.Fin.Basic
import Mathlib.Tactic.Common

/-!
Prefix codecs over bytes.

A codec reads what it writes off the front of any bytes, and what it reads is what it would
write: encodings are canonical. The combinators keep both laws, so a format is put together
from its parts and never proved about as a whole.
-/

namespace ViiCore

abbrev Bytes := List UInt8

structure Codec (α : Type) where
  encode : α → Bytes
  decode : Bytes → Option (α × Bytes)
  decode_encode : ∀ a rest, decode (encode a ++ rest) = some (a, rest)
  encode_decode : ∀ {bytes a rest}, decode bytes = some (a, rest) → encode a ++ rest = bytes

namespace Codec

variable {α β : Type}

def fromOpaque (codec : Codec α) (bytes : Bytes) : Option α :=
  match codec.decode bytes with
  | some (a, []) => some a
  | _ => none

@[simp] theorem fromOpaque_encode (codec : Codec α) (a : α) :
    codec.fromOpaque (codec.encode a) = some a := by
  have read := codec.decode_encode a []
  rw [List.append_nil] at read
  simp [fromOpaque, read]

theorem encode_of_fromOpaque (codec : Codec α) {bytes : Bytes} {a : α}
    (read : codec.fromOpaque bytes = some a) : codec.encode a = bytes := by
  unfold fromOpaque at read
  split at read
  · rename_i found decoded
    cases read
    have written := codec.encode_decode decoded
    rwa [List.append_nil] at written
  · cases read

/-! ### Parts -/

def unit : Codec Unit where
  encode _ := []
  decode bytes := some ((), bytes)
  decode_encode _ _ := rfl
  encode_decode read := by
    cases read
    rfl

def byte : Codec UInt8 where
  encode b := [b]
  decode
    | [] => none
    | b :: rest => some (b, rest)
  decode_encode _ _ := rfl
  encode_decode {bytes a rest} read := by
    cases bytes with
    | nil => cases read
    | cons b later =>
        cases read
        rfl

def via (codec : Codec α) (same : α ≃ β) : Codec β where
  encode b := codec.encode (same.symm b)
  decode bytes := (codec.decode bytes).map fun found => (same found.1, found.2)
  decode_encode b rest := by simp [codec.decode_encode]
  encode_decode {bytes b rest} read := by
    obtain ⟨found, decoded, here⟩ := Option.map_eq_some_iff.mp read
    cases here
    simpa using codec.encode_decode decoded

def restrict (codec : Codec α) (p : α → Prop) [DecidablePred p] : Codec {a // p a} where
  encode a := codec.encode a.1
  decode bytes :=
    match codec.decode bytes with
    | none => none
    | some (a, rest) => if holds : p a then some (⟨a, holds⟩, rest) else none
  decode_encode a rest := by simp [codec.decode_encode, a.2]
  encode_decode {bytes a rest} read := by
    split at read
    · cases read
    · rename_i found later decoded
      split at read
      · cases read
        exact codec.encode_decode decoded
      · cases read

def enumeration {τ : Type} (codec : Codec α) (code : τ → α) (find : α → Option τ)
    (find_iff : ∀ a t, find a = some t ↔ code t = a) : Codec τ where
  encode t := codec.encode (code t)
  decode bytes :=
    match codec.decode bytes with
    | none => none
    | some (a, rest) => (find a).map fun t => (t, rest)
  decode_encode t rest := by simp [codec.decode_encode, (find_iff (code t) t).mpr rfl]
  encode_decode {bytes t rest} read := by
    split at read
    · cases read
    · rename_i a later decoded
      obtain ⟨found, here, same⟩ := Option.map_eq_some_iff.mp read
      cases same
      rw [(find_iff a t).mp here]
      exact codec.encode_decode decoded

def tagged {τ : Type} {body : τ → Type} (tag : Codec τ) (codec : (t : τ) → Codec (body t)) :
    Codec (Σ t, body t) where
  encode a := tag.encode a.1 ++ (codec a.1).encode a.2
  decode bytes :=
    match tag.decode bytes with
    | none => none
    | some (t, later) => ((codec t).decode later).map fun found => (⟨t, found.1⟩, found.2)
  decode_encode a rest := by simp [tag.decode_encode, (codec a.1).decode_encode]
  encode_decode {bytes a rest} read := by
    split at read
    · cases read
    · rename_i t later decoded
      obtain ⟨found, decodedBody, here⟩ := Option.map_eq_some_iff.mp read
      cases here
      rw [List.append_assoc, (codec t).encode_decode decodedBody, tag.encode_decode decoded]

def pair (first : Codec α) (second : Codec β) : Codec (α × β) :=
  (tagged first fun _ => second).via (Equiv.sigmaEquivProd α β)

@[simp] theorem via_encode (codec : Codec α) (same : α ≃ β) (b : β) :
    (codec.via same).encode b = codec.encode (same.symm b) := rfl

@[simp] theorem pair_encode (first : Codec α) (second : Codec β) (both : α × β) :
    (pair first second).encode both = first.encode both.1 ++ second.encode both.2 := rfl

@[simp] theorem enumeration_encode {τ : Type} (codec : Codec α) (code : τ → α)
    (find : α → Option τ) (find_iff : ∀ a t, find a = some t ↔ code t = a) (t : τ) :
    (enumeration codec code find find_iff).encode t = codec.encode (code t) := rfl

/-! ### Numbers -/

def ofBytes : Codec (Fin (2 ^ 8)) :=
  byte.via
    { toFun b := b.toFin
      invFun n := ⟨⟨n⟩⟩
      left_inv _ := rfl
      right_inv _ := rfl }

def number : (n : Nat) → Codec (Fin (2 ^ (8 * n)))
  | 0 => unit.via (Equiv.ofUnique Unit (Fin 1))
  | n + 1 => (pair ofBytes (number n)).via
      (finProdFinEquiv.trans (finCongr (by rw [Nat.mul_succ, Nat.add_comm, Nat.pow_add])))

@[simp] theorem number_encode_length (n : Nat) (k : Fin (2 ^ (8 * n))) :
    ((number n).encode k).length = n := by
  induction n with
  | zero => rfl
  | succ n ih =>
      simp only [number, via_encode, pair_encode, List.length_append, ih]
      rw [Nat.add_comm]
      rfl

def word (n : Nat) : Codec (BitVec (8 * n)) :=
  (number n).via
    { toFun n := ⟨n⟩
      invFun b := b.toFin
      left_inv _ := rfl
      right_inv _ := rfl }

@[simp] theorem word_encode_length (n : Nat) (b : BitVec (8 * n)) :
    ((word n).encode b).length = n :=
  number_encode_length n _

/-! ### Sequences -/

def repeated (codec : Codec α) : (n : Nat) → Codec {xs : List α // xs.length = n}
  | 0 => unit.via
      { toFun _ := ⟨[], rfl⟩
        invFun _ := ()
        left_inv _ := rfl
        right_inv xs := Subtype.ext (List.length_eq_zero_iff.mp xs.2).symm }
  | n + 1 => (pair codec (repeated codec n)).via
      { toFun xs := ⟨xs.1 :: xs.2.1, by simp [xs.2.2]⟩
        invFun xs := (xs.1.head (List.ne_nil_of_length_eq_add_one xs.2), ⟨xs.1.tail, by simp [xs.2]⟩)
        left_inv _ := rfl
        right_inv xs := Subtype.ext (List.cons_head_tail _) }

/-- A list of at most `bound` values after their number, which takes four bytes. -/
def counted (bound : Nat) (small : bound < 2 ^ (8 * 4))
    (codec : (n : Nat) → Codec {xs : List α // xs.length = n}) :
    Codec {xs : List α // xs.length ≤ bound} :=
  (tagged ((number 4).restrict fun n => n.val ≤ bound) fun n => codec n.1).via
    { toFun xs := ⟨xs.2.1, le_of_eq_of_le xs.2.2 xs.1.2⟩
      invFun xs := ⟨⟨⟨xs.1.length, lt_of_le_of_lt xs.2 small⟩, xs.2⟩, ⟨xs.1, rfl⟩⟩
      left_inv := by
        rintro ⟨⟨⟨n, below⟩, short⟩, ⟨xs, length⟩⟩
        obtain rfl : xs.length = n := length
        rfl
      right_inv _ := rfl }

def array (codec : Codec α) (bound : Nat) (small : bound < 2 ^ (8 * 4)) :
    Codec {xs : List α // xs.length ≤ bound} :=
  counted bound small (repeated codec)

def zeros : Nat → Codec Unit
  | 0 => unit
  | n + 1 => (pair (byte.restrict (· = 0)) (zeros n)).via
      { toFun _ := ()
        invFun _ := (⟨0, rfl⟩, ())
        left_inv xs := by
          obtain ⟨⟨b, zero⟩, _⟩ := xs
          subst zero
          rfl
        right_inv _ := rfl }

/-- Bytes of any kind, filled up with zeros to a multiple of four. -/
def padded (n : Nat) : Codec {xs : Bytes // xs.length = n} :=
  (pair (repeated byte n) (zeros ((4 - n % 4) % 4))).via (Equiv.prodPUnit _)

def bytesUpTo (bound : Nat) (small : bound < 2 ^ (8 * 4)) : Codec {xs : Bytes // xs.length ≤ bound} :=
  counted bound small padded

end Codec

end ViiCore
