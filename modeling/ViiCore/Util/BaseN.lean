import Mathlib.Data.List.Basic
import Mathlib.Tactic.Common
import Mathlib.Tactic.IntervalCases

/-!
The codec of `lib/util/basen.h`, and what it does in base 32.

A character carries a group of bits. The decoder skips what is no character of the alphabet, and the
encoder ends with padding. In base 32 eight characters are five bytes, and on whole blocks each of
the two undoes the other.
-/

namespace ViiCore.bn

def Error : UInt8 := 255

/-- Shifts of an `unsigned char`, as an `int` that is then narrowed. -/
def shl (value : UInt8) (amount : Nat) : UInt8 := .ofBitVec (value.toBitVec <<< amount)

def shr (value : UInt8) (amount : Nat) : UInt8 := .ofBitVec (value.toBitVec >>> amount)

/-- `~(0xff << bits_count)` -/
def lowBits (bits_count : Nat) : UInt8 := ~~~shl 0xff bits_count

def extract_partial_bits (value : UInt8) (start_bit bits_count : Nat) : UInt8 :=
  let t1 := shr value (8 - bits_count - start_bit)
  t1 &&& lowBits bits_count

def extract_overlapping_bits (previous next : UInt8) (start_bit bits_count : Nat) : UInt8 :=
  let bits_count_in_previous := 8 - start_bit
  let bits_count_in_next := bits_count - bits_count_in_previous
  let t1 := shl previous bits_count_in_next
  let t2 := shr next (8 - bits_count_in_next) &&& lowBits bits_count_in_next
  (t1 ||| t2) &&& lowBits bits_count

structure ConversionTraits where
  group_length : Nat
  positive : 0 < group_length
  dictionary : List UInt8
  decode : UInt8 → UInt8

def ConversionTraits.encode (traits : ConversionTraits) (index : UInt8) : UInt8 :=
  traits.dictionary.getD index.toNat 0

def characters (text : String) : List UInt8 := text.toList.map fun c => UInt8.ofNat c.toNat

def b32_conversion_traits : ConversionTraits where
  group_length := 5
  positive := by decide
  dictionary := characters "ABCDEFGHIJKLMNOPQRSTUVWXYZ234567"
  decode c :=
    if 65 ≤ c ∧ c ≤ 90 then c - 65
    else if 50 ≤ c ∧ c ≤ 55 then c - 50 + 26
    else Error

/-- `std::isspace`: the blank, and from the tab to the carriage return. -/
def isspace (c : UInt8) : Bool := c = 32 ∨ 9 ≤ c ∧ c ≤ 13

/-! ### Decoding -/

structure Decoding where
  output_current_bit : Nat
  buffer : UInt8
  out : List UInt8

def decodeStep (traits : ConversionTraits) (state : Decoding) (c : UInt8) : Decoding :=
  if isspace c then state
  else
    let value := traits.decode c
    if value = Error then state
    else
      let bits_in_current_byte :=
        min (state.output_current_bit + traits.group_length) 8 - state.output_current_bit
      if bits_in_current_byte = traits.group_length then
        let buffer := state.buffer |||
          shl value (8 - state.output_current_bit - traits.group_length)
        let output_current_bit := state.output_current_bit + traits.group_length
        if output_current_bit = 8 then
          { output_current_bit := 0, buffer := 0, out := state.out ++ [buffer] }
        else { state with output_current_bit := output_current_bit, buffer := buffer }
      else
        let bits_in_next_byte := traits.group_length - bits_in_current_byte
        let buffer := state.buffer ||| shr value bits_in_next_byte
        { output_current_bit := bits_in_next_byte
          buffer := shl value (8 - bits_in_next_byte)
          out := state.out ++ [buffer] }

def decode (traits : ConversionTraits) (input : List UInt8) : List UInt8 :=
  (input.foldl (decodeStep traits) { output_current_bit := 0, buffer := 0, out := [] }).out

def decode_b32 (input : List UInt8) : List UInt8 := decode b32_conversion_traits input

/-! ### Encoding -/

/-- The first loop of `encode`: what it puts out and the bit it ends at. The byte that was read and
not used up is `backlog`. -/
def encodeLoop (traits : ConversionTraits) (iter : List UInt8) (start_bit : Nat) :
    Option UInt8 → List UInt8 × Nat
  | none =>
      match iter with
      | [] => ([], start_bit)
      | next :: rest =>
          if start_bit + traits.group_length < 8 then
            let v := extract_partial_bits next start_bit traits.group_length
            let (out, last) :=
              encodeLoop traits (next :: rest) (start_bit + traits.group_length) none
            (traits.encode v :: out, last)
          else encodeLoop traits rest start_bit (some next)
  | some backlog =>
      let v :=
        match iter with
        | [] => extract_overlapping_bits backlog 0 start_bit traits.group_length
        | next :: _ => extract_overlapping_bits backlog next start_bit traits.group_length
      let (out, last) := encodeLoop traits iter ((start_bit + traits.group_length) % 8) none
      (traits.encode v :: out, last)
  termination_by backlog => (2 * iter.length + backlog.elim 0 fun _ => 1, 8 - start_bit)
  decreasing_by
    · have positive := traits.positive
      apply Prod.Lex.right
      omega
    · apply Prod.Lex.left
      simp only [List.length_cons, Option.elim_some, Option.elim_none]
      omega
    · apply Prod.Lex.left
      simp only [Option.elim_some, Option.elim_none]
      omega

/-- The second loop of `encode`; it ends in fewer than eight rounds. -/
def padding (traits : ConversionTraits) : Nat → Nat → List UInt8
  | 0, _ => []
  | rounds + 1, start_bit =>
      if start_bit = 0 then []
      else 61 :: padding traits rounds ((start_bit + traits.group_length) % 8)

def encode (traits : ConversionTraits) (input : List UInt8) : List UInt8 :=
  let (out, start_bit) := encodeLoop traits input 0 none
  out ++ padding traits 8 start_bit

def encode_b32 (input : List UInt8) : List UInt8 := encode b32_conversion_traits input

/-! ### Five bytes and eight groups -/

def bytesOf (v0 v1 v2 v3 v4 v5 v6 v7 : UInt8) : List UInt8 :=
  [shl v0 3 ||| shr v1 2, shl v1 6 ||| shl v2 1 ||| shr v3 4, shl v3 4 ||| shr v4 1,
    shl v4 7 ||| shl v5 2 ||| shr v6 3, shl v6 5 ||| shl v7 0]

def groupsOf (b0 b1 b2 b3 b4 : UInt8) : List UInt8 :=
  [extract_partial_bits b0 0 5, extract_overlapping_bits b0 b1 5 5, extract_partial_bits b1 2 5,
    extract_overlapping_bits b1 b2 7 5, extract_overlapping_bits b2 b3 4 5,
    extract_partial_bits b3 1 5, extract_overlapping_bits b3 b4 6 5,
    extract_overlapping_bits b4 0 3 5]

def group (w : BitVec 5) : UInt8 := .ofBitVec (w.setWidth 8)

def character (w : BitVec 5) : UInt8 := b32_conversion_traits.encode (group w)

theorem toBitVec_lowBits : (lowBits 5).toBitVec = 31#8 ∧ (lowBits 4).toBitVec = 15#8 ∧
    (lowBits 3).toBitVec = 7#8 ∧ (lowBits 2).toBitVec = 3#8 ∧ (lowBits 1).toBitVec = 1#8 ∧
    (lowBits 0).toBitVec = 0#8 := by decide

theorem bytesOf_groups {b0 b1 b2 b3 b4 v0 v1 v2 v3 v4 v5 v6 v7 : UInt8}
    (groups : groupsOf b0 b1 b2 b3 b4 = [v0, v1, v2, v3, v4, v5, v6, v7]) :
    bytesOf v0 v1 v2 v3 v4 v5 v6 v7 = [b0, b1, b2, b3, b4] := by
  obtain ⟨l5, l4, l3, l2, l1, l0⟩ := toBitVec_lowBits
  cases groups
  unfold bytesOf extract_partial_bits extract_overlapping_bits
  simp only [List.cons.injEq, and_true, ← UInt8.toBitVec_inj, shl, shr, UInt8.toBitVec_or,
    UInt8.toBitVec_and, l5, l4, l3, l2, l1, l0, Nat.reduceSub]
  generalize b0.toBitVec = x0
  generalize b1.toBitVec = x1
  generalize b2.toBitVec = x2
  generalize b3.toBitVec = x3
  generalize b4.toBitVec = x4
  refine ⟨?_, ?_, ?_, ?_, ?_⟩ <;>
  · ext i bound
    interval_cases i <;> simp

theorem groupsOf_bytes {w0 w1 w2 w3 w4 w5 w6 w7 : BitVec 5} {b0 b1 b2 b3 b4 : UInt8}
    (bytes : bytesOf (group w0) (group w1) (group w2) (group w3) (group w4) (group w5) (group w6)
      (group w7) = [b0, b1, b2, b3, b4]) :
    groupsOf b0 b1 b2 b3 b4 = [group w0, group w1, group w2, group w3, group w4, group w5, group w6,
      group w7] := by
  obtain ⟨l5, l4, l3, l2, l1, l0⟩ := toBitVec_lowBits
  cases bytes
  unfold groupsOf group extract_partial_bits extract_overlapping_bits
  simp only [List.cons.injEq, and_true, ← UInt8.toBitVec_inj, shl, shr, UInt8.toBitVec_or,
    UInt8.toBitVec_and, l5, l4, l3, l2, l1, l0, Nat.reduceSub]
  refine ⟨?_, ?_, ?_, ?_, ?_, ?_, ?_, ?_⟩ <;>
  · ext i bound
    interval_cases i <;> simp

theorem exists_group (value : UInt8) : ∃ w, value &&& lowBits 5 = group w := by
  refine ⟨value.toBitVec.setWidth 5, ?_⟩
  unfold group
  rw [← UInt8.toBitVec_inj, UInt8.toBitVec_and, toBitVec_lowBits.1]
  generalize value.toBitVec = x
  ext i bound
  interval_cases i <;> simp

theorem exists_groups (b0 b1 b2 b3 b4 : UInt8) : ∃ w0 w1 w2 w3 w4 w5 w6 w7,
    groupsOf b0 b1 b2 b3 b4 = [group w0, group w1, group w2, group w3, group w4, group w5, group w6,
      group w7] := by
  unfold groupsOf
  obtain ⟨w0, is0⟩ : ∃ w, extract_partial_bits b0 0 5 = group w := exists_group _
  obtain ⟨w1, is1⟩ : ∃ w, extract_overlapping_bits b0 b1 5 5 = group w := exists_group _
  obtain ⟨w2, is2⟩ : ∃ w, extract_partial_bits b1 2 5 = group w := exists_group _
  obtain ⟨w3, is3⟩ : ∃ w, extract_overlapping_bits b1 b2 7 5 = group w := exists_group _
  obtain ⟨w4, is4⟩ : ∃ w, extract_overlapping_bits b2 b3 4 5 = group w := exists_group _
  obtain ⟨w5, is5⟩ : ∃ w, extract_partial_bits b3 1 5 = group w := exists_group _
  obtain ⟨w6, is6⟩ : ∃ w, extract_overlapping_bits b3 b4 6 5 = group w := exists_group _
  obtain ⟨w7, is7⟩ : ∃ w, extract_overlapping_bits b4 0 3 5 = group w := exists_group _
  exact ⟨w0, w1, w2, w3, w4, w5, w6, w7, by rw [is0, is1, is2, is3, is4, is5, is6, is7]⟩

/-! ### The alphabet -/

theorem decode_character (w : BitVec 5) :
    b32_conversion_traits.decode (character w) = group w ∧ isspace (character w) = false ∧
      group w ≠ Error := by
  revert w
  decide +kernel

theorem exists_character (c : UInt8) (valid : b32_conversion_traits.decode c ≠ Error) :
    ∃ w, c = character w := by
  have all : ∀ n : Fin 256, b32_conversion_traits.decode (UInt8.ofNat n) ≠ Error →
      UInt8.ofNat n = character (.ofNat 5 (b32_conversion_traits.decode (UInt8.ofNat n)).toNat) := by
    decide +kernel
  have isByte := all ⟨c.toNat, c.toNat_lt⟩
  rw [UInt8.ofNat_toNat] at isByte
  exact ⟨_, isByte valid⟩

/-! ### Whole blocks -/

/-- Bytes, five a block, and the groups that carry the same bits, eight a block. -/
inductive Blocks : List UInt8 → List (BitVec 5) → Prop
  | nil : Blocks [] []
  | block {b0 b1 b2 b3 b4 : UInt8} {w0 w1 w2 w3 w4 w5 w6 w7 : BitVec 5} {bytes : List UInt8}
      {groups : List (BitVec 5)}
      (same : bytesOf (group w0) (group w1) (group w2) (group w3) (group w4) (group w5) (group w6)
        (group w7) = [b0, b1, b2, b3, b4])
      (rest : Blocks bytes groups) :
      Blocks (b0 :: b1 :: b2 :: b3 :: b4 :: bytes)
        (w0 :: w1 :: w2 :: w3 :: w4 :: w5 :: w6 :: w7 :: groups)

theorem exists_blocks_of_bytes {count : Nat} {bytes : List UInt8} (whole : bytes.length = 5 * count) :
    ∃ groups, Blocks bytes groups ∧ groups.length = 8 * count := by
  induction count generalizing bytes with
  | zero =>
      cases List.eq_nil_of_length_eq_zero whole
      exact ⟨[], .nil, rfl⟩
  | succ count ih =>
      match bytes, whole with
      | b0 :: b1 :: b2 :: b3 :: b4 :: rest, whole =>
          have shorter : rest.length = 5 * count := by
            simp only [List.length_cons] at whole
            omega
          obtain ⟨groups, blocks, length⟩ := ih shorter
          obtain ⟨w0, w1, w2, w3, w4, w5, w6, w7, same⟩ := exists_groups b0 b1 b2 b3 b4
          refine ⟨_, .block (bytesOf_groups same) blocks, ?_⟩
          simp only [List.length_cons, length]
          omega

theorem exists_blocks_of_groups {count : Nat} {groups : List (BitVec 5)}
    (whole : groups.length = 8 * count) : ∃ bytes, Blocks bytes groups := by
  induction count generalizing groups with
  | zero =>
      cases List.eq_nil_of_length_eq_zero whole
      exact ⟨[], .nil⟩
  | succ count ih =>
      match groups, whole with
      | w0 :: w1 :: w2 :: w3 :: w4 :: w5 :: w6 :: w7 :: rest, whole =>
          have shorter : rest.length = 8 * count := by
            simp only [List.length_cons] at whole
            omega
          obtain ⟨bytes, blocks⟩ := ih shorter
          exact ⟨_, .block rfl blocks⟩

theorem decodeStep_character (state : Decoding) (w : BitVec 5) :
    decodeStep b32_conversion_traits state (character w) =
      if min (state.output_current_bit + 5) 8 - state.output_current_bit = 5 then
        if state.output_current_bit + 5 = 8 then
          { output_current_bit := 0
            buffer := 0
            out := state.out ++
              [state.buffer ||| shl (group w) (8 - state.output_current_bit - 5)] }
        else
          { state with
            output_current_bit := state.output_current_bit + 5
            buffer := state.buffer ||| shl (group w) (8 - state.output_current_bit - 5) }
      else
        let bits_in_next_byte :=
          5 - (min (state.output_current_bit + 5) 8 - state.output_current_bit)
        { output_current_bit := bits_in_next_byte
          buffer := shl (group w) (8 - bits_in_next_byte)
          out := state.out ++ [state.buffer ||| shr (group w) bits_in_next_byte] } := by
  obtain ⟨value, space, valid⟩ := decode_character w
  unfold decodeStep
  rw [space, value, if_neg Bool.false_ne_true, if_neg valid]
  rfl

theorem foldl_block (w0 w1 w2 w3 w4 w5 w6 w7 : BitVec 5) (out : List UInt8) :
    [w0, w1, w2, w3, w4, w5, w6, w7].foldl
        (fun state w => decodeStep b32_conversion_traits state (character w)) ⟨0, 0, out⟩ =
      ⟨0, 0, out ++ bytesOf (group w0) (group w1) (group w2) (group w3) (group w4) (group w5)
        (group w6) (group w7)⟩ := by
  simp [decodeStep_character, bytesOf]

theorem Blocks.foldl {bytes : List UInt8} {groups : List (BitVec 5)} (blocks : Blocks bytes groups)
    (out : List UInt8) :
    groups.foldl (fun state w => decodeStep b32_conversion_traits state (character w)) ⟨0, 0, out⟩ =
      ⟨0, 0, out ++ bytes⟩ := by
  induction blocks generalizing out with
  | nil => rw [List.append_nil, List.foldl_nil]
  | @block b0 b1 b2 b3 b4 w0 w1 w2 w3 w4 w5 w6 w7 bytes groups same rest ih =>
      have split : w0 :: w1 :: w2 :: w3 :: w4 :: w5 :: w6 :: w7 :: groups =
          [w0, w1, w2, w3, w4, w5, w6, w7] ++ groups := rfl
      rw [split, List.foldl_append, foldl_block, same, ih, List.append_assoc]
      rfl

theorem Blocks.decode {bytes : List UInt8} {groups : List (BitVec 5)} (blocks : Blocks bytes groups) :
    decode_b32 (groups.map character) = bytes := by
  unfold decode_b32 bn.decode
  rw [List.foldl_map, blocks.foldl]
  rfl

theorem encodeLoop_partly {next : UInt8} {rest : List UInt8} {start_bit : Nat}
    (inside : start_bit + 5 < 8) :
    encodeLoop b32_conversion_traits (next :: rest) start_bit none =
      let (out, last) := encodeLoop b32_conversion_traits (next :: rest) (start_bit + 5) none
      (b32_conversion_traits.encode (extract_partial_bits next start_bit 5) :: out, last) := by
  rw [encodeLoop]
  exact if_pos inside

theorem encodeLoop_read {next : UInt8} {rest : List UInt8} {start_bit : Nat}
    (across : ¬ start_bit + 5 < 8) :
    encodeLoop b32_conversion_traits (next :: rest) start_bit none =
      encodeLoop b32_conversion_traits rest start_bit (some next) := by
  rw [encodeLoop]
  exact if_neg across

theorem encodeLoop_across {backlog next : UInt8} {rest : List UInt8} {start_bit : Nat} :
    encodeLoop b32_conversion_traits (next :: rest) start_bit (some backlog) =
      let (out, last) := encodeLoop b32_conversion_traits (next :: rest) ((start_bit + 5) % 8) none
      (b32_conversion_traits.encode (extract_overlapping_bits backlog next start_bit 5) :: out,
        last) := by
  conv_lhs => rw [encodeLoop.eq_def]
  rfl

theorem encodeLoop_ends (backlog : UInt8) (rest : List UInt8) :
    encodeLoop b32_conversion_traits rest 3 (some backlog) =
      let (out, last) := encodeLoop b32_conversion_traits rest 0 none
      (b32_conversion_traits.encode (extract_overlapping_bits backlog 0 3 5) :: out, last) := by
  have nothing (next : UInt8) :
      extract_overlapping_bits backlog next 3 5 = extract_overlapping_bits backlog 0 3 5 := by
    unfold extract_overlapping_bits
    simp only [← UInt8.toBitVec_inj, UInt8.toBitVec_or, UInt8.toBitVec_and, Nat.reduceSub,
      toBitVec_lowBits.2.2.2.2.2, BitVec.and_zero]
  conv_lhs => rw [encodeLoop.eq_def]
  cases rest with
  | nil => rfl
  | cons next rest =>
      rw [← nothing next]
      rfl

theorem encodeLoop_block (b0 b1 b2 b3 b4 : UInt8) (rest : List UInt8) :
    encodeLoop b32_conversion_traits (b0 :: b1 :: b2 :: b3 :: b4 :: rest) 0 none =
      let (out, last) := encodeLoop b32_conversion_traits rest 0 none
      ((groupsOf b0 b1 b2 b3 b4).map b32_conversion_traits.encode ++ out, last) := by
  rw [encodeLoop_partly (by decide), encodeLoop_read (by decide), encodeLoop_across,
    encodeLoop_partly (by decide), encodeLoop_read (by decide), encodeLoop_across,
    encodeLoop_read (by decide), encodeLoop_across, encodeLoop_partly (by decide),
    encodeLoop_read (by decide), encodeLoop_across, encodeLoop_read (by decide), encodeLoop_ends]
  rfl

theorem Blocks.encode {bytes : List UInt8} {groups : List (BitVec 5)} (blocks : Blocks bytes groups) :
    encode_b32 bytes = groups.map character := by
  have loop : encodeLoop b32_conversion_traits bytes 0 none = (groups.map character, 0) := by
    induction blocks with
    | nil =>
        rw [encodeLoop]
        rfl
    | block same rest ih =>
        rw [encodeLoop_block, ih, groupsOf_bytes same]
        rfl
  unfold encode_b32 bn.encode
  rw [loop]
  exact List.append_nil _

/-! ### Strings of another length -/

def isCharacter (c : UInt8) : Bool := b32_conversion_traits.decode c ≠ Error

theorem decodeStep_skip (state : Decoding) {c : UInt8} (skipped : isCharacter c = false) :
    decodeStep b32_conversion_traits state c = state := by
  have isError : b32_conversion_traits.decode c = Error := by
    simpa [isCharacter] using skipped
  unfold decodeStep
  rw [isError]
  split <;> rfl

theorem decodeStep_length (state : Decoding) (w : BitVec 5) (inside : state.output_current_bit < 8) :
    let after := decodeStep b32_conversion_traits state (character w)
    after.output_current_bit < 8 ∧ 8 * after.out.length + after.output_current_bit =
      8 * state.out.length + state.output_current_bit + 5 := by
  dsimp only
  rw [decodeStep_character]
  split
  · split
    · simp only [List.length_append, List.length_singleton]
      omega
    · dsimp only
      omega
  · simp only [List.length_append, List.length_singleton]
    omega

theorem foldl_length (input : List UInt8) (state : Decoding) (inside : state.output_current_bit < 8) :
    let after := input.foldl (decodeStep b32_conversion_traits) state
    after.output_current_bit < 8 ∧ 8 * after.out.length + after.output_current_bit =
      8 * state.out.length + state.output_current_bit + 5 * input.countP isCharacter := by
  induction input generalizing state with
  | nil => exact ⟨inside, by simp⟩
  | cons c rest ih =>
      rw [List.foldl_cons, List.countP_cons]
      cases used : isCharacter c with
      | false =>
          rw [decodeStep_skip state used]
          have := ih state inside
          simpa [used] using this
      | true =>
          have valid : b32_conversion_traits.decode c ≠ Error := by simpa [isCharacter] using used
          obtain ⟨w, rfl⟩ := exists_character c valid
          obtain ⟨inside', added⟩ := decodeStep_length state w inside
          obtain ⟨inside'', total⟩ := ih _ inside'
          refine ⟨inside'', total.trans ?_⟩
          rw [added, if_pos rfl]
          omega

theorem groups_of_full {count : Nat} {input : List UInt8} (length : input.length = 8 * count)
    (full : (decode_b32 input).length = 5 * count) :
    ∃ groups : List (BitVec 5), input = groups.map character ∧ groups.length = 8 * count := by
  obtain ⟨inside, total⟩ := foldl_length input ⟨0, 0, []⟩ (by decide)
  have bits : 8 * (decode_b32 input).length ≤ 5 * input.countP isCharacter := by
    unfold decode_b32 decode
    simp only [List.length_nil] at total
    omega
  have few : input.countP isCharacter ≤ input.length := List.countP_le_length
  have all : ∀ c ∈ input, isCharacter c = true := List.countP_eq_length.mp (by omega)
  clear inside total bits few full
  have carried (input : List UInt8) (all : ∀ c ∈ input, isCharacter c = true) :
      ∃ groups : List (BitVec 5), input = groups.map character := by
    induction input with
    | nil => exact ⟨[], rfl⟩
    | cons c rest ih =>
        obtain ⟨groups, rfl⟩ := ih (fun other later => all other (List.mem_cons_of_mem c later))
        have valid : b32_conversion_traits.decode c ≠ Error := by
          simpa [isCharacter] using all c List.mem_cons_self
        obtain ⟨w, rfl⟩ := exists_character c valid
        exact ⟨w :: groups, rfl⟩
  obtain ⟨groups, rfl⟩ := carried input all
  exact ⟨groups, rfl, by rwa [List.length_map] at length⟩

theorem encode_decode_b32 {count : Nat} {input : List UInt8} (length : input.length = 8 * count)
    (full : (decode_b32 input).length = 5 * count) : encode_b32 (decode_b32 input) = input := by
  obtain ⟨groups, rfl, whole⟩ := groups_of_full length full
  obtain ⟨bytes, blocks⟩ := exists_blocks_of_groups whole
  rw [blocks.decode, blocks.encode]

theorem decode_encode_b32 {count : Nat} {bytes : List UInt8} (whole : bytes.length = 5 * count) :
    decode_b32 (encode_b32 bytes) = bytes ∧ (encode_b32 bytes).length = 8 * count := by
  obtain ⟨groups, blocks, length⟩ := exists_blocks_of_bytes whole
  rw [blocks.encode, blocks.decode, List.length_map]
  exact ⟨rfl, length⟩

end ViiCore.bn
