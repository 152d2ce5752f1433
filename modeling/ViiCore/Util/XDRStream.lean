import ViiCore.Library.Codec

/-!
Files of XDR records (`util/XDRStream.h`).

A record is a big-endian length of four bytes, with the highest bit set, and that many bytes. What
a cut file reads as depends on where it was cut: a record without all of its body is an error, and a
record without all of its length is the end of the file.
-/

namespace ViiCore

/-! ### Streams -/

/-- `std::ifstream`: the bytes that are left, and whether every read so far succeeded. -/
structure IfStream where
  rest : Bytes
  good : Bool

/-- A short read takes what there is and fails. A stream that failed reads nothing more. -/
def IfStream.read (file : IfStream) (count : Nat) : Bytes × IfStream :=
  if !file.good then ([], file)
  else if count ≤ file.rest.length then (file.rest.take count, ⟨file.rest.drop count, true⟩)
  else (file.rest, ⟨[], false⟩)

def resize (buffer : Bytes) (size : Nat) : Bytes :=
  buffer.take size ++ List.replicate (size - buffer.length) 0

def overwrite (buffer : Bytes) (position : Nat) (bytes : Bytes) : Bytes :=
  buffer.take position ++ bytes ++ buffer.drop (position + bytes.length)

structure XDRInputFileStream where
  mIn : IfStream
  mBuf : Bytes
  mSizeLimit : Nat

structure XDROutputFileStream where
  mOut : Bytes
  mBuf : Bytes

inductive ReadOne (α : Type) where
  | value (out : α)
  | noMore
  | thrown (what : String)

namespace XDRStream

variable {α : Type}

def sizeOf (szBuf : Bytes) : UInt32 :=
  let sz := 0 ||| (szBuf.getD 0 0 &&& 0x7f).toUInt32
  let sz := sz <<< 8
  let sz := sz ||| (szBuf.getD 1 0).toUInt32
  let sz := sz <<< 8
  let sz := sz ||| (szBuf.getD 2 0).toUInt32
  let sz := sz <<< 8
  sz ||| (szBuf.getD 3 0).toUInt32

def readOne (decode : Bytes → Except String α) (stream : XDRInputFileStream) :
    ReadOne α × XDRInputFileStream :=
  let (szBuf, mIn) := stream.mIn.read 4
  if !mIn.good then (.noMore, { stream with mIn })
  else
    let sz := sizeOf szBuf
    if stream.mSizeLimit ≠ 0 ∧ sz.toNat > stream.mSizeLimit then (.noMore, { stream with mIn })
    else
      let mBuf :=
        if sz.toNat > stream.mBuf.length then resize stream.mBuf sz.toNat else stream.mBuf
      let (body, mIn) := mIn.read sz.toNat
      let mBuf := overwrite mBuf 0 body
      let stream := { stream with mIn, mBuf }
      if !mIn.good then (.thrown "malformed XDR file", stream)
      else
        match decode (mBuf.take sz.toNat) with
        | .ok out => (.value out, stream)
        | .error what => (.thrown what, stream)

/-- The bytes are added to the hasher and counted when the caller gives one. -/
def writeOne (encode : α → Bytes) (stream : XDROutputFileStream) (t : α) (hasher : Option Bytes)
    (bytesPut : Option Nat) :
    Except String (XDROutputFileStream × Option Bytes × Option Nat) :=
  let sz := UInt32.ofNat (encode t).length
  if ¬ sz < 0x80000000 then .error "sz < 0x80000000"
  else if (encode t).length ≠ sz.toNat then .error "xdr_overflow"
  else
    let mBuf :=
      if stream.mBuf.length < (sz + 4).toNat then resize stream.mBuf (sz + 4).toNat
      else stream.mBuf
    let mBuf := mBuf.set 0 (((sz >>> 24) &&& 0xff).toUInt8 ||| 0x80)
    let mBuf := mBuf.set 1 ((sz >>> 16) &&& 0xff).toUInt8
    let mBuf := mBuf.set 2 ((sz >>> 8) &&& 0xff).toUInt8
    let mBuf := mBuf.set 3 (sz &&& 0xff).toUInt8
    let mBuf := overwrite mBuf 4 (encode t)
    let put := mBuf.take (sz + 4).toNat
    .ok ({ mOut := stream.mOut ++ put, mBuf }, hasher.map (· ++ put),
      bytesPut.map (· + (sz + 4).toNat))

/-! ### Files -/

def openedIn (bytes : Bytes) : XDRInputFileStream :=
  { mIn := ⟨bytes, true⟩, mBuf := [], mSizeLimit := 0 }

def openedOut : XDROutputFileStream :=
  { mOut := [], mBuf := [] }

def writeAll (encode : α → Bytes) (stream : XDROutputFileStream) :
    List α → Except String XDROutputFileStream
  | [] => .ok stream
  | t :: later => do
      let (stream, _, _) ← writeOne encode stream t none none
      writeAll encode stream later

inductive Ending where
  | stillReading
  | endOfFile
  | exception (what : String)
  deriving DecidableEq

def readMany (decode : Bytes → Except String α) :
    (calls : Nat) → XDRInputFileStream → List α × Ending
  | 0, _ => ([], .stillReading)
  | calls + 1, stream =>
      match readOne decode stream with
      | (.value out, stream) =>
          let (later, ending) := readMany decode calls stream
          (out :: later, ending)
      | (.noMore, _) => ([], .endOfFile)
      | (.thrown what, _) => ([], .exception what)

/-! ### Lengths -/

def header (sz : UInt32) : Bytes :=
  [((sz >>> 24) &&& 0xff).toUInt8 ||| 0x80, ((sz >>> 16) &&& 0xff).toUInt8,
    ((sz >>> 8) &&& 0xff).toUInt8, (sz &&& 0xff).toUInt8]

theorem toNat_push (sz : UInt32) (byte : UInt8) (small : sz.toNat < 2 ^ 24) :
    (sz <<< 8 ||| byte.toUInt32).toNat = sz.toNat * 2 ^ 8 + byte.toNat := by
  have byteSmall : byte.toNat < 2 ^ 8 := byte.toNat_lt
  have shifted : (sz <<< 8).toNat = sz.toNat * 2 ^ 8 := by
    rw [UInt32.toNat_shiftLeft, Nat.shiftLeft_eq]
    change sz.toNat * 2 ^ 8 % 2 ^ 32 = _
    omega
  rw [UInt32.toNat_or, shifted, UInt8.toNat_toUInt32, Nat.mul_comm,
    ← Nat.two_pow_add_eq_or_of_lt byteSmall]

theorem toNat_lastByte (sz : UInt32) : (sz &&& 0xff).toUInt8.toNat = sz.toNat % 2 ^ 8 := by
  rw [UInt32.toNat_toUInt8, UInt32.toNat_and]
  change (sz.toNat &&& (2 ^ 8 - 1)) % 2 ^ 8 = _
  rw [Nat.and_two_pow_sub_one_eq_mod, Nat.mod_mod]

theorem unmarked (byte : UInt8) (small : byte.toNat < 2 ^ 7) :
    ((byte ||| 0x80) &&& 0x7f).toNat = byte.toNat := by
  have marked : byte.toNat ||| 2 ^ 7 * 1 = 2 ^ 7 * 1 + byte.toNat := by
    rw [Nat.or_comm, Nat.two_pow_add_eq_or_of_lt small]
  rw [UInt8.toNat_and, UInt8.toNat_or]
  change (byte.toNat ||| 2 ^ 7 * 1) &&& (2 ^ 7 - 1) = _
  rw [marked, Nat.and_two_pow_sub_one_eq_mod]
  omega

theorem sizeOf_header {sz : UInt32} (short : sz < 0x80000000) (rest : Bytes) :
    sizeOf (header sz ++ rest) = sz := by
  have bound : sz.toNat < 2 ^ 31 := UInt32.lt_iff_toNat_lt.mp short
  have first : (((sz >>> 24) &&& 0xff).toUInt8).toNat = sz.toNat / 2 ^ 24 := by
    rw [toNat_lastByte, UInt32.toNat_shiftRight, Nat.shiftRight_eq_div_pow]
    change sz.toNat / 2 ^ 24 % 2 ^ 8 = _
    omega
  have second : (((sz >>> 16) &&& 0xff).toUInt8).toNat = sz.toNat / 2 ^ 16 % 2 ^ 8 := by
    rw [toNat_lastByte, UInt32.toNat_shiftRight, Nat.shiftRight_eq_div_pow]
    rfl
  have third : (((sz >>> 8) &&& 0xff).toUInt8).toNat = sz.toNat / 2 ^ 8 % 2 ^ 8 := by
    rw [toNat_lastByte, UInt32.toNat_shiftRight, Nat.shiftRight_eq_div_pow]
    rfl
  have fourth := toNat_lastByte sz
  have start : ((0 : UInt32) ||| ((((sz >>> 24) &&& 0xff).toUInt8 ||| 0x80) &&& 0x7f).toUInt32).toNat =
      sz.toNat / 2 ^ 24 := by
    rw [UInt32.zero_or, UInt8.toNat_toUInt32, unmarked _ (by rw [first]; omega), first]
  have two := toNat_push _ ((sz >>> 16) &&& 0xff).toUInt8 (lt_of_eq_of_lt start (by omega))
  rw [start, second] at two
  have three := toNat_push _ ((sz >>> 8) &&& 0xff).toUInt8 (lt_of_eq_of_lt two (by omega))
  rw [two, third] at three
  have four := toNat_push _ (sz &&& 0xff).toUInt8 (lt_of_eq_of_lt three (by omega))
  rw [three, fourth] at four
  apply UInt32.toNat_inj.mp
  refine four.trans ?_
  omega

/-! ### Records -/

section Records

variable (encode : α → Bytes) (decode : Bytes → Except String α)

def record (t : α) : Bytes :=
  header (UInt32.ofNat (encode t).length) ++ encode t

def fileOf (records : List α) : Bytes :=
  records.flatMap (record encode)

/-- Where one of the records ends, or the first one begins. -/
def Boundary (records : List α) (cut : Nat) : Prop :=
  ∃ before ≤ records.length, cut = (fileOf encode (records.take before)).length

/-- After one, two or three of the four bytes of a length. -/
def InsideHeader (records : List α) (cut : Nat) : Prop :=
  ∃ before < records.length,
    (fileOf encode (records.take before)).length < cut ∧
      cut < (fileOf encode (records.take before)).length + 4

theorem record_length (t : α) : (record encode t).length = 4 + (encode t).length :=
  List.length_append

variable {encode decode}

theorem fileOf_cons (t : α) (later : List α) :
    fileOf encode (t :: later) = record encode t ++ fileOf encode later := rfl

theorem toNat_size {t : α} (short : (encode t).length < 2 ^ 31) :
    (UInt32.ofNat (encode t).length).toNat = (encode t).length := by
  rw [UInt32.toNat_ofNat']
  omega

theorem short_size {t : α} (short : (encode t).length < 2 ^ 31) :
    UInt32.ofNat (encode t).length < 0x80000000 := by
  apply UInt32.lt_iff_toNat_lt.mpr
  rw [toNat_size short]
  exact short

theorem resize_length (buffer : Bytes) {size : Nat} (grows : buffer.length ≤ size) :
    (resize buffer size).length = size := by
  unfold resize
  rw [List.length_append, List.length_replicate, List.take_of_length_le grows]
  omega

theorem overwritten {buffer body : Bytes} {first second third fourth : UInt8}
    (room : 4 + body.length ≤ buffer.length) :
    (overwrite ((((buffer.set 0 first).set 1 second).set 2 third).set 3 fourth) 4 body).take
      (4 + body.length) = [first, second, third, fourth] ++ body := by
  obtain ⟨a, b, c, d, rest, rfl⟩ : ∃ a b c d rest, buffer = a :: b :: c :: d :: rest := by
    match buffer, room with
    | a :: b :: c :: d :: rest, _ => exact ⟨a, b, c, d, rest, rfl⟩
    | [], room | [_], room | [_, _], room | [_, _, _], room =>
        simp only [List.length_cons, List.length_nil] at room
        omega
  change ([first, second, third, fourth] ++ body ++ _).take (4 + body.length) = _
  exact List.take_left' (by rw [List.length_append]; rfl)

theorem writeOne_ok (stream : XDROutputFileStream) {t : α} (short : (encode t).length < 2 ^ 31)
    (hasher : Option Bytes) (bytesPut : Option Nat) :
    ∃ mBuf, writeOne encode stream t hasher bytesPut =
      .ok ({ mOut := stream.mOut ++ record encode t, mBuf }, hasher.map (· ++ record encode t),
        bytesPut.map (· + (record encode t).length)) := by
  have size := toNat_size short
  have four : (UInt32.ofNat (encode t).length + 4).toNat = 4 + (encode t).length := by
    rw [UInt32.toNat_add, size]
    change ((encode t).length + 4) % 2 ^ 32 = _
    omega
  unfold writeOne
  rw [if_neg (not_not.mpr (short_size short)), if_neg (not_not.mpr size.symm)]
  dsimp only
  rw [four, record_length]
  split
  · rename_i small
    rw [overwritten (by rw [resize_length _ small.le])]
    exact ⟨_, rfl⟩
  · rename_i large
    rw [overwritten (Nat.le_of_not_lt large)]
    exact ⟨_, rfl⟩

theorem writeAll_ok {records : List α} (stream : XDROutputFileStream)
    (short : ∀ t ∈ records, (encode t).length < 2 ^ 31) :
    ∃ mBuf, writeAll encode stream records =
      .ok { mOut := stream.mOut ++ fileOf encode records, mBuf } := by
  induction records generalizing stream with
  | nil =>
      refine ⟨stream.mBuf, ?_⟩
      change Except.ok stream = .ok { mOut := stream.mOut ++ [], mBuf := stream.mBuf }
      rw [List.append_nil]
  | cons t later ih =>
      obtain ⟨mBuf, wrote⟩ := writeOne_ok stream (short t (List.mem_cons_self ..)) none none
      obtain ⟨last, rest⟩ := ih { mOut := stream.mOut ++ record encode t, mBuf }
        fun other member => short other (List.mem_cons_of_mem t member)
      refine ⟨last, ?_⟩
      unfold writeAll
      rw [wrote]
      change writeAll encode _ later = _
      rw [rest, fileOf_cons, List.append_assoc]

theorem not_failed : ¬ (!true) = true := Bool.false_ne_true

theorem read_all (bytes rest : Bytes) :
    IfStream.read ⟨bytes ++ rest, true⟩ bytes.length = (bytes, ⟨rest, true⟩) := by
  unfold IfStream.read
  rw [if_neg not_failed, if_pos (by rw [List.length_append]; omega)]
  change ((bytes ++ rest).take bytes.length, IfStream.mk ((bytes ++ rest).drop bytes.length) true) = _
  rw [List.take_left, List.drop_left]

theorem read_short {bytes : Bytes} {count : Nat} (short : bytes.length < count) :
    IfStream.read ⟨bytes, true⟩ count = (bytes, ⟨[], false⟩) := by
  unfold IfStream.read
  rw [if_neg not_failed, if_neg (Nat.not_le.mpr short)]

theorem readOne_noHeader {stream : XDRInputFileStream} {bytes : Bytes}
    (here : stream.mIn = ⟨bytes, true⟩) (short : bytes.length < 4) :
    (readOne decode stream).1 = .noMore := by
  unfold readOne
  rw [here, read_short short]
  rfl

theorem readOne_shortBody {stream : XDRInputFileStream} {t : α} {body : Bytes}
    (short : (encode t).length < 2 ^ 31) (noLimit : stream.mSizeLimit = 0)
    (here : stream.mIn = ⟨header (UInt32.ofNat (encode t).length) ++ body, true⟩)
    (cut : body.length < (encode t).length) :
    (readOne decode stream).1 = .thrown "malformed XDR file" := by
  have size := sizeOf_header (short_size short) []
  rw [List.append_nil] at size
  have four : (header (UInt32.ofNat (encode t).length)).length = 4 := rfl
  unfold readOne
  rw [here, ← four, read_all]
  dsimp only
  rw [if_neg not_failed, size, toNat_size short, if_neg (fun limited => limited.1 noLimit), read_short cut]
  rfl

theorem readOne_record {stream : XDRInputFileStream} {t : α} {rest : Bytes}
    (decodes : decode (encode t) = .ok t) (short : (encode t).length < 2 ^ 31)
    (noLimit : stream.mSizeLimit = 0) (here : stream.mIn = ⟨record encode t ++ rest, true⟩) :
    ∃ mBuf, readOne decode stream =
      (.value t, { mIn := ⟨rest, true⟩, mBuf, mSizeLimit := 0 }) := by
  have size := sizeOf_header (short_size short) []
  rw [List.append_nil] at size
  have four : (header (UInt32.ofNat (encode t).length)).length = 4 := rfl
  unfold readOne
  rw [here, record, List.append_assoc, ← four, read_all]
  dsimp only
  rw [if_neg not_failed, size, toNat_size short, if_neg (fun limited => limited.1 noLimit),
    read_all]
  dsimp only
  rw [if_neg not_failed, overwrite, List.take_zero, List.nil_append, List.take_left, decodes,
    noLimit]
  exact ⟨_, rfl⟩

/-! ### Cuts -/

theorem boundary_cons {t : α} (later : List α) {cut : Nat}
    (past : (record encode t).length ≤ cut) :
    Boundary encode (t :: later) cut ↔
      Boundary encode later (cut - (record encode t).length) := by
  have positive := record_length encode t
  constructor
  · rintro ⟨_ | before, within, same⟩
    · change cut = 0 at same
      omega
    · rw [List.take_succ_cons, fileOf_cons, List.length_append] at same
      exact ⟨before, Nat.le_of_succ_le_succ within, by omega⟩
  · rintro ⟨before, within, same⟩
    refine ⟨before + 1, Nat.succ_le_succ within, ?_⟩
    rw [List.take_succ_cons, fileOf_cons, List.length_append]
    omega

theorem insideHeader_cons {t : α} (later : List α) {cut : Nat}
    (past : (record encode t).length ≤ cut) :
    InsideHeader encode (t :: later) cut ↔
      InsideHeader encode later (cut - (record encode t).length) := by
  have positive := record_length encode t
  constructor
  · rintro ⟨_ | before, within, above, below⟩
    · change cut < 0 + 4 at below
      omega
    · rw [List.take_succ_cons, fileOf_cons, List.length_append] at above below
      exact ⟨before, Nat.lt_of_succ_lt_succ within, by omega, by omega⟩
  · rintro ⟨before, within, above, below⟩
    refine ⟨before + 1, Nat.succ_lt_succ within, ?_⟩
    rw [List.take_succ_cons, fileOf_cons, List.length_append]
    omega

theorem boundary_first {t : α} (later : List α) {cut : Nat}
    (within : cut < (record encode t).length) :
    Boundary encode (t :: later) cut ↔ cut = 0 := by
  constructor
  · rintro ⟨_ | before, _, same⟩
    · exact same
    · rw [List.take_succ_cons, fileOf_cons, List.length_append] at same
      omega
  · rintro rfl
    exact ⟨0, Nat.zero_le _, rfl⟩

theorem insideHeader_first {t : α} (later : List α) {cut : Nat}
    (within : cut < (record encode t).length) :
    InsideHeader encode (t :: later) cut ↔ 0 < cut ∧ cut < 4 := by
  constructor
  · rintro ⟨_ | before, _, above, below⟩
    · change 0 < cut at above
      change cut < 0 + 4 at below
      omega
    · rw [List.take_succ_cons, fileOf_cons, List.length_append] at above
      omega
  · rintro ⟨above, below⟩
    exact ⟨0, Nat.succ_pos _, above, by change cut < 0 + 4; omega⟩

theorem readMany_value {stream after : XDRInputFileStream} {t : α} (calls : Nat)
    (read : readOne decode stream = (.value t, after)) :
    readMany decode (calls + 1) stream =
      (t :: (readMany decode calls after).1, (readMany decode calls after).2) := by
  rw [readMany, read]

theorem readMany_noMore {stream : XDRInputFileStream} (calls : Nat)
    (read : (readOne decode stream).1 = .noMore) :
    readMany decode (calls + 1) stream = ([], .endOfFile) := by
  rw [readMany, ← @Prod.mk.eta _ _ (readOne decode stream), read]

theorem readMany_thrown {stream : XDRInputFileStream} {what : String} (calls : Nat)
    (read : (readOne decode stream).1 = .thrown what) :
    readMany decode (calls + 1) stream = ([], .exception what) := by
  rw [readMany, ← @Prod.mk.eta _ _ (readOne decode stream), read]

/-- How reading a cut file ends is decided by where the cut is. -/
structure Ends (encode : α → Bytes) (records : List α) (cut : Nat) (ending : Ending) : Prop where
  apart : ¬ (Boundary encode records cut ∧ InsideHeader encode records cut)
  quiet : Boundary encode records cut ∨ InsideHeader encode records cut → ending = .endOfFile
  loud : ¬ Boundary encode records cut → ¬ InsideHeader encode records cut →
    ending = .exception "malformed XDR file"

theorem readMany_file (decodes : ∀ t, decode (encode t) = .ok t) {records : List α}
    (short : ∀ t ∈ records, (encode t).length < 2 ^ 31)
    {stream : XDRInputFileStream} (noLimit : stream.mSizeLimit = 0)
    (here : stream.mIn = ⟨fileOf encode records, true⟩) {calls : Nat}
    (enough : records.length < calls) :
    readMany decode calls stream = (records, .endOfFile) := by
  induction records generalizing stream calls with
  | nil =>
      obtain _ | calls := calls
      · cases enough
      · exact readMany_noMore calls (readOne_noHeader here (Nat.succ_pos 3))
  | cons t later ih =>
      obtain _ | calls := calls
      · cases enough
      rw [fileOf_cons] at here
      obtain ⟨mBuf, read⟩ := readOne_record (decodes t) (short t (List.mem_cons_self ..)) noLimit here
      have rest : readMany decode calls
          { mIn := ⟨fileOf encode later, true⟩, mBuf, mSizeLimit := 0 } = (later, .endOfFile) :=
        ih (fun other member => short other (List.mem_cons_of_mem t member)) rfl rfl
          (Nat.lt_of_succ_lt_succ enough)
      rw [readMany_value calls read, rest]

theorem readMany_cut (decodes : ∀ t, decode (encode t) = .ok t) {records : List α}
    (short : ∀ t ∈ records, (encode t).length < 2 ^ 31)
    {stream : XDRInputFileStream} (noLimit : stream.mSizeLimit = 0) {cut : Nat}
    (here : stream.mIn = ⟨(fileOf encode records).take cut, true⟩)
    (within : cut ≤ (fileOf encode records).length) {calls : Nat}
    (enough : records.length < calls) :
    Ends encode records cut (readMany decode calls stream).2 := by
  induction records generalizing stream cut calls with
  | nil =>
      obtain _ | calls := calls
      · cases enough
      obtain rfl : cut = 0 := Nat.le_zero.mp within
      rw [readMany_noMore calls (readOne_noHeader here (Nat.succ_pos 3))]
      constructor
      · rintro ⟨_, before, none, _⟩
        cases none
      · intro _
        rfl
      · intro notBoundary
        exact absurd ⟨0, Nat.le_refl 0, rfl⟩ notBoundary
  | cons t later ih =>
      obtain _ | calls := calls
      · cases enough
      have shortFirst := short t (List.mem_cons_self ..)
      rw [fileOf_cons, List.length_append] at within
      rw [fileOf_cons, List.take_append] at here
      by_cases past : (record encode t).length ≤ cut
      · rw [List.take_of_length_le past] at here
        obtain ⟨mBuf, read⟩ := readOne_record (decodes t) shortFirst noLimit here
        have rest : Ends encode later (cut - (record encode t).length)
            (readMany decode calls
              { mIn := ⟨(fileOf encode later).take (cut - (record encode t).length), true⟩,
                mBuf, mSizeLimit := 0 }).2 :=
          ih (fun other member => short other (List.mem_cons_of_mem t member)) rfl rfl
            (by omega) (Nat.lt_of_succ_lt_succ enough)
        rw [readMany_value calls read]
        have boundary := boundary_cons later past
        have inside := insideHeader_cons later past
        exact ⟨by rw [boundary, inside]; exact rest.apart,
          by rw [boundary, inside]; exact rest.quiet, by rw [boundary, inside]; exact rest.loud⟩
      · have cutFirst := Nat.lt_of_not_le past
        rw [Nat.sub_eq_zero_of_le cutFirst.le, List.take_zero, List.append_nil] at here
        have boundary := boundary_first later cutFirst
        have inside := insideHeader_first later cutFirst
        by_cases noHeader : cut < 4
        · rw [readMany_noMore calls (readOne_noHeader here
            (lt_of_le_of_lt (List.length_take_le _ _) noHeader))]
          constructor
          · rw [boundary, inside]
            omega
          · intro _
            rfl
          · rw [boundary, inside]
            omega
        · have length := record_length encode t
          rw [record, List.take_append, List.take_of_length_le (Nat.le_of_not_lt noHeader)] at here
          have thrown : (readOne decode stream).1 = .thrown "malformed XDR file" :=
            readOne_shortBody shortFirst noLimit here (by
              rw [List.length_take]
              change min (cut - 4) _ < _
              omega)
          rw [readMany_thrown calls thrown]
          constructor
          · rw [boundary, inside]
            omega
          · rw [boundary, inside]
            omega
          · intro _ _
            rfl

/-- A written file is read back, and a cut goes unnoticed exactly inside the length of a record. -/
theorem xdrFile_cut_noticed_iff (encode : α → Bytes) (decode : Bytes → Except String α)
    (decodes : ∀ t, decode (encode t) = .ok t) (records : List α)
    (short : ∀ t ∈ records, (encode t).length < 2 ^ 31) (calls : Nat)
    (enough : records.length < calls) :
    ∃ written, writeAll encode openedOut records = .ok written ∧
      readMany decode calls (openedIn written.mOut) = (records, .endOfFile) ∧
      ∀ cut ≤ written.mOut.length,
        (Boundary encode records cut ∨
          ∃ what, (readMany decode calls (openedIn (written.mOut.take cut))).2 =
            .exception what) ↔
        ¬ InsideHeader encode records cut := by
  obtain ⟨mBuf, wrote⟩ := writeAll_ok openedOut short
  refine ⟨_, wrote, ?_, ?_⟩
  · exact readMany_file decodes short rfl rfl enough
  · intro cut within
    have ends : Ends encode records cut
        (readMany decode calls (openedIn ((fileOf encode records).take cut))).2 :=
      readMany_cut decodes short rfl rfl within enough
    constructor
    · intro noticed inside
      rcases noticed with boundary | ⟨what, thrown⟩
      · exact ends.apart ⟨boundary, inside⟩
      · rw [show (openedOut.mOut ++ fileOf encode records) = fileOf encode records from rfl,
          ends.quiet (Or.inr inside)] at thrown
        cases thrown
    · intro notInside
      by_cases boundary : Boundary encode records cut
      · exact Or.inl boundary
      · exact Or.inr ⟨_, ends.loud boundary notInside⟩

def encodeByte (byte : UInt8) : Bytes := [0, 0, 0, byte]

def decodeByte : Bytes → Except String UInt8
  | [0, 0, 0, byte] => .ok byte
  | _ => .error "xdr_overflow"

/-- Three records are read back, and a cut inside the last of them throws. -/
theorem xdrFile_cut_noticed_iff_bytes :
    ∃ written, writeAll encodeByte openedOut [7, 8, 9] = .ok written ∧
      readMany decodeByte 4 (openedIn written.mOut) = ([7, 8, 9], .endOfFile) ∧
      ∃ what, (readMany decodeByte 4 (openedIn (written.mOut.take 22))).2 = .exception what := by
  have short : ∀ t ∈ ([7, 8, 9] : List UInt8), (encodeByte t).length < 2 ^ 31 := by
    intro t _
    change 4 < 2 ^ 31
    omega
  obtain ⟨written, wrote, read, cuts⟩ := xdrFile_cut_noticed_iff encodeByte decodeByte
    (fun _ => rfl) [7, 8, 9] short 4 (by decide)
  cases wrote
  refine ⟨_, rfl, read, ?_⟩
  have inBody : ¬ InsideHeader encodeByte [7, 8, 9] 22 := by
    unfold InsideHeader
    decide
  have noBoundary : ¬ Boundary encodeByte [7, 8, 9] 22 := by
    unfold Boundary
    decide
  exact ((cuts 22 (by decide)).mpr inBody).resolve_left noBoundary

/-- A file of one record that was cut after its first byte reads as an empty file. -/
theorem xdrFile_cut_unnoticed :
    ∃ written, writeAll encodeByte openedOut [7] = .ok written ∧
      1 ≤ written.mOut.length ∧ ¬ Boundary encodeByte [7] 1 ∧
      readMany decodeByte 2 (openedIn (written.mOut.take 1)) = ([], .endOfFile) := by
  refine ⟨⟨[128, 0, 0, 4, 0, 0, 0, 7], [128, 0, 0, 4, 0, 0, 0, 7]⟩, rfl, by decide, ?_, rfl⟩
  rintro ⟨before, within, same⟩
  match before, within with
  | 0, _ => exact absurd same (by decide)
  | 1, _ => exact absurd same (by decide)

end Records

end XDRStream

end ViiCore
