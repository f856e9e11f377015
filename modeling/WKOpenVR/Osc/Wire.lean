import Mathlib.Data.Nat.Bitwise
import Mathlib.Data.List.TakeWhile
import Mathlib.Algebra.Order.BigOperators.Group.List
import Mathlib.Tactic.IntervalCases
import Mathlib.Tactic.Linarith

/-!
# OSC messages

The serializer (`OscPacket`) and the parser (`OscReader`, `OscParseMessage`) of OSC
messages: an address, a type tag, and arguments that are integers, floats, strings and
blobs, everything padded to multiples of four bytes. A packet has a fixed capacity, and
is *ok* as long as everything written has fit; a reader is *valid* as long as everything
read was there.

What a packet writes is a list of bytes (`encode`), of which the packet is ok if and only
if it fits (`Wrote`). Reading it again gives back the message and consumes all of it
(`decode_encode`). Lengths, however, are 32 bits wide on both sides: `OscPad4` pads
within 32 bits, and the length of a blob is read as a signed number. A message that
fits is read back if and only if its strings and blobs are shorter than that
(`roundTrips_iff`).
-/

namespace WKOpenVR.Osc

open List Option Nat

/-! ## Padding -/

variable (n : ℕ)

/-- `OscPad4`. The mask `~3u` has 32 bits. -/
def oscPad4 : ℕ := (n + 3) &&& 0xFFFFFFFC

theorem oscPad4_eq : oscPad4 n = (n + 3) % 2 ^ 32 / 2 ^ 2 * 2 ^ 2 := by
  have hmask : 0xFFFFFFFC = (2 ^ 30 - 1) <<< 2 := by decide
  rw [oscPad4, hmask, ← shiftLeft_eq, ← shiftRight_eq_div_pow]
  refine eq_of_testBit_eq fun i => ?_
  simp only [testBit_and, testBit_shiftLeft, testBit_two_pow_sub_one,
    testBit_shiftRight, testBit_mod_two_pow]
  by_cases hi : 2 ≤ i
  · have hsub : 2 + (i - 2) = i := by omega
    have hlt : i - 2 < 30 ↔ i < 32 := by omega
    simp [hi, hsub, hlt, Bool.and_comm]
  · simp [hi]

/-- The multiple of four that follows. -/
def roundUp4 : ℕ := (n + 3) / 4 * 4

theorem oscPad4_le_roundUp4 : oscPad4 n ≤ roundUp4 n := by
  rw [oscPad4_eq, roundUp4]
  omega

theorem le_roundUp4 : n ≤ roundUp4 n := by
  rw [roundUp4]
  omega

theorem oscPad4_of_le {n : ℕ} (h : n ≤ 2 ^ 32 - 4) : oscPad4 n = roundUp4 n := by
  rw [oscPad4_eq, roundUp4]
  omega

theorem le_oscPad4_iff {n : ℕ} : n ≤ oscPad4 n ↔ n ≤ 2 ^ 32 - 4 := by
  rw [oscPad4_eq]
  omega

/-! ## Messages -/

/-- A string, without the NUL that terminates it in memory. -/
structure CStr where
  bytes : List UInt8
  nul_free : 0 ∉ bytes
  deriving DecidableEq

/-- What can be passed as a blob: its length is an unsigned number of 32 bits. -/
structure Blob where
  bytes : List UInt8
  length_lt : bytes.length < 2 ^ 32
  deriving DecidableEq

/-- An argument. A float is given by its bits. -/
inductive OscArg
  | int32 (v : BitVec 32)
  | float (bits : BitVec 32)
  | str (s : CStr)
  | blob (b : Blob)
  deriving DecidableEq

/-- The character of an argument in the type tag: `i`, `f`, `s` or `b`. -/
def OscArg.tag : OscArg → UInt8
  | .int32 _ => 105
  | .float _ => 102
  | .str _ => 115
  | .blob _ => 98

theorem OscArg.tag_ne_zero (a : OscArg) : a.tag ≠ 0 := by
  cases a <;> simp [tag]

/-- The type tag of the arguments, with the leading comma. -/
def typeTag (args : List OscArg) : CStr where
  bytes := 44 :: args.map OscArg.tag
  nul_free := by simp [OscArg.tag_ne_zero]

/-! ## Serialization -/

/-- A packet of capacity `N`. -/
structure OscPacket (N : ℕ) where
  /-- The part of the buffer that is written. -/
  data : List UInt8
  ok : Bool
  length_le : data.length ≤ N

/-- The bytes of an integer, most significant first. -/
def int32Bytes (v : BitVec 32) : List UInt8 :=
  [⟨v.extractLsb' 24 8⟩, ⟨v.extractLsb' 16 8⟩, ⟨v.extractLsb' 8 8⟩, ⟨v.extractLsb' 0 8⟩]

namespace OscPacket

variable {N : ℕ} (p : OscPacket N)

def empty : OscPacket N where
  data := []
  ok := true
  length_le := Nat.zero_le _

def appendByte (b : UInt8) : OscPacket N :=
  if p.ok then
    if h : p.data.length ≥ N then { p with ok := false }
    else { p with data := p.data ++ [b], length_le := by simp; omega }
  else p

def append (src : List UInt8) : OscPacket N :=
  if p.ok then
    if h : p.data.length + src.length > N then { p with ok := false }
    else { p with data := p.data ++ src, length_le := by simp; omega }
  else p

/-- The loop that pads what has `len` bytes. -/
def pad (len : ℕ) : OscPacket N := (fun p => p.appendByte 0)^[oscPad4 len - len] p

/-- `WriteInt32`, and `WriteFloat` of the bits. -/
def writeInt32 (v : BitVec 32) : OscPacket N := p.append (int32Bytes v)

def writeStr (s : CStr) : OscPacket N :=
  (p.append (s.bytes ++ [0])).pad (s.bytes.length + 1)

def writeBlob (b : Blob) : OscPacket N :=
  ((p.writeInt32 (BitVec.ofNat 32 b.bytes.length)).append b.bytes).pad b.bytes.length

def writeRawArgs (args : List UInt8) : OscPacket N := p.append args

variable (address : CStr)

/-- `Begin`. It starts over, whatever has been written. -/
def begin (typetag : CStr) : OscPacket N := (empty.writeStr address).writeStr typetag

def writeArg : OscArg → OscPacket N
  | .int32 v | .float v => p.writeInt32 v
  | .str s => p.writeStr s
  | .blob b => p.writeBlob b

/-- A message with all its arguments. -/
def message (args : List OscArg) : OscPacket N :=
  args.foldl writeArg (begin address (typeTag args))

end OscPacket

/-! ## Parsing -/

structure OscReader where
  data : List UInt8
  pos : ℕ
  valid : Bool
  deriving DecidableEq

namespace OscReader

variable (r : OscReader)

def ofBytes (data : List UInt8) : OscReader where
  data := data
  pos := 0
  valid := !data.isEmpty

/-- What has not been read yet. -/
def rest : List UInt8 := r.data.drop r.pos

def fail : OscReader := { r with valid := false }

def advance (n : ℕ) : OscReader := { r with pos := r.pos + n }

def atEnd : Bool := r.pos ≥ r.data.length

def readStr : Option CStr × OscReader :=
  if r.valid then
    if (r.rest.takeWhile (· ≠ 0)).length = r.rest.length then (none, r.fail)
    else if r.pos + oscPad4 ((r.rest.takeWhile (· ≠ 0)).length + 1) > r.data.length then
      (none, r.fail)
    else
      (some ⟨r.rest.takeWhile (· ≠ 0), fun h => by simpa using List.mem_takeWhile_imp h⟩,
        r.advance (oscPad4 ((r.rest.takeWhile (· ≠ 0)).length + 1)))
  else (none, r)

/-- `ReadInt32`, and the bits of `ReadFloat`: zero if they cannot be read. -/
def readInt32 : BitVec 32 × OscReader :=
  if r.valid then
    match r.rest with
    | b₀ :: b₁ :: b₂ :: b₃ :: _ =>
      (b₀.toBitVec.setWidth 32 <<< 24 ||| b₁.toBitVec.setWidth 32 <<< 16 |||
        b₂.toBitVec.setWidth 32 <<< 8 ||| b₃.toBitVec.setWidth 32, r.advance 4)
    | _ => (0, r.fail)
  else (0, r)

/-- `ReadBlob`, after its length. A length that is negative is not read. -/
def readBlobData (raw : BitVec 32) : Option Blob × OscReader :=
  if !r.valid || raw.msb then (none, r.fail)
  else if r.pos + raw.toNat > r.data.length then (none, r.fail)
  else if r.pos + oscPad4 raw.toNat > r.data.length then
    (none, (r.advance (oscPad4 raw.toNat)).fail)
  else
    (some ⟨r.rest.take raw.toNat, (List.length_take_le _ _).trans_lt raw.isLt⟩,
      r.advance (oscPad4 raw.toNat))

def readBlob : Option Blob × OscReader := r.readInt32.2.readBlobData r.readInt32.1

/-- The argument that a character of the type tag asks for. -/
def readArg (tag : UInt8) : Option (OscArg × OscReader) :=
  if tag = 105 then
    if r.readInt32.2.valid then some (.int32 r.readInt32.1, r.readInt32.2) else none
  else if tag = 102 then
    if r.readInt32.2.valid then some (.float r.readInt32.1, r.readInt32.2) else none
  else if tag = 115 then r.readStr.1.map fun s => (.str s, r.readStr.2)
  else if tag = 98 then r.readBlob.1.map fun b => (.blob b, r.readBlob.2)
  else none

def readArgs : List UInt8 → OscReader → Option (List OscArg × OscReader)
  | [], r => some ([], r)
  | tag :: tags, r => do
    let (a, r') ← r.readArg tag
    let (args, r'') ← readArgs tags r'
    return (a :: args, r'')

end OscReader

structure OscMessage where
  address : Option CStr
  typetag : Option CStr
  argData : List UInt8
  valid : Bool

variable (data : List UInt8)

def oscParseMessage : OscMessage :=
  let address := (OscReader.ofBytes data).readStr
  let typetag := address.2.readStr
  if typetag.2.valid && address.1.isSome && typetag.1.isSome then
    ⟨address.1, typetag.1, typetag.2.rest, true⟩
  else ⟨address.1, typetag.1, [], false⟩

/-- The message in `data`: it is parsed, and the arguments are read as the type tag says,
    which has to consume all of it. -/
def decode : Option (CStr × CStr × List OscArg) := do
  let msg := oscParseMessage data
  if msg.valid then
    let address ← msg.address
    let typetag ← msg.typetag
    let (args, r) ← (OscReader.ofBytes msg.argData).readArgs typetag.bytes.tail
    if r.atEnd then return (address, typetag, args) else none
  else none

/-! ## What is written -/

def padded (bs : List UInt8) : List UInt8 :=
  bs ++ List.replicate (oscPad4 bs.length - bs.length) 0

def CStr.encode (s : CStr) : List UInt8 := padded (s.bytes ++ [0])

def OscArg.encode : OscArg → List UInt8
  | .int32 v | .float v => int32Bytes v
  | .str s => s.encode
  | .blob b => int32Bytes (BitVec.ofNat 32 b.bytes.length) ++ padded b.bytes

def encode (address : CStr) (args : List OscArg) : List UInt8 :=
  address.encode ++ (typeTag args).encode ++ args.flatMap OscArg.encode

namespace OscPacket

variable {N : ℕ} {p : OscPacket N} {bs : List UInt8}

/-- The bytes `bs` have been written to the packet: it is ok if they have fit, and then
    they are what it holds. -/
structure Wrote (p : OscPacket N) (bs : List UInt8) : Prop where
  ok_iff : p.ok = true ↔ bs.length ≤ N
  data_eq : p.ok = true → p.data = bs

theorem wrote_empty : (empty : OscPacket N).Wrote [] :=
  ⟨by simp [empty], fun _ => rfl⟩

theorem Wrote.append (h : p.Wrote bs) (src : List UInt8) : (p.append src).Wrote (bs ++ src) := by
  rw [OscPacket.append]
  split_ifs with hok hfit
  · -- The packet was ok, but there is no room.
    rw [h.data_eq hok] at hfit
    refine ⟨?_, fun hf => by cases hf⟩
    simp only [Bool.false_eq_true, length_append, false_iff]
    omega
  · rw [h.data_eq hok] at hfit
    refine ⟨?_, fun _ => by simp [h.data_eq hok]⟩
    simp only [hok, length_append, true_iff]
    omega
  · have hlen := mt h.ok_iff.2 hok
    refine ⟨⟨fun hf => absurd hf hok, fun hf => ?_⟩, fun hf => absurd hf hok⟩
    rw [length_append] at hf
    omega

theorem appendByte_eq (b : UInt8) : p.appendByte b = p.append [b] := by
  rw [appendByte, OscPacket.append]
  have hroom : p.data.length + [b].length > N ↔ p.data.length ≥ N := by
    rw [length_singleton]
    omega
  simp only [hroom]

theorem Wrote.appendBytes (h : p.Wrote bs) (n : ℕ) :
    ((fun p => p.appendByte 0)^[n] p).Wrote (bs ++ List.replicate n 0) := by
  induction n with
  | zero => simpa using h
  | succ n ih =>
    rw [Function.iterate_succ_apply', appendByte_eq, replicate_succ', ← append_assoc]
    exact ih.append [0]

theorem Wrote.appendPadded (h : p.Wrote bs) (src : List UInt8) :
    ((p.append src).pad src.length).Wrote (bs ++ padded src) := by
  rw [padded, ← append_assoc]
  exact (h.append src).appendBytes _

theorem Wrote.writeStr (h : p.Wrote bs) (s : CStr) : (p.writeStr s).Wrote (bs ++ s.encode) := by
  have hpadded := h.appendPadded (s.bytes ++ [0])
  rwa [length_append] at hpadded

theorem Wrote.writeArg (h : p.Wrote bs) (a : OscArg) : (p.writeArg a).Wrote (bs ++ a.encode) := by
  cases a with
  | int32 v => exact h.append _
  | float v => exact h.append _
  | str s => exact h.writeStr s
  | blob b =>
    rw [OscArg.encode, ← append_assoc]
    exact (h.append _).appendPadded b.bytes

theorem Wrote.writeArgs (h : p.Wrote bs) (args : List OscArg) :
    (args.foldl OscPacket.writeArg p).Wrote (bs ++ args.flatMap OscArg.encode) := by
  induction args generalizing p bs with
  | nil => simpa using h
  | cons a args ih =>
    rw [foldl_cons, flatMap_cons, ← append_assoc]
    exact ih (h.writeArg a)

variable (address : CStr)

theorem wrote_begin (typetag : CStr) :
    (begin address typetag : OscPacket N).Wrote (address.encode ++ typetag.encode) :=
  (wrote_empty.writeStr address).writeStr typetag

/-- A message is written in whole, if it fits. -/
theorem wrote_message (args : List OscArg) :
    (message address args : OscPacket N).Wrote (encode address args) :=
  (wrote_begin address (typeTag args)).writeArgs args

end OscPacket

/-! ## What is read -/

variable (v : BitVec 32)

/-- The 32 bits of an integer are put together from its bytes. -/
theorem bits_int32Bytes :
    (v.extractLsb' 24 8).setWidth 32 <<< 24 ||| (v.extractLsb' 16 8).setWidth 32 <<< 16 |||
      (v.extractLsb' 8 8).setWidth 32 <<< 8 ||| (v.extractLsb' 0 8).setWidth 32 = v := by
  ext i hi
  simp only [BitVec.getElem_or, BitVec.getElem_shiftLeft, BitVec.getElem_setWidth,
    BitVec.getLsbD_extractLsb']
  interval_cases i <;> simp

theorem length_padded (bs : List UInt8) :
    (padded bs).length = max bs.length (oscPad4 bs.length) := by
  rw [padded, length_append, length_replicate]
  omega

variable (s : CStr)

/-- How far a reader goes to read the string. -/
def CStr.advance : ℕ := oscPad4 (s.bytes.length + 1)

/-- The string is short enough to be padded. -/
def CStr.Short : Prop := s.bytes.length + 1 ≤ 2 ^ 32 - 4

theorem CStr.length_encode : s.encode.length = max (s.bytes.length + 1) s.advance := by
  rw [CStr.encode, length_padded, length_append, length_singleton, CStr.advance]

theorem CStr.takeWhile_encode (tail : List UInt8) :
    (s.encode ++ tail).takeWhile (· ≠ 0) = s.bytes := by
  rw [encode, padded, append_assoc, append_assoc, takeWhile_append_of_pos fun b hb => ?_]
  · simp
  · have hb0 : b ≠ 0 := fun h0 => s.nul_free (h0 ▸ hb)
    simpa using hb0

theorem CStr.length_encode_of_short {s : CStr} (hs : s.Short) : s.encode.length = s.advance := by
  have hle : s.bytes.length + 1 ≤ s.advance := le_oscPad4_iff.2 hs
  rw [s.length_encode, max_eq_right hle]

/-- How far a reader goes to read the argument. -/
def OscArg.advance : OscArg → ℕ
  | .int32 _ | .float _ => 4
  | .str s => s.advance
  | .blob b => 4 + oscPad4 b.bytes.length

/-- The argument is short enough to be padded, and its length is not negative. -/
def OscArg.Short : OscArg → Prop
  | .int32 _ | .float _ => True
  | .str s => s.Short
  | .blob b => b.bytes.length < 2 ^ 31

@[simp] theorem length_int32Bytes : (int32Bytes v).length = 4 := rfl

theorem OscArg.length_encode_of_short {a : OscArg} (ha : a.Short) :
    a.encode.length = a.advance := by
  cases a with
  | int32 v => rfl
  | float v => rfl
  | str s => exact CStr.length_encode_of_short ha
  | blob b =>
    have hle : b.bytes.length ≤ oscPad4 b.bytes.length :=
      le_oscPad4_iff.2 (by simp only [OscArg.Short] at ha; omega)
    rw [encode, length_append, length_int32Bytes, length_padded, max_eq_right hle, advance]

namespace OscReader

variable {r r' : OscReader} {tail : List UInt8}

@[simp] theorem valid_advance : (r.advance n).valid = r.valid := rfl

@[simp] theorem data_advance : (r.advance n).data = r.data := rfl

@[simp] theorem pos_advance : (r.advance n).pos = r.pos + n := rfl

theorem advance_advance (m n : ℕ) : (r.advance m).advance n = r.advance (m + n) := by
  simp only [advance, add_assoc]

theorem rest_advance : (r.advance n).rest = r.rest.drop n := by
  rw [rest, rest, drop_drop, pos_advance, data_advance]

theorem rest_advance_of_append {bs : List UInt8} (h : r.rest = bs ++ tail) :
    (r.advance bs.length).rest = tail := by
  rw [rest_advance, h, drop_left]

theorem length_rest : r.rest.length = r.data.length - r.pos := length_drop

theorem readStr_encode {s : CStr} (hr : r.valid = true) (hrest : r.rest = s.encode ++ tail)
    (hs : s.Short) : r.readStr = (some s, r.advance s.encode.length) := by
  have htake := hrest ▸ s.takeWhile_encode tail
  have hlen := congrArg List.length hrest
  rw [length_rest, length_append] at hlen
  have hadvance := CStr.length_encode_of_short hs
  have hle := s.length_encode
  have hpos : s.bytes.length + 1 ≤ s.encode.length := by omega
  simp only [readStr, hr, htake, if_true]
  rw [if_neg (by rw [length_rest]; omega), if_neg (by simp only [CStr.advance] at hadvance; omega),
    hadvance, CStr.advance]

theorem readInt32_bytes {v : BitVec 32} (hr : r.valid = true)
    (hrest : r.rest = int32Bytes v ++ tail) : r.readInt32 = (v, r.advance 4) := by
  simp only [readInt32, hr, hrest, int32Bytes, if_true, cons_append, bits_int32Bytes]

theorem readBlob_encode {b : Blob} (hr : r.valid = true)
    (hrest : r.rest = (OscArg.blob b).encode ++ tail) (hb : b.bytes.length < 2 ^ 31) :
    r.readBlob = (some b, r.advance (OscArg.blob b).encode.length) := by
  have hlen := congrArg List.length hrest
  rw [length_rest, length_append, OscArg.length_encode_of_short (a := .blob b) hb,
    OscArg.advance] at hlen
  have hle : b.bytes.length ≤ oscPad4 b.bytes.length := le_oscPad4_iff.2 (by omega)
  rw [OscArg.encode, append_assoc] at hrest
  have hint := readInt32_bytes hr hrest
  have hrest' := rest_advance_of_append hrest
  have hraw : (BitVec.ofNat 32 b.bytes.length).toNat = b.bytes.length := by
    rw [BitVec.toNat_ofNat]
    exact mod_eq_of_lt b.length_lt
  have hmsb : (BitVec.ofNat 32 b.bytes.length).msb = false := by
    rw [BitVec.msb_eq_false_iff_two_mul_lt, hraw]
    omega
  have htake : (r.advance 4).rest.take b.bytes.length = b.bytes := by
    rw [← length_int32Bytes (BitVec.ofNat 32 b.bytes.length), hrest', padded, append_assoc,
      take_left]
  simp only [readBlob, hint, readBlobData, valid_advance, hr, hmsb, hraw, pos_advance,
    data_advance, htake, advance_advance]
  rw [if_neg (by simp), if_neg (by omega), if_neg (by omega),
    OscArg.length_encode_of_short (a := .blob b) hb, OscArg.advance]

/-- The tag of an argument asks for what has been written. -/
theorem readArg_encode {a : OscArg} (hr : r.valid = true) (hrest : r.rest = a.encode ++ tail)
    (ha : a.Short) : r.readArg a.tag = some (a, r.advance a.encode.length) := by
  cases a with
  | int32 _ | float _ => simp [readArg, OscArg.tag, readInt32_bytes hr hrest, hr, OscArg.encode]
  | str s => simp [readArg, OscArg.tag, readStr_encode hr hrest ha, OscArg.encode]
  | blob b => simp [readArg, OscArg.tag, readBlob_encode hr hrest ha]

theorem readArgs_encode {args : List OscArg} (hr : r.valid = true)
    (hrest : r.rest = args.flatMap OscArg.encode ++ tail) (hargs : ∀ a ∈ args, a.Short) :
    readArgs (args.map OscArg.tag) r =
      some (args, r.advance (args.flatMap OscArg.encode).length) := by
  induction args generalizing r with
  | nil => rfl
  | cons a args ih =>
    rw [flatMap_cons, append_assoc] at hrest
    have hrest' := rest_advance_of_append hrest
    have hargs' := ih (r := r.advance a.encode.length) hr hrest' fun b hb =>
      hargs b (mem_cons_of_mem _ hb)
    rw [map_cons, readArgs, readArg_encode hr hrest (hargs a mem_cons_self)]
    simp [hargs', advance_advance]

end OscReader

theorem OscArg.encode_ne_nil (a : OscArg) : a.encode ≠ [] := by
  cases a <;> simp [encode, int32Bytes, CStr.encode, padded]

/-- The message is short enough to be read back. -/
structure Short (address : CStr) (args : List OscArg) : Prop where
  address : address.Short
  typetag : (typeTag args).Short
  args : ∀ a ∈ args, a.Short

open OscReader

variable {address : CStr}

theorem oscParseMessage_encode {typetag : CStr} (ha : address.Short) (ht : typetag.Short)
    (argData : List UInt8) :
    oscParseMessage (address.encode ++ typetag.encode ++ argData) =
      ⟨some address, some typetag, argData, true⟩ := by
  set r := ofBytes (address.encode ++ typetag.encode ++ argData) with hr
  have hvalid : r.valid = true := by simp [hr, ofBytes, CStr.encode, padded]
  have hrest : r.rest = address.encode ++ (typetag.encode ++ argData) := append_assoc ..
  have hrest' := rest_advance_of_append hrest
  have haddress := readStr_encode hvalid hrest ha
  have htypetag := readStr_encode (r := r.advance _) hvalid hrest' ht
  simp only [oscParseMessage, ← hr, haddress, htypetag, valid_advance, hvalid,
    isSome_some, Bool.and_self, if_true, rest_advance_of_append hrest']

/-- A message that is short enough is read back from its bytes. -/
theorem decode_encode {args : List OscArg} (h : Short address args) :
    decode (encode address args) = some (address, typeTag args, args) := by
  have hmsg := oscParseMessage_encode h.address h.typetag (args.flatMap OscArg.encode)
  have hargs : (ofBytes (args.flatMap OscArg.encode)).readArgs
      (typeTag args).bytes.tail = some (args, (ofBytes
        (args.flatMap OscArg.encode)).advance (args.flatMap OscArg.encode).length) := by
    cases args with
    | nil => rfl
    | cons a args =>
      have hrest : (ofBytes ((a :: args).flatMap OscArg.encode)).rest =
          (a :: args).flatMap OscArg.encode ++ [] := (append_nil _).symm
      exact readArgs_encode (by simp [ofBytes, a.encode_ne_nil]) hrest h.args
  simp only [decode, encode, hmsg, if_true, bind_eq_bind, bind_some, hargs]
  simp [atEnd, ofBytes]

/-! ## What has been read -/

namespace OscReader

variable {r r' : OscReader}

theorem readStr_some {s : CStr} (h : r.readStr.1 = some s) :
    r.readStr.2 = r.advance s.advance ∧ r.pos + s.advance ≤ r.data.length := by
  unfold readStr at h ⊢
  split_ifs at h ⊢ with hr hnul hsize
  cases h
  exact ⟨rfl, Nat.le_of_not_lt hsize⟩

theorem readInt32_valid (h : r.readInt32.2.valid = true) :
    r.readInt32.2 = r.advance 4 ∧ r.pos + 4 ≤ r.data.length := by
  unfold readInt32 at h ⊢
  split_ifs at h ⊢ with hr
  · split at h
    · rename_i b₀ b₁ b₂ b₃ bs hrest
      have hlen := congrArg List.length hrest
      simp only [length_rest, length_cons] at hlen
      exact ⟨by simp, by omega⟩
    · cases h
  · exact absurd h hr

theorem readBlob_some {b : Blob} (h : r.readBlob.1 = some b) :
    r.readBlob.2 = r.advance (4 + oscPad4 b.bytes.length) ∧
      r.pos + 4 + oscPad4 b.bytes.length ≤ r.data.length ∧ b.bytes.length < 2 ^ 31 := by
  unfold readBlob readBlobData at h ⊢
  split_ifs at h ⊢ with hneg hsize hpad
  simp only [Bool.or_eq_true, Bool.not_eq_eq_eq_not, Bool.not_true, not_or, Bool.not_eq_false,
    Bool.not_eq_true] at hneg
  obtain ⟨hint, hpos⟩ := readInt32_valid hneg.1
  rw [hint] at hsize hpad h ⊢
  cases h
  have hlen : ((r.advance 4).rest.take r.readInt32.1.toNat).length = r.readInt32.1.toNat := by
    rw [length_take, length_rest]
    simp only [data_advance, pos_advance] at hsize ⊢
    omega
  have hmsb := BitVec.msb_eq_false_iff_two_mul_lt.1 hneg.2
  simp only [hlen, advance_advance, data_advance, pos_advance] at hpad ⊢
  exact ⟨trivial, by omega, by omega⟩

/-- An argument that has been read is not longer than its length can say. -/
theorem readArg_some {t : UInt8} {a : OscArg} (h : r.readArg t = some (a, r')) :
    r' = r.advance a.advance ∧ r.pos + a.advance ≤ r.data.length ∧
      ∀ b, a = .blob b → b.bytes.length < 2 ^ 31 := by
  unfold readArg at h
  split_ifs at h with hi hvalid hf hvalid hs hb
  · cases h
    exact ⟨(readInt32_valid hvalid).1, (readInt32_valid hvalid).2, fun _ hb => by cases hb⟩
  · cases h
    exact ⟨(readInt32_valid hvalid).1, (readInt32_valid hvalid).2, fun _ hb => by cases hb⟩
  · obtain ⟨s, hread, hs⟩ := map_eq_some_iff.1 h
    cases hs
    exact ⟨(readStr_some hread).1, (readStr_some hread).2, fun _ hb => by cases hb⟩
  · obtain ⟨b, hread, hb⟩ := map_eq_some_iff.1 h
    cases hb
    obtain ⟨hr', hpos, hlen⟩ := readBlob_some hread
    refine ⟨hr', by rw [OscArg.advance]; omega, fun b' hb' => ?_⟩
    cases hb'
    exact hlen

theorem readArgs_some {tags : List UInt8} {args : List OscArg}
    (h : readArgs tags r = some (args, r')) :
    r' = r.advance (args.map OscArg.advance).sum ∧
      (r.pos ≤ r.data.length → r'.pos ≤ r.data.length) ∧
      ∀ b, .blob b ∈ args → b.bytes.length < 2 ^ 31 := by
  induction tags generalizing r args with
  | nil =>
    cases h
    exact ⟨rfl, id, fun _ hb => by cases hb⟩
  | cons t tags ih =>
    simp only [readArgs, bind_eq_bind, bind_eq_some_iff, Prod.exists,
      Option.pure_def, Option.some.injEq, Prod.mk.injEq] at h
    obtain ⟨a, r₁, ha, args', r₂, hargs, rfl, rfl⟩ := h
    obtain ⟨rfl, hpos, hblob⟩ := readArg_some ha
    obtain ⟨rfl, hpos', hblobs⟩ := ih hargs
    refine ⟨by simp [advance_advance], fun _ => hpos' hpos, fun b hb => ?_⟩
    rcases mem_cons.1 hb with rfl | hb
    · exact hblob b rfl
    · exact hblobs b hb

end OscReader

variable {args : List OscArg} {typetag : CStr}

/-- The arguments of a message are what follows its address and its type tag. -/
theorem oscParseMessage_valid {data : List UInt8}
    (h : (oscParseMessage data).valid = true) (ha : (oscParseMessage data).address = some address)
    (ht : (oscParseMessage data).typetag = some typetag) :
    data.length = address.advance + typetag.advance + (oscParseMessage data).argData.length := by
  simp only [oscParseMessage] at h ha ht ⊢
  split_ifs at h ha ht ⊢
  obtain ⟨haddress, -⟩ := readStr_some ha
  obtain ⟨htypetag, hpos⟩ := readStr_some ht
  rw [htypetag, length_rest]
  rw [haddress] at hpos ⊢
  simp only [pos_advance, data_advance, ofBytes] at hpos ⊢
  omega

/-- What has been decoded is as long as the reader has advanced. -/
theorem length_of_decode {data : List UInt8} (h : decode data = some (address, typetag, args)) :
    data.length = address.advance + typetag.advance + (args.map OscArg.advance).sum ∧
      ∀ b, .blob b ∈ args → b.bytes.length < 2 ^ 31 := by
  simp only [decode] at h
  split_ifs at h with hvalid
  simp only [bind_eq_bind, bind_eq_some_iff, Prod.exists] at h
  obtain ⟨a, ha, t, ht, args', r, hargs, hr⟩ := h
  split_ifs at hr with hend
  cases hr
  obtain ⟨rfl, hpos, hblobs⟩ := readArgs_some hargs
  have hlen := oscParseMessage_valid hvalid ha ht
  have hpos := hpos (zero_le _)
  have hend := of_decide_eq_true hend
  simp only [pos_advance, data_advance, ofBytes] at hend hpos
  exact ⟨by omega, hblobs⟩

theorem CStr.advance_le (s : CStr) : s.advance ≤ s.encode.length := by
  rw [s.length_encode]
  exact le_max_right _ _

theorem CStr.short_of_advance {s : CStr} (h : s.encode.length ≤ s.advance) : s.Short := by
  have hlen := s.length_encode
  exact le_oscPad4_iff.1 (show s.bytes.length + 1 ≤ s.advance by omega)

variable (a : OscArg)

theorem OscArg.advance_le : a.advance ≤ a.encode.length := by
  cases a with
  | int32 v => exact le_refl _
  | float v => exact le_refl _
  | str s => exact s.advance_le
  | blob b =>
    rw [advance, encode, length_append, length_int32Bytes, length_padded]
    omega

theorem sum_advance_le (args : List OscArg) :
    (args.map OscArg.advance).sum ≤ (args.flatMap OscArg.encode).length := by
  rw [length_flatMap]
  exact sum_le_sum fun a _ => a.advance_le

theorem length_encode_le_of_sum
    (h : (args.flatMap OscArg.encode).length ≤ (args.map OscArg.advance).sum) :
    ∀ a ∈ args, a.encode.length ≤ a.advance := by
  induction args with
  | nil => simp
  | cons a args ih =>
    have ha := a.advance_le
    have hargs := sum_advance_le args
    simp only [map_cons, sum_cons, flatMap_cons, length_append] at h
    refine forall_mem_cons.2 ⟨by omega, ih (by omega)⟩

/-- A message that is read back is short. -/
theorem short_of_decode_encode
    (h : decode (encode address args) = some (address, typeTag args, args)) :
    Short address args := by
  obtain ⟨hlen, hblobs⟩ := length_of_decode h
  have ha := address.advance_le
  have ht := (typeTag args).advance_le
  have hargs := sum_advance_le args
  rw [encode, length_append, length_append] at hlen
  refine ⟨CStr.short_of_advance (by omega), CStr.short_of_advance (by omega), fun a hmem => ?_⟩
  have heq := length_encode_le_of_sum (by omega) a hmem
  cases a with
  | int32 v => trivial
  | float v => trivial
  | str s => exact CStr.short_of_advance heq
  | blob b => exact hblobs b hmem

/-- The size of a message, everything in it padded to multiples of four bytes. -/
def OscArg.paddedSize : OscArg → ℕ
  | .int32 _ | .float _ => 4
  | .str s => roundUp4 (s.bytes.length + 1)
  | .blob b => 4 + roundUp4 b.bytes.length

def paddedSize (address : CStr) (args : List OscArg) : ℕ :=
  roundUp4 (address.bytes.length + 1) + roundUp4 ((typeTag args).bytes.length + 1) +
    (args.map OscArg.paddedSize).sum

theorem CStr.length_encode_le (s : CStr) : s.encode.length ≤ roundUp4 (s.bytes.length + 1) := by
  rw [s.length_encode]
  exact max_le (le_roundUp4 _) (oscPad4_le_roundUp4 _)

theorem CStr.roundUp4_of_short {s : CStr} (hs : s.Short) :
    roundUp4 (s.bytes.length + 1) = s.encode.length := by
  rw [length_encode_of_short hs, CStr.advance, oscPad4_of_le hs]

theorem OscArg.length_encode_le : a.encode.length ≤ a.paddedSize := by
  cases a with
  | int32 v => exact le_refl _
  | float v => exact le_refl _
  | str s => exact s.length_encode_le
  | blob b =>
    rw [encode, length_append, length_int32Bytes, length_padded, paddedSize]
    exact Nat.add_le_add_left (max_le (le_roundUp4 _) (oscPad4_le_roundUp4 _)) 4

theorem OscArg.paddedSize_of_short {a : OscArg} (ha : a.Short) :
    a.paddedSize = a.encode.length := by
  cases a with
  | int32 v => rfl
  | float v => rfl
  | str s => exact CStr.roundUp4_of_short ha
  | blob b =>
    rw [length_encode_of_short ha, paddedSize, advance,
      oscPad4_of_le (by simp only [Short] at ha; omega)]

theorem length_encode_le (address : CStr) (args : List OscArg) :
    (encode address args).length ≤ paddedSize address args := by
  rw [encode, length_append, length_append, length_flatMap, paddedSize]
  exact Nat.add_le_add (Nat.add_le_add address.length_encode_le (typeTag args).length_encode_le)
    (sum_le_sum fun a _ => a.length_encode_le)

theorem paddedSize_of_short (h : Short address args) :
    paddedSize address args = (encode address args).length := by
  rw [encode, length_append, length_append, length_flatMap, paddedSize,
    CStr.roundUp4_of_short h.address, CStr.roundUp4_of_short h.typetag,
    map_congr_left fun a ha => OscArg.paddedSize_of_short (h.args a ha)]

/-- A message round-trips: its packet is ok if and only if its padded size is at most
    the capacity, and then it is read back. -/
def RoundTrips (N : ℕ) (address : CStr) (args : List OscArg) : Prop :=
  ((OscPacket.message address args : OscPacket N).ok = true ↔ paddedSize address args ≤ N) ∧
    ((OscPacket.message address args : OscPacket N).ok = true →
      decode (OscPacket.message address args : OscPacket N).data =
        some (address, typeTag args, args))

/-- A message round-trips if and only if it does not fit, or if its strings and its blobs
    are short enough for their length to have 32 bits. -/
theorem roundTrips_iff (N : ℕ) (address : CStr) (args : List OscArg) :
    RoundTrips N address args ↔ N < (encode address args).length ∨ Short address args := by
  have hwrote := OscPacket.wrote_message (N := N) address args
  constructor
  · rintro ⟨-, hread⟩
    refine or_iff_not_imp_left.2 fun hfit => ?_
    have hok := hwrote.ok_iff.2 (Nat.le_of_not_lt hfit)
    have hdecode := hread hok
    rw [hwrote.data_eq hok] at hdecode
    exact short_of_decode_encode hdecode
  · rintro (hfit | hshort)
    · have hle := length_encode_le address args
      have hok : ¬(OscPacket.message address args : OscPacket N).ok = true :=
        fun hok => absurd (hwrote.ok_iff.1 hok) (Nat.not_le_of_lt hfit)
      exact ⟨⟨fun h => absurd h hok, fun h => absurd h (by omega)⟩, fun h => absurd h hok⟩
    · rw [RoundTrips, paddedSize_of_short hshort, hwrote.ok_iff]
      refine ⟨Iff.rfl, fun hok => ?_⟩
      rw [hwrote.data_eq (hwrote.ok_iff.2 hok)]
      exact decode_encode hshort

/-- A blob of 2 GiB is written, if there is room for it, but not read back. -/
theorem large_blob_not_read :
    ∃ b : Blob, ¬RoundTrips (2 ^ 32) ⟨[], List.not_mem_nil⟩ [.blob b] := by
  obtain ⟨bs, hbs⟩ : ∃ bs : List UInt8, bs.length = 2 ^ 31 :=
    ⟨List.replicate (2 ^ 31) 0, length_replicate⟩
  obtain ⟨b, hb⟩ : ∃ b : Blob, b.bytes.length = 2 ^ 31 := ⟨⟨bs, by omega⟩, hbs⟩
  refine ⟨b, fun h => ?_⟩
  have hwrote := OscPacket.wrote_message (N := 2 ^ 32) ⟨[], not_mem_nil⟩ [.blob b]
  have hfits : (encode ⟨[], not_mem_nil⟩ [.blob b]).length ≤ 2 ^ 32 := by
    refine (length_encode_le _ _).trans ?_
    simp [paddedSize, OscArg.paddedSize, typeTag, hb, roundUp4]
  have hok := hwrote.ok_iff.2 hfits
  have hdecode := h.2 hok
  rw [hwrote.data_eq hok] at hdecode
  have hshort := (short_of_decode_encode hdecode).args (.blob b) mem_cons_self
  rw [OscArg.Short, hb] at hshort
  exact lt_irrefl _ hshort

end WKOpenVR.Osc
