import Mathlib.Algebra.GroupWithZero.Nat
import Mathlib.Data.List.Basic

/-!
# Reading CBOR

A data item of CBOR (RFC 8949) starts with its head: a byte with the major type and five
more bits, which are the argument of the item or tell how many bytes it takes. The argument
is a number, the length of a string or the number of items of an array or map; arrays, maps
and strings may also be indefinite, and are then ended by a break.

A reader takes a text string, the start of a map or a whole item off a sequence of bytes. A
text string is UTF-8, and is read as the characters it encodes (`readTextString_eq`).
-/

namespace WKOpenVR.Cbor

variable (s : String)

/-- The bytes of a string. -/
def utf8 : List UInt8 := s.toByteArray.data.toList

variable (bs : List UInt8)

/-- The characters that the bytes encode. -/
def ofUtf8 : Option String := String.fromUTF8? ⟨bs.toArray⟩

/-- A number, most significant byte first. -/
def ofBe : ℕ := bs.foldl (fun n b => 2 ^ 8 * n + b.toNat) 0

/-- The head of an item: its major type, its argument (`none` if it is indefinite), and what
    follows. -/
def readHead : List UInt8 → Option (ℕ × Option ℕ × List UInt8)
  | [] => none
  | b :: bs =>
    let major := b.toNat / 32
    let info := b.toNat % 32
    if info < 24 then some (major, some info, bs)
    else if info < 28 then
      let n := 2 ^ (info - 24)
      if bs.length < n then none else some (major, some (ofBe (bs.take n)), bs.drop n)
    else if info = 31 then some (major, none, bs)
    else none

/-- `n` items, read by `read`. -/
def readItems (read : List UInt8 → Option (List UInt8)) : ℕ → List UInt8 → Option (List UInt8)
  | 0, bs => some bs
  | n + 1, bs => (read bs).bind (readItems read n)

/-- Items, read by `read`, up to a break. -/
def readUntilBreak (read : List UInt8 → Option (List UInt8)) :
    ℕ → List UInt8 → Option (List UInt8)
  | 0, _ => none
  | _ + 1, [] => none
  | fuel + 1, b :: bs =>
    if b = 0xFF then some bs else (read (b :: bs)).bind (readUntilBreak read fuel)

/-- What follows an item. -/
def skipItem : ℕ → List UInt8 → Option (List UInt8)
  | 0, _ => none
  | fuel + 1, bs =>
    match readHead bs with
    | some (0, some _, rest) | some (1, some _, rest) | some (7, some _, rest) => some rest
    | some (2, some n, rest) | some (3, some n, rest) =>
      if rest.length < n then none else some (rest.drop n)
    | some (4, some n, rest) => readItems (skipItem fuel) n rest
    | some (5, some n, rest) => readItems (skipItem fuel) (2 * n) rest
    | some (6, some _, rest) => skipItem fuel rest
    | some (2, none, rest) | some (3, none, rest) | some (4, none, rest) | some (5, none, rest) =>
      readUntilBreak (skipItem fuel) fuel rest
    | _ => none

/-- `SkipValue`. An item takes at least a byte. -/
def skipValue : Option (List UInt8) := skipItem bs.length bs

/-- The chunks of an indefinite text string, up to a break. -/
def readTextChunks : ℕ → List UInt8 → Option (List UInt8 × List UInt8)
  | 0, _ => none
  | _ + 1, [] => none
  | fuel + 1, b :: bs =>
    if b = 0xFF then some ([], bs)
    else
      match readHead (b :: bs) with
      | some (3, some n, rest) =>
        if rest.length < n then none
        else (readTextChunks fuel (rest.drop n)).map fun (text, rest') =>
          (rest.take n ++ text, rest')
      | _ => none

def readTextString : Option (String × List UInt8) :=
  match readHead bs with
  | some (3, some n, rest) =>
    if rest.length < n then none else (ofUtf8 (rest.take n)).map (·, rest.drop n)
  | some (3, none, rest) =>
    (readTextChunks rest.length rest).bind fun (text, rest') => (ofUtf8 text).map (·, rest')
  | _ => none

/-- `ReadStartMap`: the number of pairs, `none` if it is indefinite. -/
def readStartMap : Option (Option ℕ × List UInt8) :=
  match readHead bs with
  | some (5, pairs, rest) => some (pairs, rest)
  | _ => none

variable {b : UInt8}

/-- The argument of an item in its first byte. -/
theorem readHead_of_lt {bs : List UInt8} {major info : ℕ}
    (hb : b.toNat = 32 * major + info) (hinfo : info < 24) :
    readHead (b :: bs) = some (major, some info, bs) := by
  have hmajor : b.toNat / 32 = major := by omega
  have hmod : b.toNat % 32 = info := by omega
  simp only [readHead, hmajor, hmod, if_pos hinfo]

/-- The argument of an item in the byte after its first. -/
theorem readHead_byte {n : UInt8} {bs : List UInt8} {major : ℕ} (hb : b.toNat = 32 * major + 24) :
    readHead (b :: n :: bs) = some (major, some n.toNat, bs) := by
  have hmajor : b.toNat / 32 = major := by omega
  have hmod : b.toNat % 32 = 24 := by omega
  have hofBe : ofBe [n] = n.toNat := by simp [ofBe]
  have htake : (n :: bs).take 1 = [n] := rfl
  simp [readHead, hmajor, hmod, htake, hofBe]

theorem ofUtf8_utf8 : ofUtf8 (utf8 s) = some s := by
  have hbytes : (⟨(utf8 s).toArray⟩ : ByteArray) = s.toByteArray := by simp [utf8]
  rw [ofUtf8, hbytes, String.fromUTF8?, dif_pos s.isValidUTF8]
  rfl

/-- A text string of a definite length is read. -/
theorem readTextString_eq {bs rest : List UInt8} {s : String}
    (h : readHead bs = some (3, some (utf8 s).length, utf8 s ++ rest)) :
    readTextString bs = some (s, rest) := by
  simp [readTextString, h, ofUtf8_utf8]

end WKOpenVR.Cbor
