import Mathlib.Data.Nat.Notation
import Mathlib.Tactic.SplitIfs

/-!
# Base64

The decoding of base64, over the codes of the characters. Four characters stand for a number
of 24 bits, which is three bytes. At the end of a text, one or two characters may be padding;
they stand for no byte, and the bits that are left over have to be zero.

What four characters decode to is told by the number that they stand for (`decode_quantum`,
`decode_two_bytes`, `decode_one_byte`).
-/

namespace WKOpenVR.Base64

open Option

/-- The six bits that a character stands for. -/
def value? (c : ℕ) : Option ℕ :=
  if 65 ≤ c ∧ c ≤ 90 then some (c - 65)
  else if 97 ≤ c ∧ c ≤ 122 then some (c - 71)
  else if 48 ≤ c ∧ c ≤ 57 then some (c + 4)
  else if c = 43 then some 62
  else if c = 47 then some 63
  else none

/-- The character `=`. -/
def pad : ℕ := 61

def decode : List ℕ → Option (List UInt8)
  | [] => some []
  | a :: b :: c :: d :: rest => do
    let x ← value? a
    let y ← value? b
    if rest.isEmpty ∧ d = pad then
      if c = pad then
        if y % 16 = 0 then some [.ofNat (4 * x + y / 16)] else none
      else
        let z ← value? c
        if z % 4 = 0 then some [.ofNat (4 * x + y / 16), .ofNat (16 * (y % 16) + z / 4)] else none
    else
      let z ← value? c
      let w ← value? d
      let bytes ← decode rest
      some (.ofNat (4 * x + y / 16) :: .ofNat (16 * (y % 16) + z / 4) ::
        .ofNat (64 * (z % 4) + w) :: bytes)
  | _ => none

/-- The first byte of a number of 24 bits. -/
def byte₁ (v : ℕ) : UInt8 := .ofNat (v / 65536 % 256)

def byte₂ (v : ℕ) : UInt8 := .ofNat (v / 256 % 256)

def byte₃ (v : ℕ) : UInt8 := .ofNat (v % 256)

variable {a b c d v : ℕ}

/-- Four characters that stand for a number. -/
theorem decode_quantum (ha : value? a = some (v / 262144 % 64))
    (hb : value? b = some (v / 4096 % 64)) (hc : value? c = some (v / 64 % 64))
    (hd : value? d = some (v % 64)) (rest : List ℕ) :
    decode (a :: b :: c :: d :: rest) =
      (decode rest).map fun bytes => byte₁ v :: byte₂ v :: byte₃ v :: bytes := by
  have hpad : d ≠ pad := by
    rintro rfl
    cases hd
  have h₁ : 4 * (v / 262144 % 64) + v / 4096 % 64 / 16 = v / 65536 % 256 := by omega
  have h₂ : 16 * (v / 4096 % 64 % 16) + v / 64 % 64 / 4 = v / 256 % 256 := by omega
  have h₃ : 64 * (v / 64 % 64 % 4) + v % 64 = v % 256 := by omega
  simp only [decode, ha, hb, hc, hd, hpad, and_false, if_false, bind_eq_bind,
    bind_some, h₁, h₂, h₃]
  cases decode rest <;> rfl

/-- Three characters and a padding, at the end. -/
theorem decode_two_bytes (ha : value? a = some (v / 262144 % 64))
    (hb : value? b = some (v / 4096 % 64)) (hc : value? c = some (v / 64 % 64))
    (hzero : v % 256 = 0) : decode [a, b, c, pad] = some [byte₁ v, byte₂ v] := by
  have hpad : c ≠ pad := by
    rintro rfl
    cases hc
  have h₁ : 4 * (v / 262144 % 64) + v / 4096 % 64 / 16 = v / 65536 % 256 := by omega
  have h₂ : 16 * (v / 4096 % 64 % 16) + v / 64 % 64 / 4 = v / 256 % 256 := by omega
  have hrest : v / 64 % 64 % 4 = 0 := by omega
  simp only [decode, ha, hb, hc, hpad, List.isEmpty_nil, and_self, if_true, if_false,
    bind_eq_bind, bind_some, h₁, h₂, hrest]
  rfl

/-- Two characters and two paddings, at the end. -/
theorem decode_one_byte (ha : value? a = some (v / 262144 % 64))
    (hb : value? b = some (v / 4096 % 64)) (hzero : v % 65536 = 0) :
    decode [a, b, pad, pad] = some [byte₁ v] := by
  have h₁ : 4 * (v / 262144 % 64) + v / 4096 % 64 / 16 = v / 65536 % 256 := by omega
  have hrest : v / 4096 % 64 % 16 = 0 := by omega
  simp only [decode, ha, hb, List.isEmpty_nil, and_self, if_true, bind_eq_bind,
    bind_some, h₁, hrest]
  rfl

end WKOpenVR.Base64
