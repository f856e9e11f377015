import WKOpenVR.Text
import WKOpenVR.Base64

/-!
# Encoded commands for PowerShell

A script is handed to PowerShell as the base64 text of its UTF-16 code units, each with its
low byte first (`EncodePowerShellCommand`). The text decodes to these bytes
(`decode_encodePowerShellCommand`).
-/

namespace WKOpenVR.Common

open Text Nat Base64

variable (script : List UInt16)

/-- The bytes of the script, as the loop pushes them. -/
def scriptBytes : List UInt8 :=
  script.flatMap fun ch : UInt16 => [(ch &&& 0xFF).toUInt8, ((ch >>> 8) &&& 0xFF).toUInt8]

def kBase64 : List UInt16 :=
  (ascii "ABCDEFGHIJKLMNOPQRSTUVWXYZabcdefghijklmnopqrstuvwxyz0123456789+/").map UInt8.toUInt16

variable (v shift : UInt32)

/-- The character for the six bits of `v` from a bit on. -/
def base64Char : UInt16 := kBase64.getD ((v >>> shift) &&& 0x3F).toNat 0

/-- The loop over groups of three bytes, and the group that is left in the end. -/
def encodeGroups : List UInt8 → List UInt16
  | b₀ :: b₁ :: b₂ :: bytes =>
    let v := (b₀.toUInt32 <<< 16) ||| (b₁.toUInt32 <<< 8) ||| b₂.toUInt32
    base64Char v 18 :: base64Char v 12 :: base64Char v 6 :: base64Char v 0 :: encodeGroups bytes
  | [b₀, b₁] =>
    let v := (b₀.toUInt32 <<< 16) ||| (b₁.toUInt32 <<< 8)
    [base64Char v 18, base64Char v 12, base64Char v 6, 61]
  | [b₀] =>
    let v := b₀.toUInt32 <<< 16
    [base64Char v 18, base64Char v 12, 61, 61]
  | [] => []

def encodePowerShellCommand : List UInt16 :=
  encodeGroups (scriptBytes script)

/-- The code units of a string, each with its low byte first. -/
def littleEndian : List UInt8 :=
  script.flatMap fun ch => [.ofNat (ch.toNat % 256), .ofNat (ch.toNat / 256)]

theorem scriptBytes_eq_littleEndian : scriptBytes script = littleEndian script := by
  have hmask (n : ℕ) : n &&& 255 = n % 256 := and_two_pow_sub_one_eq_mod n 8
  unfold scriptBytes littleEndian
  congr 1
  funext ch
  have hch := ch.toNat_lt
  have hlow : (ch &&& 0xFF).toUInt8 = .ofNat (ch.toNat % 256) := by
    apply UInt8.toNat_inj.1
    simp [hmask]
  have hhigh : ((ch >>> 8) &&& 0xFF).toUInt8 = .ofNat (ch.toNat / 256) := by
    apply UInt8.toNat_inj.1
    simp [hmask, shiftRight_eq_div_pow]
  rw [hlow, hhigh]

variable (b₀ b₁ b₂ : UInt8)

/-- The number that a group of bytes is put together to. -/
theorem toNat_group : ((b₀.toUInt32 <<< 16) ||| (b₁.toUInt32 <<< 8) ||| b₂.toUInt32).toNat =
      65536 * b₀.toNat + 256 * b₁.toNat + b₂.toNat := by
  have h₀ := b₀.toNat_lt
  have h₁ := b₁.toNat_lt
  have h₂ := b₂.toNat_lt
  have hshift₀ : (b₀.toUInt32 <<< 16).toNat = b₀.toNat <<< 16 := by
    rw [UInt32.toNat_shiftLeft, UInt8.toNat_toUInt32]
    exact mod_eq_of_lt (by rw [shiftLeft_eq]; simp; omega)
  have hshift₁ : (b₁.toUInt32 <<< 8).toNat = b₁.toNat <<< 8 := by
    rw [UInt32.toNat_shiftLeft, UInt8.toNat_toUInt32]
    exact mod_eq_of_lt (by rw [shiftLeft_eq]; simp; omega)
  rw [UInt32.toNat_or, UInt32.toNat_or, hshift₀, hshift₁, UInt8.toNat_toUInt32, Nat.or_assoc,
    ← shiftLeft_add_eq_or_of_lt h₂, ← shiftLeft_add_eq_or_of_lt (i := 16)]
  · rw [shiftLeft_eq, shiftLeft_eq]
    omega
  · rw [shiftLeft_eq]
    omega

/-- The table has the character for each value. -/
theorem value?_kBase64 : ∀ i < 64, value? (kBase64.getD i 0).toNat = some i := by
  decide +kernel

theorem value?_base64Char (hshift : shift < 32) :
    value? (base64Char v shift).toNat = some (v.toNat / 2 ^ shift.toNat % 64) := by
  have hbits : ((v >>> shift) &&& 0x3F).toNat = v.toNat / 2 ^ shift.toNat % 64 := by
    have hmod : shift.toNat % 32 = shift.toNat := mod_eq_of_lt (UInt32.lt_iff_toNat_lt.1 hshift)
    rw [UInt32.toNat_and, UInt32.toNat_shiftRight, hmod, shiftRight_eq_div_pow]
    exact and_two_pow_sub_one_eq_mod _ 6
  rw [base64Char, hbits]
  exact value?_kBase64 _ (mod_lt _ (by decide))

/-- A group decodes to its bytes. -/
theorem bytes_group {v : ℕ} (hv : v = 65536 * b₀.toNat + 256 * b₁.toNat + b₂.toNat) :
    byte₁ v = b₀ ∧ byte₂ v = b₁ ∧ byte₃ v = b₂ := by
  have h₀ := b₀.toNat_lt
  have h₁ := b₁.toNat_lt
  have h₂ := b₂.toNat_lt
  have hdiv₁ : v / 65536 % 256 = b₀.toNat := by omega
  have hdiv₂ : v / 256 % 256 = b₁.toNat := by omega
  have hdiv₃ : v % 256 = b₂.toNat := by omega
  refine ⟨?_, ?_, ?_⟩
  · rw [byte₁, hdiv₁, UInt8.ofNat_toNat]
  · rw [byte₂, hdiv₂, UInt8.ofNat_toNat]
  · rw [byte₃, hdiv₃, UInt8.ofNat_toNat]

variable (bytes : List UInt8)

theorem decode_encodeGroups : decode ((encodeGroups bytes).map UInt16.toNat) = some bytes := by
  -- Along the groups; the last one is put together with zeros for the bytes that it lacks.
  fun_induction encodeGroups bytes with
  | case1 b₀ b₁ b₂ bytes v ih =>
    obtain ⟨h₀, h₁, h₂⟩ := bytes_group b₀ b₁ b₂ (toNat_group b₀ b₁ b₂)
    have hlast : value? (base64Char v 0).toNat = some (v.toNat % 64) := by
      rw [value?_base64Char v 0 (by decide)]
      simp
    simp only [List.map_cons]
    rw [decode_quantum (value?_base64Char v 18 (by decide))
      (value?_base64Char v 12 (by decide)) (value?_base64Char v 6 (by decide)) hlast, ih]
    simp only [Option.map_some, v, h₀, h₁, h₂]
  | case2 b₀ b₁ v =>
    have hv : v.toNat = 65536 * b₀.toNat + 256 * b₁.toNat + (0 : UInt8).toNat := by
      rw [← toNat_group]
      simp [v]
    obtain ⟨h₀, h₁, -⟩ := bytes_group b₀ b₁ 0 hv
    have hzero : v.toNat % 256 = 0 := by
      rw [hv]
      simp
      omega
    have hdecode := decode_two_bytes (value?_base64Char v 18 (by decide))
      (value?_base64Char v 12 (by decide)) (value?_base64Char v 6 (by decide)) hzero
    rw [h₀, h₁] at hdecode
    exact hdecode
  | case3 b₀ v =>
    have hv : v.toNat = 65536 * b₀.toNat + 256 * (0 : UInt8).toNat + (0 : UInt8).toNat := by
      rw [← toNat_group]
      simp [v]
    obtain ⟨h₀, -, -⟩ := bytes_group b₀ 0 0 hv
    have hzero : v.toNat % 65536 = 0 := by
      rw [hv]
      simp
    have hdecode := decode_one_byte (value?_base64Char v 18 (by decide))
      (value?_base64Char v 12 (by decide)) hzero
    rw [h₀] at hdecode
    exact hdecode
  | case4 => rfl

theorem length_encodeGroups : (encodeGroups bytes).length = 4 * ((bytes.length + 2) / 3) := by
  fun_induction encodeGroups bytes with
  | case1 b₀ b₁ b₂ bytes v ih =>
    simp only [List.length_cons, ih]
    omega
  | _ => simp

theorem length_littleEndian : (littleEndian script).length = 2 * script.length := by
  induction script with
  | nil => rfl
  | cons ch script ih =>
    rw [littleEndian, List.flatMap_cons, List.length_append, ← littleEndian, ih, List.length_cons]
    simp
    omega

/-- The text of a command decodes to the code units of the script, and has the length of a
padded text. -/
theorem decode_encodePowerShellCommand :
    Base64.decode ((encodePowerShellCommand script).map UInt16.toNat) =
        some (littleEndian script) ∧
      (encodePowerShellCommand script).length = 4 * ((2 * script.length + 2) / 3) := by
  unfold encodePowerShellCommand
  rw [scriptBytes_eq_littleEndian]
  refine ⟨decode_encodeGroups _, ?_⟩
  rw [length_encodeGroups, length_littleEndian]

example : encodePowerShellCommand [101, 120, 105, 116, 32, 48] =
    (ascii "ZQB4AGkAdAAgADAA").map UInt8.toUInt16 := by
  decide

end WKOpenVR.Common
