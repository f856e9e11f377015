import Mathlib.Data.List.GetD

/-!
# UTF-8

A text in bytes is valid UTF-8 if it is the encoding of some characters (`Valid`). A character is
a first byte, followed by at most three continuation bytes (`encode_eq_cons`). Therefore a valid
text can be cut before any byte that is not a continuation byte (`Valid.of_append`), and ASCII
characters can be taken away at its ends.
-/

namespace WKOpenVR.Utf8

open List

/-- The bytes encode some characters. -/
def Valid (bytes : List UInt8) : Prop :=
  ∃ chars : List Char, bytes = chars.flatMap String.utf8EncodeChar

def isContinuation (byte : UInt8) : Bool := byte &&& 0xC0 == 0x80

theorem isContinuation_iff (byte : UInt8) :
    isContinuation byte = true ↔ 128 ≤ byte.toNat ∧ byte.toNat < 192 := by
  have hall : (List.range 256).all (fun n =>
      isContinuation (.ofNat n) == decide (128 ≤ n ∧ n < 192)) = true := by
    decide +kernel
  have hbyte := all_eq_true.1 hall byte.toNat (mem_range.2 byte.toNat_lt)
  rw [beq_iff_eq, UInt8.ofNat_toNat] at hbyte
  rw [hbyte, decide_eq_true_eq]

theorem not_isContinuation_of_lt {byte : UInt8} (h : byte.toNat < 128) :
    isContinuation byte = false := by
  rw [Bool.eq_false_iff, Ne, isContinuation_iff]
  omega

theorem isContinuation_ofNat (n : ℕ) : isContinuation (.ofNat (n % 64 + 128)) = true := by
  rw [isContinuation_iff, UInt8.toNat_ofNat']
  omega

/-- A first byte that is followed by others. -/
theorem firstByte_ofNat {n : ℕ} (hn : 192 ≤ n) (hlt : n < 256) :
    isContinuation (.ofNat n) = false ∧ ¬(UInt8.ofNat n).toNat < 128 := by
  rw [Bool.eq_false_iff, Ne, isContinuation_iff, UInt8.toNat_ofNat']
  omega

/-- The first byte of a character, and the continuation bytes. -/
theorem encode_eq_cons (c : Char) :
    ∃ byte rest, String.utf8EncodeChar c = byte :: rest ∧ isContinuation byte = false ∧
      (∀ b ∈ rest, isContinuation b = true) ∧ rest.length ≤ 3 ∧
      (byte.toNat < 128 → rest = []) := by
  fun_cases String.utf8EncodeChar c
  case case1 v hv =>
    refine ⟨_, [], rfl, not_isContinuation_of_lt ?_, by simp, by simp, fun _ => rfl⟩
    rw [UInt8.toNat_ofNat']
    omega
  case case2 v _ _ =>
    obtain ⟨hfirst, hlarge⟩ := @firstByte_ofNat (v / 64 % 32 + 192) (by omega) (by omega)
    refine ⟨_, _, rfl, hfirst, ?_, by simp, fun hlt => absurd hlt hlarge⟩
    simp only [mem_singleton, forall_eq, isContinuation_ofNat]
  case case3 v _ _ _ =>
    obtain ⟨hfirst, hlarge⟩ := @firstByte_ofNat (v / 4096 % 16 + 224) (by omega) (by omega)
    refine ⟨_, _, rfl, hfirst, ?_, by simp, fun hlt => absurd hlt hlarge⟩
    simp only [mem_cons, not_mem_nil, or_false, forall_eq_or_imp, forall_eq,
      isContinuation_ofNat, and_self]
  case case4 v _ _ _ =>
    obtain ⟨hfirst, hlarge⟩ := @firstByte_ofNat (v / 262144 % 8 + 240) (by omega) (by omega)
    refine ⟨_, _, rfl, hfirst, ?_, by simp, fun hlt => absurd hlt hlarge⟩
    simp only [mem_cons, not_mem_nil, or_false, forall_eq_or_imp, forall_eq,
      isContinuation_ofNat, and_self]

section Valid

variable {a b : List UInt8}

theorem valid_nil : Valid [] := ⟨[], rfl⟩

theorem Valid.append (ha : Valid a) (hb : Valid b) : Valid (a ++ b) := by
  obtain ⟨chars, rfl⟩ := ha
  obtain ⟨chars', rfl⟩ := hb
  exact ⟨chars ++ chars', flatMap_append.symm⟩

/-- A valid text begins with a character. -/
theorem Valid.eq_append (h : Valid a) (hne : a ≠ []) :
    ∃ (c : Char) (rest : List UInt8), a = String.utf8EncodeChar c ++ rest ∧ Valid rest := by
  obtain ⟨chars, rfl⟩ := h
  cases chars with
  | nil => exact absurd rfl hne
  | cons c chars => exact ⟨c, _, flatMap_cons, chars, rfl⟩

theorem Valid.head? (h : Valid a) : ∀ byte ∈ a.head?, isContinuation byte = false := by
  intro byte hbyte
  have hne : a ≠ [] := by
    rintro rfl
    cases hbyte
  obtain ⟨c, rest, rfl, -⟩ := h.eq_append hne
  obtain ⟨first, others, hencode, hfirst, -⟩ := encode_eq_cons c
  rw [hencode] at hbyte
  cases hbyte
  exact hfirst

/-- An ASCII character at the beginning. -/
theorem Valid.of_cons {byte : UInt8} (h : Valid (byte :: a)) (hbyte : byte.toNat < 128) :
    Valid a := by
  obtain ⟨c, rest, heq, hrest⟩ := h.eq_append (cons_ne_nil _ _)
  obtain ⟨first, others, hencode, -, -, -, hascii⟩ := encode_eq_cons c
  rw [hencode] at heq
  obtain ⟨rfl, rfl⟩ := List.cons.inj heq
  rw [hascii hbyte]
  exact hrest

/-- A valid text, cut where no continuation byte follows. -/
theorem Valid.of_append (h : Valid (a ++ b)) (hb : ∀ byte ∈ b.head?, isContinuation byte = false) :
    Valid a ∧ Valid b := by
  obtain ⟨chars, heq⟩ := h
  induction chars generalizing a with
  | nil =>
    obtain ⟨rfl, rfl⟩ := append_eq_nil_iff.1 heq
    exact ⟨valid_nil, valid_nil⟩
  | cons c chars ih =>
    rw [flatMap_cons] at heq
    rcases append_eq_append_iff.1 heq with ⟨gap, hgap, rfl⟩ | ⟨gap, rfl, hgap⟩
    · cases a with
      | nil =>
        rw [nil_append] at hgap
        rw [← hgap]
        exact ⟨valid_nil, c :: chars, flatMap_cons.symm⟩
      | cons byte a =>
        -- The rest of the character are continuation bytes, so it is not divided.
        obtain ⟨first, others, hencode, -, hothers, -⟩ := encode_eq_cons c
        rw [hencode] at hgap
        obtain ⟨-, hgap'⟩ := List.cons.inj hgap
        obtain rfl : gap = [] := by
          cases gap with
          | nil => rfl
          | cons next gap =>
            have hnext := hothers next (hgap' ▸ mem_append_right a mem_cons_self)
            rw [hb next rfl] at hnext
            cases hnext
        rw [append_nil] at hgap
        rw [← hgap, ← hencode]
        exact ⟨⟨[c], (append_nil _).symm⟩, chars, rfl⟩
    · obtain ⟨ha, hb'⟩ := ih hgap.symm
      exact ⟨Valid.append ⟨[c], (append_nil _).symm⟩ ha, hb'⟩

/-- ASCII characters at the end. -/
theorem Valid.of_append_ascii (h : Valid (a ++ b)) (hb : ∀ byte ∈ b, byte.toNat < 128) : Valid a :=
  (h.of_append fun byte hbyte =>
    not_isContinuation_of_lt (hb byte (mem_of_mem_head? hbyte))).1

theorem Valid.of_ascii_append (h : Valid (a ++ b)) (ha : ∀ byte ∈ a, byte.toNat < 128) :
    Valid b := by
  induction a with
  | nil => exact h
  | cons byte a ih =>
    obtain ⟨hbyte, ha⟩ := forall_mem_cons.1 ha
    exact ih (h.of_cons hbyte) ha

/-- A valid text that is longer than a character goes on with another one. -/
theorem Valid.exists_not_isContinuation (h : Valid a) (hlength : 4 < a.length) :
    ∃ i, 0 < i ∧ i ≤ 4 ∧ isContinuation (a.getD i 0) = false := by
  obtain ⟨c, rest, rfl, hrest⟩ := h.eq_append (by rintro rfl; simp at hlength)
  obtain ⟨first, others, hencode, -, -, hothers, -⟩ := encode_eq_cons c
  rw [hencode] at hlength ⊢
  rw [length_append, length_cons] at hlength
  refine ⟨others.length + 1, Nat.succ_pos _, by omega, ?_⟩
  cases rest with
  | nil => simp only [length_nil] at hlength; omega
  | cons byte rest =>
    have hlength' : (first :: others).length = others.length + 1 := rfl
    rw [← hlength', getD_append_right _ _ _ _ (Nat.le_refl _), Nat.sub_self]
    exact hrest.head? byte rfl

end Valid

end WKOpenVR.Utf8
