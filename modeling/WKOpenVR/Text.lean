import Mathlib.Data.Nat.Digits.Lemmas
import Mathlib.Data.List.DropRight

/-!
# Text

Texts as lists of bytes, the decimal representation of numbers, and the reading of a
number from a text as `std::stoi` does it. A number is read from its representation
(`parseInt_decimal`). A key is found where it was put, if what is before it does not
contain the key (`afterFirst_append`).
-/

namespace WKOpenVR.Text

open List

section Split

variable {α : Type*} {p : α → Bool} {text rest : List α}

theorem takeWhile_of_head? (h : ∀ c ∈ rest.head?, p c = false) : rest.takeWhile p = [] := by
  cases rest with
  | nil => rfl
  | cons c rest => exact takeWhile_cons_of_neg (by simp [h c rfl])

/-- A text is split where the characters with a property end. -/
theorem split_append (htext : ∀ c ∈ text, p c = true) (hrest : rest.takeWhile p = []) :
    (text ++ rest).takeWhile p = text ∧ (text ++ rest).dropWhile p = rest := by
  have happend := takeWhile_append_dropWhile (p := p) (l := rest)
  rw [hrest, nil_append] at happend
  rw [takeWhile_append_of_pos htext, dropWhile_append_of_pos htext, hrest, append_nil, happend]
  exact ⟨rfl, rfl⟩

end Split

/-- The bytes of an ASCII string. -/
def ascii (s : String) : List UInt8 := s.toList.map fun c => UInt8.ofNat c.toNat

variable (text : List UInt8)

/-- A text as a string, with one character for each byte. -/
def ofBytes : String := String.ofList (text.map fun c => Char.ofNat c.toNat)

/-- The bytes of a code point in UTF-8. -/
def utf8 (c : ℕ) : List UInt8 :=
  if c < 0x80 then [.ofNat c]
  else if c < 0x800 then [.ofNat (0xC0 + c / 64), .ofNat (0x80 + c % 64)]
  else if c < 0x10000 then
    [.ofNat (0xE0 + c / 4096), .ofNat (0x80 + c / 64 % 64), .ofNat (0x80 + c % 64)]
  else
    [.ofNat (0xF0 + c / 262144), .ofNat (0x80 + c / 4096 % 64), .ofNat (0x80 + c / 64 % 64),
      .ofNat (0x80 + c % 64)]

variable (c : UInt8)

def isDigit : Bool := decide (48 ≤ c ∧ c ≤ 57)

def isSpace : Bool := decide (c = 32 ∨ 9 ≤ c ∧ c ≤ 13)

def toLower : UInt8 := if 65 ≤ c ∧ c ≤ 90 then c + 32 else c

variable (n : ℕ)

/-- The decimal representation of a number (`std::to_string`). -/
def decimal : List UInt8 :=
  if n = 0 then [48] else (Nat.digits 10 n).reverse.map fun d => UInt8.ofNat (48 + d)

def digitsValue (ds : List UInt8) : ℕ := ds.foldl (fun acc c => 10 * acc + (c.toNat - 48)) 0

/-- The sign of a number, and what follows it. -/
def splitSign : List UInt8 → Bool × List UInt8
  | [] => (false, [])
  | c :: text =>
    if c = 45 then (true, text) else if c = 43 then (false, text) else (false, c :: text)

/-- What follows the first occurrence of a key in a text (`find`). -/
def afterFirst (key : List UInt8) : List UInt8 → Option (List UInt8)
  | [] => if key = [] then some [] else none
  | c :: text =>
    if key.isPrefixOf (c :: text) then some ((c :: text).drop key.length) else afterFirst key text

/-- The number that the whole text stands for, after white space, if it is an `int`. -/
def parseInt : Option ℤ :=
  let (negative, ds) := splitSign (text.dropWhile isSpace)
  if ds.isEmpty || !ds.all isDigit then none
  else
    let value : ℤ := if negative then -digitsValue ds else digitsValue ds
    if -2 ^ 31 ≤ value ∧ value < 2 ^ 31 then some value else none

theorem ofBytes_inj {text text' : List UInt8} : ofBytes text = ofBytes text' ↔ text = text' := by
  have hinj : Function.Injective fun c : UInt8 => Char.ofNat c.toNat := by
    intro c c' h
    have hvalid (c : UInt8) : (Char.ofNat c.toNat).toNat = c.toNat := by
      rw [Char.ofNat, dif_pos (.inl (c.toNat_lt.trans (by decide)))]
      rfl
    rw [← UInt8.toNat_inj, ← hvalid c, ← hvalid c']
    exact congrArg Char.toNat h
  rw [ofBytes, ofBytes, String.ofList_inj, map_inj_right fun _ _ h => hinj h]

theorem toNat_digit {d : ℕ} (hd : d < 10) : (UInt8.ofNat (48 + d)).toNat = 48 + d :=
  UInt8.toNat_ofNat_of_lt' (by rw [UInt8.size]; omega)

theorem isDigit_digit {d : ℕ} (hd : d < 10) : isDigit (UInt8.ofNat (48 + d)) = true := by
  simp only [isDigit, decide_eq_true_eq, UInt8.le_iff_toNat_le, toNat_digit hd]
  exact ⟨by simp, by simp; omega⟩

/-- A number is represented by digits. -/
theorem isDigit_of_mem_decimal {n : ℕ} {c : UInt8} (hc : c ∈ decimal n) : isDigit c = true := by
  unfold decimal at hc
  split_ifs at hc
  · obtain rfl := mem_singleton.1 hc
    rfl
  · obtain ⟨d, hd, rfl⟩ := mem_map.1 hc
    exact isDigit_digit (Nat.digits_lt_base (by omega) (mem_reverse.1 hd))

theorem decimal_ne_nil : decimal n ≠ [] := by
  unfold decimal
  split_ifs with hn <;> simp [Nat.digits_ne_nil_iff_ne_zero.2, hn]

theorem digitsValue_decimal : digitsValue (decimal n) = n := by
  unfold decimal digitsValue
  split_ifs with hn
  · exact hn.symm
  · rw [foldl_map, foldl_reverse]
    calc (Nat.digits 10 n).foldr (fun d acc => 10 * acc + ((UInt8.ofNat (48 + d)).toNat - 48)) 0
        = (Nat.digits 10 n).foldr (fun d acc => d + 10 * acc) 0 := by
          refine foldr_ext _ _ 0 fun d hd acc => ?_
          rw [toNat_digit (Nat.digits_lt_base (by omega) hd)]
          omega
      _ = Nat.ofDigits 10 (Nat.digits 10 n) := (Nat.ofDigits_eq_foldr 10 _).symm
      _ = n := Nat.ofDigits_digits 10 n

theorem decimal_eq_zero_iff {n : ℕ} : decimal n = [48] ↔ n = 0 := by
  refine ⟨fun h => ?_, fun h => by rw [decimal, if_pos h]⟩
  rw [← digitsValue_decimal n, h]
  rfl

/-- A digit is neither white space nor a sign. -/
theorem of_isDigit {c : UInt8} (hc : isDigit c = true) : isSpace c = false ∧ c ≠ 45 ∧ c ≠ 43 := by
  simp only [isDigit, decide_eq_true_eq, UInt8.le_iff_toNat_le] at hc
  refine ⟨?_, ?_, ?_⟩
  · simp only [isSpace, decide_eq_false_iff_not, UInt8.le_iff_toNat_le, UInt8.toNat_inj.symm]
    simp at hc ⊢
    omega
  · rintro rfl
    simp at hc
  · rintro rfl
    simp at hc

/-- There is neither white space nor a sign before a number. -/
theorem splitSign_decimal (rest : List UInt8) :
    splitSign ((decimal n ++ rest).dropWhile isSpace) = (false, decimal n ++ rest) := by
  cases hd : decimal n with
  | nil => exact absurd hd (decimal_ne_nil n)
  | cons c ds =>
    obtain ⟨hspace, hminus, hplus⟩ :=
      of_isDigit (isDigit_of_mem_decimal (n := n) (hd ▸ mem_cons_self))
    simp [hspace, splitSign, hminus, hplus]

/-- A number is read from its decimal representation. -/
theorem parseInt_decimal {n : ℕ} (hn : n < 2 ^ 31) : parseInt (decimal n) = some (n : ℤ) := by
  have hvalue := digitsValue_decimal n
  have hdigits : (decimal n).all isDigit = true :=
    all_eq_true.2 fun c hc => isDigit_of_mem_decimal hc
  have hsplit := splitSign_decimal n []
  rw [append_nil] at hsplit
  simpa [parseInt, hsplit, hdigits, decimal_ne_nil, hvalue] using hn

theorem length_decimal_le {n k : ℕ} (hn : n < 10 ^ (k + 1)) : (decimal n).length ≤ k + 1 := by
  unfold decimal
  split_ifs
  · simp
  · simpa using Nat.digits_length_le_iff (by omega) n |>.2 hn

/-- A text is read up to a character, whatever follows it. -/
theorem takeWhile_ne_append (a : UInt8) (text rest : List UInt8) :
    (text ++ a :: rest).takeWhile (· != a) = text.takeWhile (· != a) := by
  induction text with
  | nil => simp
  | cons c text ih => simp only [cons_append, takeWhile_cons, ih]

theorem takeWhile_ne_of_not_mem {a : UInt8} {text : List UInt8} (h : a ∉ text) :
    text.takeWhile (· != a) = text :=
  takeWhile_eq_self_iff.2 fun c hc => by simpa using ne_of_mem_of_not_mem hc h

/-- A key is found after a text that does not contain it, not even together with all but
    the last character of the key. -/
theorem afterFirst_append {key pre : List UInt8} (h : ¬key <:+: pre ++ key.dropLast)
    (rest : List UInt8) : afterFirst key (pre ++ (key ++ rest)) = some rest := by
  have hkey : key ≠ [] := by
    rintro rfl
    exact h nil_infix
  induction pre with
  | nil =>
    obtain ⟨c, key, rfl⟩ := exists_cons_of_ne_nil hkey
    have hpre : (c :: key).isPrefixOf (c :: (key ++ rest)) = true :=
      isPrefixOf_iff_prefix.2 (prefix_append (c :: key) rest)
    simp only [nil_append, cons_append, afterFirst, if_pos hpre]
    simp
  | cons c pre ih =>
    have hno : ¬key.isPrefixOf (c :: (pre ++ (key ++ rest))) = true := fun hpre => by
      refine h (List.IsPrefix.isInfix ?_)
      -- The key is too short to reach beyond its own last character.
      have hlen : key.length ≤ (c :: pre ++ key.dropLast).length := by
        simp only [length_append, length_cons, length_dropLast]
        omega
      have hsplit : c :: (pre ++ (key ++ rest)) =
          (c :: pre ++ key.dropLast) ++ (key.getLast hkey :: rest) := by
        conv_lhs => rw [← dropLast_append_getLast hkey]
        simp
      have hpre := isPrefixOf_iff_prefix.1 hpre
      rw [hsplit] at hpre
      exact prefix_of_prefix_length_le hpre (prefix_append _ _) hlen
    rw [cons_append, afterFirst, if_neg hno]
    exact ih fun hin => h (hin.trans (suffix_cons c _).isInfix)

end WKOpenVR.Text
