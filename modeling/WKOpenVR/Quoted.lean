import Mathlib.Data.List.Basic

/-!
# Quoted literals

A literal stands between delimiters, and a delimiter inside of it is doubled. Reading goes on
over a pair of delimiters, of which it takes the second one, and ends at a delimiter that is
alone (`scan`). Several characters may be delimiters, and any two of them make a pair.

* `of_scan_eq_some`: what is read accounts for what is consumed, and no delimiter follows;
* `scan_double_append`: a text whose delimiters are all doubled is read as it is.
-/

namespace WKOpenVR.Quoted

open List

variable {α : Type*} (delim : α → Bool)

/-- The literal after its opening delimiter, and what follows the closing one. -/
def scan : List α → Option (List α × List α)
  | [] => none
  | [c] => if delim c then some ([], []) else none
  | c :: d :: rest =>
    if delim c then
      if delim d then (scan rest).map fun r => (d :: r.1, r.2) else some ([], d :: rest)
    else (scan (d :: rest)).map fun r => (c :: r.1, r.2)

/-- A literal, from its opening delimiter on. -/
def token : List α → Option (List α × List α)
  | [] => none
  | c :: rest => if delim c then scan delim rest else none

variable (esc : α → Bool) (text : List α)

/-- A text with some of its characters doubled. -/
def double : List α :=
  text.flatMap fun c => if esc c then [c, c] else [c]

variable {delim} {rest : List α}

/-- Each character of the literal has been read from one character, a delimiter from two, and
the literal ends where no delimiter follows. -/
theorem of_scan_eq_some {input text : List α} (h : scan delim input = some (text, rest)) :
    input.length = text.length + text.countP delim + 1 + rest.length ∧
      ∀ c ∈ rest.head?, delim c = false := by
  fun_induction scan delim input generalizing text with
  | case1 => cases h
  | case2 c hc =>
    obtain ⟨rfl, rfl⟩ : [] = text ∧ [] = rest := by simpa using h
    simp
  | case3 c hc => cases h
  | case4 c d input hc hd ih =>
    -- A pair of delimiters stands for its second one.
    obtain ⟨⟨text', rest'⟩, hscan, heq⟩ := Option.map_eq_some_iff.1 h
    obtain ⟨rfl, rfl⟩ : d :: text' = text ∧ rest' = rest := by simpa using heq
    obtain ⟨hlength, hrest⟩ := ih hscan
    refine ⟨?_, hrest⟩
    rw [countP_cons_of_pos hd, length_cons, length_cons, length_cons, hlength]
    omega
  | case5 c d input hc hd =>
    obtain ⟨rfl, rfl⟩ : [] = text ∧ d :: input = rest := by simpa using h
    refine ⟨by simp; omega, ?_⟩
    intro c' hc'
    obtain rfl : d = c' := by simpa using hc'
    simpa using hd
  | case6 c d input hc ih =>
    obtain ⟨⟨text', rest'⟩, hscan, heq⟩ := Option.map_eq_some_iff.1 h
    obtain ⟨rfl, rfl⟩ : c :: text' = text ∧ rest' = rest := by simpa using heq
    obtain ⟨hlength, hrest⟩ := ih hscan
    refine ⟨?_, hrest⟩
    rw [countP_cons_of_neg hc, length_cons, hlength, length_cons]
    omega

variable {q : α}

theorem scan_delim (hq : delim q = true)
    (hrest : ∀ c ∈ rest.head?, delim c = false) : scan delim (q :: rest) = some ([], rest) := by
  cases rest with
  | nil => simp [scan, hq]
  | cons c rest =>
    have hc : delim c = false := hrest c rfl
    simp [scan, hq, hc]

theorem scan_cons_of_not_delim {c : α} (hc : delim c = false) (rest : List α) :
    scan delim (c :: rest) = (scan delim rest).map fun r => (c :: r.1, r.2) := by
  cases rest with
  | nil => simp [scan, hc]
  | cons d rest => simp [scan, hc]

theorem scan_pair {c d : α} (hc : delim c = true) (hd : delim d = true) (rest : List α) :
    scan delim (c :: d :: rest) = (scan delim rest).map fun r => (d :: r.1, r.2) := by
  simp [scan, hc, hd]

/-- A text with exactly its delimiters doubled is read as it is. -/
theorem scan_double_append {esc : α → Bool} {text : List α} (htext : ∀ c ∈ text, esc c = delim c)
    (hq : delim q = true) (hrest : ∀ c ∈ rest.head?, delim c = false) :
    scan delim (double esc text ++ q :: rest) = some (text, rest) := by
  induction text with
  | nil => exact scan_delim hq hrest
  | cons c text ih =>
    have hscan := ih fun d hd => htext d (mem_cons_of_mem _ hd)
    have hesc : esc c = delim c := htext c mem_cons_self
    cases hc : delim c with
    | true =>
      have hdouble : double esc (c :: text) = c :: c :: double esc text := by
        simp [double, hesc, hc]
      rw [hdouble, cons_append, cons_append, scan_pair hc hc, hscan]
      rfl
    | false =>
      have hdouble : double esc (c :: text) = c :: double esc text := by
        simp [double, hesc, hc]
      rw [hdouble, cons_append, scan_cons_of_not_delim hc, hscan]
      rfl

theorem length_double : (double esc text).length = text.length + text.countP esc := by
  induction text with
  | nil => rfl
  | cons c text ih =>
    have hcons : double esc (c :: text) = (if esc c then [c, c] else [c]) ++ double esc text := rfl
    rw [hcons, length_append, ih, length_cons]
    cases hc : esc c with
    | true =>
      rw [countP_cons_of_pos hc, if_pos rfl]
      simp
      omega
    | false =>
      rw [countP_cons_of_neg (by simp [hc]), if_neg Bool.false_ne_true]
      simp
      omega

/-- A text with some of its delimiters doubled is read as it is, up to where it ends, exactly
if all of them are doubled and no delimiter follows it. -/
theorem scan_double_append_iff {esc : α → Bool} (hesc : ∀ c, esc c = true → delim c = true)
    (hq : delim q = true) (text rest : List α) :
    scan delim (double esc text ++ q :: rest) = some (text, rest) ↔
      (∀ c ∈ text, esc c = delim c) ∧ ∀ c ∈ rest.head?, delim c = false := by
  constructor
  · intro h
    obtain ⟨hlength, hrest⟩ := of_scan_eq_some h
    refine ⟨?_, hrest⟩
    -- As many delimiters have been read as have been doubled.
    have hcount : text.countP delim = text.countP esc := by
      rw [length_append, length_double, length_cons] at hlength
      omega
    rw [countP_eq_length_filter, countP_eq_length_filter] at hcount
    have hsub : (text.filter esc).Sublist (text.filter delim) :=
      monotone_filter_right text fun c hc => hesc c hc
    have hfilter := hsub.eq_of_length hcount.symm
    intro c hc
    rw [Bool.eq_iff_iff]
    refine ⟨hesc c, fun hdelim => ?_⟩
    have hmem : c ∈ text.filter esc := hfilter ▸ mem_filter.2 ⟨hc, hdelim⟩
    exact (mem_filter.1 hmem).2
  · rintro ⟨htext, hrest⟩
    exact scan_double_append htext hq hrest

end WKOpenVR.Quoted
