import Mathlib.Algebra.GroupWithZero.Nat
import Mathlib.Data.List.Basic

/-!
# Command lines

How a program on Windows splits its command line into arguments, by the rules documented for
`CommandLineToArgvW`:

* arguments are separated by blanks outside of quotation marks (spaces and tabs);
* a quotation mark begins or ends a quoted part, and is not part of the argument;
* backslashes stand for themselves, unless a quotation mark follows them. Then each pair stands
  for a backslash, and the quotation mark is part of the argument if one is left over.

The first part of the line is the name of the program, in which backslashes have no meaning of
their own (`program`).

A text that is an argument whatever blank follows it (`ReadsAs`) can be put next to others
(`arguments_intercalate`). What is read has as many backslashes and quotation marks as the line
tells, where the ones that are lost are those before a quotation mark (`sum_weight_arguments`).
-/

namespace WKOpenVR.Argv

open List

/-- The characters that have a meaning in a command line. -/
structure Alphabet (α : Type*) where
  quote : α
  slash : α
  blank : α → Bool
  slash_ne_quote : slash ≠ quote
  blank_quote : blank quote = false
  blank_slash : blank slash = false

section Rules

variable {α : Type*} [DecidableEq α] (A : Alphabet α)

def slashes (n : ℕ) : List α := List.replicate n A.slash

/-- An argument that ends: what was read of it, if it has begun, and the backslashes at its
end. -/
def finish : Option (List α) → ℕ → List (List α)
  | none, 0 => []
  | arg, pending => [arg.getD [] ++ slashes A pending]

/-- The arguments, from inside or outside of quotation marks, after some backslashes. -/
def readFrom : Bool → ℕ → Option (List α) → List α → List (List α)
  | _, pending, arg, [] => finish A arg pending
  | quoted, pending, arg, c :: cs =>
    if c = A.slash then readFrom quoted (pending + 1) arg cs
    else if c = A.quote then
      if pending % 2 = 1 then
        readFrom quoted 0 (some (arg.getD [] ++ slashes A (pending / 2) ++ [c])) cs
      else readFrom (!quoted) 0 (some (arg.getD [] ++ slashes A (pending / 2))) cs
    else if A.blank c && !quoted then finish A arg pending ++ readFrom false 0 none cs
    else readFrom quoted 0 (some (arg.getD [] ++ slashes A pending ++ [c])) cs

variable (line : List α)

/-- The arguments after the name of the program. -/
def arguments : List (List α) := readFrom A false 0 none line

/-- The name of the program, and what follows the blank after it. -/
def program : Bool → List α → List α × List α
  | _, [] => ([], [])
  | quoted, c :: cs =>
    if c = A.quote then program (!quoted) cs
    else if A.blank c && !quoted then ([], cs)
    else (c :: (program quoted cs).1, (program quoted cs).2)

def argv : List (List α) :=
  (program A false line).1 :: arguments A (program A false line).2

end Rules

section ReadFrom

variable {α : Type*} [DecidableEq α] {A : Alphabet α} {quoted : Bool} {arg : Option (List α)}
  {c : α}

theorem readFrom_slashes (n pending : ℕ) (cs : List α) :
    readFrom A quoted pending arg (slashes A n ++ cs) = readFrom A quoted (pending + n) arg cs := by
  induction n generalizing pending with
  | zero => rfl
  | succ n ih =>
    rw [slashes, replicate_succ, cons_append, readFrom, if_pos rfl, ← slashes, ih]
    congr 1
    omega

theorem readFrom_char (hslash : c ≠ A.slash) (hquote : c ≠ A.quote)
    (hblank : (A.blank c && !quoted) = false) (n : ℕ) (cs : List α) :
    readFrom A quoted 0 arg (slashes A n ++ c :: cs) =
      readFrom A quoted 0 (some (arg.getD [] ++ slashes A n ++ [c])) cs := by
  rw [readFrom_slashes, Nat.zero_add, readFrom, if_neg hslash, if_neg hquote, hblank]
  rfl

theorem readFrom_quote_of_odd {n : ℕ} (hn : n % 2 = 1) (cs : List α) :
    readFrom A quoted 0 arg (slashes A n ++ A.quote :: cs) =
      readFrom A quoted 0 (some (arg.getD [] ++ slashes A (n / 2) ++ [A.quote])) cs := by
  rw [readFrom_slashes, Nat.zero_add, readFrom, if_neg A.slash_ne_quote.symm, if_pos rfl, if_pos hn]

theorem readFrom_quote_of_even {n : ℕ} (hn : n % 2 = 0) (cs : List α) :
    readFrom A quoted 0 arg (slashes A n ++ A.quote :: cs) =
      readFrom A (!quoted) 0 (some (arg.getD [] ++ slashes A (n / 2))) cs := by
  rw [readFrom_slashes, Nat.zero_add, readFrom, if_neg A.slash_ne_quote.symm, if_pos rfl,
    if_neg (by omega)]

theorem readFrom_blank (hblank : A.blank c = true) (pending : ℕ) (cs : List α) :
    readFrom A false pending arg (c :: cs) = finish A arg pending ++ arguments A cs := by
  have hslash : c ≠ A.slash := by
    rintro rfl
    rw [A.blank_slash] at hblank
    cases hblank
  have hquote : c ≠ A.quote := by
    rintro rfl
    rw [A.blank_quote] at hblank
    cases hblank
  rw [readFrom, if_neg hslash, if_neg hquote, hblank]
  rfl

end ReadFrom

/-! ## Texts next to one another -/

section ReadsAs

variable {α : Type*} [DecidableEq α] {A : Alphabet α}

/-- The text is an argument, at the end of a line and before a blank. -/
structure ReadsAs (A : Alphabet α) (text arg : List α) : Prop where
  last : arguments A text = [arg]
  blank : ∀ c, A.blank c = true → ∀ cs, arguments A (text ++ c :: cs) = arg :: arguments A cs

variable {text : List α}

/-- A text after which the argument is read, and outside of quotation marks. -/
theorem readsAs_of_append {arg : List α}
    (h : ∀ rest, arguments A (text ++ rest) = readFrom A false 0 (some arg) rest) :
    ReadsAs A text arg := by
  constructor
  · have hlast := h []
    rw [append_nil] at hlast
    rw [hlast]
    simp [readFrom, finish, slashes]
  · intro c hc cs
    rw [h, readFrom_blank hc]
    simp [finish, slashes]

/-- Characters that are neither blanks nor quotation marks, up to the end of the argument. -/
theorem readFrom_plain {rest : List α} {tail : List (List α)}
    (hrest : ∀ n arg, readFrom A false n arg rest = finish A arg n ++ tail)
    (htext : ∀ c ∈ text, A.blank c = false ∧ c ≠ A.quote) (n : ℕ) (arg : Option (List α))
    (hbegun : arg = none → 0 < n ∨ text ≠ []) :
    readFrom A false n arg (text ++ rest) = (arg.getD [] ++ slashes A n ++ text) :: tail := by
  induction text generalizing n arg with
  | nil =>
    have hfinish : finish A arg n = [arg.getD [] ++ slashes A n] := by
      unfold finish
      split
      · simp at hbegun
      · rfl
    rw [nil_append, hrest, hfinish, append_nil]
    rfl
  | cons c text ih =>
    obtain ⟨⟨hblank, hquote⟩, htext⟩ := forall_mem_cons.1 htext
    rw [cons_append, readFrom]
    by_cases hslash : c = A.slash
    · rw [if_pos hslash, ih htext (n + 1) arg fun _ => .inl n.succ_pos, slashes,
        replicate_succ', ← slashes, hslash]
      simp
    · rw [if_neg hslash, if_neg hquote, hblank, Bool.false_and, if_neg Bool.false_ne_true,
        ih htext 0 _ (by simp)]
      simp [slashes]

/-- A text without blanks and quotation marks stands for itself. -/
theorem readsAs_of_plain (hne : text ≠ [])
    (htext : ∀ c ∈ text, A.blank c = false ∧ c ≠ A.quote) : ReadsAs A text text := by
  constructor
  · have hend (n : ℕ) (arg : Option (List α)) :
        readFrom A false n arg [] = finish A arg n ++ [] := by
      rw [readFrom, append_nil]
    have hlast := readFrom_plain hend htext 0 none fun _ => .inr hne
    rw [append_nil] at hlast
    exact hlast
  · intro c hc cs
    exact readFrom_plain (fun n arg => readFrom_blank hc n cs) htext 0 none fun _ => .inr hne

variable {texts args : List (List α)}

/-- Texts that are arguments, with blanks between them. -/
theorem arguments_intercalate {c : α} (hc : A.blank c = true)
    (h : List.Forall₂ (ReadsAs A) texts args) : arguments A ([c].intercalate texts) = args := by
  induction h with
  | nil => rfl
  | @cons text arg texts args htext htexts ih =>
    cases htexts with
    | nil =>
      rw [intercalate_singleton]
      exact htext.last
    | cons htext' htexts' =>
      rw [intercalate_cons_cons, append_assoc, singleton_append, htext.blank c hc, ih]

/-- Texts that are arguments, with a blank before each. -/
theorem arguments_flatMap {c : α} (hc : A.blank c = true)
    (h : List.Forall₂ (ReadsAs A) texts args) :
    arguments A (texts.flatMap fun text => c :: text) = args := by
  induction h with
  | nil => rfl
  | @cons text arg texts args htext htexts ih =>
    rw [flatMap_cons, cons_append, arguments, readFrom_blank hc]
    change arguments A (text ++ _) = _
    cases htexts with
    | nil =>
      rw [flatMap_nil, append_nil]
      exact htext.last
    | cons htext' htexts' =>
      -- The next blank ends the argument, and is skipped again before the next one.
      rw [flatMap_cons, cons_append] at ih ⊢
      rw [htext.blank c hc, ← ih, arguments, arguments, readFrom_blank hc]
      rfl

end ReadsAs

/-! ## The name of the program -/

section Program

variable {α : Type*} [DecidableEq α] {A : Alphabet α}

theorem quote_notMem_program (quoted : Bool) (line : List α) :
    A.quote ∉ (program A quoted line).1 := by
  induction line generalizing quoted with
  | nil => simp [program]
  | cons c line ih =>
    rw [program]
    split_ifs with hquote
    · exact ih _
    · exact not_mem_nil
    · rw [mem_cons, not_or]
      exact ⟨fun heq => hquote heq.symm, ih _⟩

variable {name : List α}

theorem program_quoted (hname : A.quote ∉ name) (rest : List α) :
    program A true (name ++ A.quote :: rest) =
      (name ++ (program A false rest).1, (program A false rest).2) := by
  induction name with
  | nil => rw [nil_append, program, if_pos rfl]; rfl
  | cons c name ih =>
    rw [mem_cons, not_or] at hname
    rw [cons_append, program, if_neg (Ne.symm hname.1), ih hname.2]
    simp

theorem program_plain (hname : ∀ c ∈ name, A.blank c = false ∧ c ≠ A.quote) (rest : List α) :
    program A false (name ++ rest) =
      (name ++ (program A false rest).1, (program A false rest).2) := by
  induction name with
  | nil => rfl
  | cons c name ih =>
    obtain ⟨⟨hblank, hquote⟩, hname⟩ := forall_mem_cons.1 hname
    rw [cons_append, program, if_neg hquote, hblank, ih hname]
    rfl

end Program

/-! ## What is lost -/

section Weight

variable {α : Type*} [DecidableEq α] (A : Alphabet α)

/-- A backslash weighs two, a quotation mark one. -/
def weight (text : List α) : ℕ := 2 * text.count A.slash + text.count A.quote

/-- The weight of what is read: backslashes before a quotation mark weigh half of what they are
in the line. -/
def readWeight : ℕ → List α → ℕ
  | pending, [] => 2 * pending
  | pending, c :: cs =>
    if c = A.slash then readWeight (pending + 1) cs
    else if c = A.quote then pending + readWeight 0 cs
    else 2 * pending + readWeight 0 cs

variable {A}

theorem weight_append (s t : List α) : weight A (s ++ t) = weight A s + weight A t := by
  simp only [weight, count_append]
  omega

theorem weight_cons (c : α) (text : List α) :
    weight A (c :: text) =
      (if c = A.slash then 2 else if c = A.quote then 1 else 0) + weight A text := by
  simp only [weight, count_cons, beq_iff_eq]
  by_cases hslash : c = A.slash
  · have hquote : c ≠ A.quote := hslash ▸ A.slash_ne_quote
    rw [if_pos hslash, if_pos hslash, if_neg hquote]
    omega
  · rw [if_neg hslash, if_neg hslash]
    omega

theorem weight_slashes (n : ℕ) : weight A (slashes A n) = 2 * n := by
  have hquote : (slashes A n).count A.quote = 0 := by
    refine count_eq_zero.2 fun hmem => ?_
    exact A.slash_ne_quote (eq_of_mem_replicate hmem).symm
  rw [weight, hquote, slashes, count_replicate_self]
  rfl

theorem sum_weight_finish (arg : Option (List α)) (n : ℕ) :
    ((finish A arg n).map (weight A)).sum = weight A (arg.getD []) + 2 * n := by
  unfold finish
  split
  · rfl
  · simp [weight_append, weight_slashes]

theorem sum_weight_readFrom (quoted : Bool) (n : ℕ) (arg : Option (List α)) (cs : List α) :
    ((readFrom A quoted n arg cs).map (weight A)).sum =
      weight A (arg.getD []) + readWeight A n cs := by
  induction cs generalizing quoted n arg with
  | nil => exact sum_weight_finish arg n
  | cons c cs ih =>
    rw [readFrom, readWeight]
    by_cases hslash : c = A.slash
    · rw [if_pos hslash, if_pos hslash, ih]
    rw [if_neg hslash, if_neg hslash]
    by_cases hquote : c = A.quote
    · have hone : weight A [c] = 1 := by
        simp [weight, hquote, A.slash_ne_quote.symm]
      rw [if_pos hquote, if_pos hquote]
      split_ifs with hodd
      · rw [ih, Option.getD_some, weight_append, weight_append, weight_slashes, hone]
        omega
      · rw [ih, Option.getD_some, weight_append, weight_slashes]
        omega
    · have hzero : weight A [c] = 0 := by
        simp [weight, hslash, hquote]
      rw [if_neg hquote, if_neg hquote]
      split_ifs
      · rw [map_append, sum_append, sum_weight_finish, ih]
        simp only [Option.getD_none, weight, count_nil]
        omega
      · rw [ih, Option.getD_some, weight_append, weight_append, weight_slashes, hzero]
        omega

theorem sum_weight_arguments (line : List α) :
    ((arguments A line).map (weight A)).sum = readWeight A 0 line := by
  rw [arguments, sum_weight_readFrom, Option.getD_none]
  exact Nat.zero_add _

end Weight

end WKOpenVR.Argv
