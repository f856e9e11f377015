import Mathlib.Data.List.Forall2
import WKOpenVR.Argv

/-!
# Arguments of a command line

The hosts and the updater are started with command lines, to which each argument is added in
quotation marks, with backslashes before those that it has (`QuoteCommandLineArg`). How many
backslashes precede a quotation mark is counted in 32 bits.

Arguments of less than 2³¹ characters, as all are that a line of Windows can hold, are read back
from the line (`arguments_commandLine_of_length_lt`). Of longer ones, what is read back is told by
`readBack`: they are the arguments if and only if the counter does not overflow
(`arguments_commandLine_iff`), if no run of backslashes that is doubled, before a quotation mark
or at the end of the argument, has 2³¹ of them, and no other one has 2³².
-/

namespace WKOpenVR.Common

open Argv List

/-- The characters of a command line, in UTF-16. -/
def wideAlphabet : Alphabet UInt16 where
  quote := 34
  slash := 92
  blank c := c == 32 || c == 9
  slash_ne_quote := by decide
  blank_quote := by decide
  blank_slash := by decide

/-- The loop of `QuoteCommandLineArg`, after some backslashes, up to the closing mark. -/
def quoteLoop : UInt32 → List UInt16 → List UInt16
  | backslashes, [] => List.replicate (backslashes * 2).toNat 92 ++ [34]
  | backslashes, ch :: value =>
    if ch = 92 then quoteLoop (backslashes + 1) value
    else if ch = 34 then List.replicate (backslashes * 2 + 1).toNat 92 ++ ch :: quoteLoop 0 value
    else List.replicate backslashes.toNat 92 ++ ch :: quoteLoop 0 value

variable (value : List UInt16)

def quoteCommandLineArg : List UInt16 := 34 :: quoteLoop 0 value

variable (args : List (List UInt16))

/-- The arguments, with single spaces between them. -/
def commandLine : List UInt16 :=
  [32].intercalate (args.map quoteCommandLineArg)

/-- What is read back of an argument, after some backslashes. -/
def readBack : UInt32 → List UInt16 → List UInt16
  | backslashes, [] => List.replicate ((backslashes * 2).toNat / 2) 92
  | backslashes, ch :: value =>
    if ch = 92 then readBack (backslashes + 1) value
    else if ch = 34 then
      List.replicate ((backslashes * 2 + 1).toNat / 2) 92 ++ ch :: readBack 0 value
    else List.replicate backslashes.toNat 92 ++ ch :: readBack 0 value

/-! ## Reading the line -/

theorem toNat_double (n : UInt32) : (n * 2).toNat % 2 = 0 := by
  have hmul : (n * 2).toNat = n.toNat * 2 % 4294967296 := UInt32.toNat_mul n 2
  omega

theorem toNat_double_add_one (n : UInt32) : (n * 2 + 1).toNat % 2 = 1 := by
  have hmul : (n * 2).toNat = n.toNat * 2 % 4294967296 := UInt32.toNat_mul n 2
  have hadd : (n * 2 + 1).toNat = ((n * 2).toNat + 1) % 4294967296 := UInt32.toNat_add _ 1
  omega

/-- From the opening mark on, the argument is read up to the closing one. -/
theorem readFrom_quoteLoop (n : UInt32) (value : List UInt16) (arg rest : List UInt16) :
    readFrom wideAlphabet true 0 (some arg) (quoteLoop n value ++ rest) =
      readFrom wideAlphabet false 0 (some (arg ++ readBack n value)) rest := by
  induction value generalizing n arg with
  | nil =>
    rw [quoteLoop, readBack, append_assoc, singleton_append]
    exact readFrom_quote_of_even (toNat_double n) rest
  | cons ch value ih =>
    rw [quoteLoop, readBack]
    by_cases hslash : ch = 92
    · rw [if_pos hslash, if_pos hslash]
      exact ih (n + 1) arg
    rw [if_neg hslash, if_neg hslash]
    by_cases hquote : ch = 34
    · subst hquote
      rw [if_pos rfl, if_pos rfl, append_assoc, cons_append]
      refine (readFrom_quote_of_odd (toNat_double_add_one n) _).trans ?_
      rw [ih, Option.getD_some, append_assoc, append_assoc]
      rfl
    · rw [if_neg hquote, if_neg hquote, append_assoc, cons_append]
      refine (readFrom_char hslash hquote (by simp) _ _).trans ?_
      rw [ih, Option.getD_some, append_assoc, append_assoc]
      rfl

theorem readsAs_quoteCommandLineArg :
    ReadsAs wideAlphabet (quoteCommandLineArg value) (readBack 0 value) := by
  refine readsAs_of_append fun rest => ?_
  have hread := readFrom_quoteLoop 0 value [] rest
  rw [nil_append] at hread
  exact hread

/-- The arguments that are read from a line. -/
theorem arguments_commandLine :
    arguments wideAlphabet (commandLine args) = args.map (readBack 0) := by
  refine arguments_intercalate (by decide) ?_
  rw [forall₂_map_left_iff, forall₂_map_right_iff]
  exact forall₂_same.2 fun value _ => readsAs_quoteCommandLineArg value

/-! ## Counting backslashes -/

/-- The runs of backslashes can be counted in 32 bits, and doubled where they are. -/
def RunsFit (arg : List UInt16) : Prop :=
  ∀ pre n post, arg = pre ++ List.replicate n 92 ++ post →
    n < 4294967296 ∧ (post = [] ∨ post.head? = some 34 → n < 2147483648)

variable {n : ℕ}

theorem runsFit_replicate : RunsFit (replicate n 92) ↔ n < 2147483648 := by
  constructor
  · intro h
    exact (h [] n [] (by simp)).2 (.inl rfl)
  · intro hn pre m post heq
    have hlength := congrArg length heq
    simp only [length_append, length_replicate] at hlength
    omega

variable {c : UInt16}

/-- A run at the beginning of another one, which ends before the character `c`. -/
theorem run_le {m : ℕ} (hc : c ≠ 92) {post value : List UInt16}
    (h : replicate m 92 ++ post = replicate n 92 ++ c :: value) :
    m < n ∧ post.head? = some 92 ∨ m = n ∧ post = c :: value := by
  induction m generalizing n with
  | zero =>
    cases n with
    | zero => exact .inr ⟨rfl, h⟩
    | succ n => exact .inl ⟨n.succ_pos, congrArg head? h⟩
  | succ m ih =>
    cases n with
    | zero => exact absurd (cons.inj h).1.symm hc
    | succ n =>
      refine (ih (cons.inj h).2).imp ?_ ?_
      · exact fun hlt => ⟨Nat.succ_lt_succ hlt.1, hlt.2⟩
      · exact fun heq => ⟨congrArg Nat.succ heq.1, heq.2⟩

/-- A run of backslashes up to another character, and the runs after it. -/
theorem runsFit_append_cons (hc : c ≠ 92) {value : List UInt16} :
    RunsFit (replicate n 92 ++ c :: value) ↔
      (n < 4294967296 ∧ (c = 34 → n < 2147483648)) ∧ RunsFit value := by
  constructor
  · intro h
    obtain ⟨hn, hdouble⟩ := h [] n (c :: value) rfl
    refine ⟨⟨hn, fun hquote => hdouble (.inr (by rw [hquote]; rfl))⟩, ?_⟩
    rintro pre m post rfl
    exact h (replicate n 92 ++ c :: pre) m post (by simp)
  · rintro ⟨⟨hn, hdouble⟩, hvalue⟩ pre m post heq
    rw [append_assoc] at heq
    rcases append_eq_append_iff.1 heq with ⟨rest, rfl, hrest⟩ | ⟨run, hrun, hpost⟩
    · -- The run begins at the character or after it.
      cases rest with
      | nil =>
        rcases run_le (n := 0) hc hrest.symm with ⟨hlt, -⟩ | ⟨rfl, -⟩
        · exact absurd hlt m.not_lt_zero
        · exact ⟨by decide, fun _ => by decide⟩
      | cons d rest =>
        obtain ⟨-, hrest⟩ := cons.inj hrest
        exact hvalue rest m post (hrest.trans (append_assoc ..).symm)
    · -- The run begins before the character, and ends before it.
      obtain ⟨j, rfl⟩ : ∃ j, run = replicate j 92 := by
        refine ⟨run.length, eq_replicate_of_mem fun b hb => ?_⟩
        exact eq_of_mem_replicate (hrun ▸ mem_append_right pre hb)
      have hjn : j ≤ n := by
        have hlength := congrArg length hrun
        simp only [length_append, length_replicate] at hlength
        omega
      rcases run_le hc hpost with ⟨hlt, hhead⟩ | ⟨rfl, rfl⟩
      · refine ⟨by omega, fun hend => ?_⟩
        rcases hend with rfl | hquote
        · cases hhead
        · rw [hquote] at hhead
          cases hhead
      · refine ⟨by omega, fun hend => ?_⟩
        rcases hend with hnil | hquote
        · cases hnil
        · exact Nat.lt_of_le_of_lt hjn (hdouble (Option.some.inj hquote))

theorem replicate_append_cons_inj {m : ℕ} (hc : c ≠ 92) {s t : List UInt16} :
    replicate m 92 ++ c :: s = replicate n 92 ++ c :: t ↔ m = n ∧ s = t := by
  constructor
  · intro h
    rcases run_le hc h with ⟨-, hhead⟩ | ⟨hmn, hrest⟩
    · exact absurd (Option.some.inj hhead) hc
    · exact ⟨hmn, (cons.inj hrest).2⟩
  · rintro ⟨rfl, rfl⟩
    rfl

theorem toNat_ofNat_double (n : ℕ) : (UInt32.ofNat n * 2).toNat / 2 = n % 2147483648 := by
  have hmul : (UInt32.ofNat n * 2).toNat = (UInt32.ofNat n).toNat * 2 % 4294967296 :=
    UInt32.toNat_mul _ 2
  have hn : (UInt32.ofNat n).toNat = n % 4294967296 := UInt32.toNat_ofNat'
  omega

theorem toNat_ofNat_double_add_one (n : ℕ) :
    (UInt32.ofNat n * 2 + 1).toNat / 2 = n % 2147483648 := by
  have hmul : (UInt32.ofNat n * 2).toNat = (UInt32.ofNat n).toNat * 2 % 4294967296 :=
    UInt32.toNat_mul _ 2
  have hadd : (UInt32.ofNat n * 2 + 1).toNat = ((UInt32.ofNat n * 2).toNat + 1) % 4294967296 :=
    UInt32.toNat_add _ 1
  have hn : (UInt32.ofNat n).toNat = n % 4294967296 := UInt32.toNat_ofNat'
  omega

/-- An argument is read back as it is if and only if its runs of backslashes fit. -/
theorem readBack_eq_iff (n : ℕ) (value : List UInt16) :
    readBack (.ofNat n) value = replicate n 92 ++ value ↔
      RunsFit (replicate n 92 ++ value) := by
  induction value generalizing n with
  | nil =>
    rw [readBack, toNat_ofNat_double, append_nil, runsFit_replicate, replicate_left_inj]
    omega
  | cons ch value ih =>
    rw [readBack]
    -- A run of backslashes is moved into the counter, whose width decides whether it fits.
    by_cases hslash : ch = 92
    · subst hslash
      have hrun : replicate n (92 : UInt16) ++ 92 :: value =
          replicate (n + 1) 92 ++ value := by
        rw [replicate_succ', append_assoc]
        rfl
      have hcount : UInt32.ofNat n + 1 = .ofNat (n + 1) := (UInt32.ofNat_add n 1).symm
      rw [if_pos rfl, hrun, hcount]
      exact ih (n + 1)
    rw [if_neg hslash, runsFit_append_cons hslash]
    have hvalue := ih 0
    rw [replicate_zero, nil_append] at hvalue
    by_cases hquote : ch = 34
    · rw [if_pos hquote, toNat_ofNat_double_add_one, replicate_append_cons_inj hslash]
      refine and_congr ?_ hvalue
      simp only [hquote, true_implies]
      omega
    · have hn : (UInt32.ofNat n).toNat = n % 4294967296 := UInt32.toNat_ofNat'
      rw [if_neg hquote, hn, replicate_append_cons_inj hslash]
      refine and_congr ?_ hvalue
      simp only [hquote, false_implies, and_true]
      omega

/-- The arguments are read back from the command line if and only if the counter of backslashes
does not overflow. -/
theorem arguments_commandLine_iff :
    arguments wideAlphabet (commandLine args) = args ↔ ∀ arg ∈ args, RunsFit arg := by
  have hid : args.map (readBack 0) = args ↔ args.map (readBack 0) = args.map id := by
    rw [map_id]
  rw [arguments_commandLine, hid, map_inj_left]
  exact forall₂_congr fun arg _ => readBack_eq_iff 0 arg

theorem runsFit_of_length_lt {arg : List UInt16} (h : arg.length < 2147483648) : RunsFit arg := by
  rintro pre n post rfl
  simp only [length_append, length_replicate] at h
  omega

theorem arguments_commandLine_of_length_lt (args : List (List UInt16))
    (h : ∀ arg ∈ args, arg.length < 2147483648) :
    arguments wideAlphabet (commandLine args) = args :=
  (arguments_commandLine_iff args).2 fun arg harg => runsFit_of_length_lt (h arg harg)

/-- A path with a backslash at its end, a text with quotation marks, and an empty argument. -/
theorem arguments_commandLine_of_path :
    let args : List (List UInt16) := [[67, 58, 92], [34, 92, 34, 32], []]
    (∀ arg ∈ args, arg.length < 2147483648) ∧
      arguments wideAlphabet (commandLine args) = args := by
  have h : ∀ arg ∈ ([[67, 58, 92], [34, 92, 34, 32], []] : List (List UInt16)),
      arg.length < 2147483648 := by
    simp
  exact ⟨h, arguments_commandLine_of_length_lt _ h⟩

end WKOpenVR.Common
