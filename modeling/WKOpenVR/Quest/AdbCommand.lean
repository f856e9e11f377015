import Mathlib.Data.List.Chain
import WKOpenVR.Argv

/-!
# The command line of adb

`AdbController::Run` puts the path of adb and the arguments into one command line. A text is put
between quotation marks if it needs to be (`QuoteArg`), and gets a backslash before each
quotation mark, but the backslashes that stand before a quotation mark already are not doubled.

Therefore backslashes are lost where a quotation mark follows them, which may be the closing one.
The path and the arguments are read back from the line if and only if there is none such in an
argument, and no quotation mark in the path (`argv_commandLine_iff`): the loss of a line is told
by the weights of its arguments (`readWeight_quoteArg`).
-/

namespace WKOpenVR.Quest.Adb

open Argv List

variable (n : ℕ) (arg : List UInt8)

/-- The characters of a command line, in UTF-8. -/
def narrowAlphabet : Alphabet UInt8 where
  quote := 34
  slash := 92
  blank c := c == 32 || c == 9
  slash_ne_quote := by decide
  blank_quote := by decide
  blank_slash := by decide

/-- Quote if empty or if any space, tab or quotation mark is present. -/
def needsQuote : Bool :=
  arg.isEmpty || arg.contains 32 || arg.contains 9 || arg.contains 34

/-- The loop of `QuoteArg`. -/
def quoteLoop : List UInt8 :=
  arg.flatMap fun c => if c = 34 then [92, c] else [c]

def quoteArg : List UInt8 :=
  if needsQuote arg then 34 :: (quoteLoop arg ++ [34]) else arg

variable (adbPath : List UInt8) (args : List (List UInt8))

/-- The command line of `AdbController::Run`, which there is none of without a path. -/
def commandLine : Option (List UInt8) :=
  if adbPath.isEmpty then none
  else some (args.foldl (fun cmd arg => cmd ++ [32] ++ quoteArg arg) (quoteArg adbPath))

/-- No backslash stands before a quotation mark. -/
def NoSlashBeforeQuote (text : List UInt8) : Prop :=
  text.IsChain fun a b => ¬(a = 92 ∧ b = 34)

instance (text : List UInt8) : Decidable (NoSlashBeforeQuote text) :=
  inferInstanceAs (Decidable (text.IsChain _))

/-- If the argument is quoted, then no backslash stands before a quotation mark, where the closing
one counts. -/
def Readable : Prop :=
  needsQuote arg = true → NoSlashBeforeQuote (arg ++ [34])

instance (arg : List UInt8) : Decidable (Readable arg) :=
  inferInstanceAs (Decidable (_ → _))

/-! ## What is lost of an argument -/

/-- The backslashes before quotation marks between the marks of `QuoteArg`, after some. -/
def lostLoop : ℕ → List UInt8 → ℕ
  | backslashes, [] => backslashes
  | backslashes, c :: arg =>
    if c = 92 then lostLoop (backslashes + 1) arg
    else if c = 34 then backslashes + lostLoop 0 arg
    else lostLoop 0 arg

def lost : ℕ := if needsQuote arg then lostLoop 0 arg else 0

theorem lostLoop_eq_zero_iff :
    lostLoop n arg = 0 ↔
      (0 < n → (arg ++ [34]).head? ≠ some 34) ∧ NoSlashBeforeQuote (arg ++ [34]) := by
  induction arg generalizing n with
  | nil => simp [lostLoop, NoSlashBeforeQuote]
  | cons c arg ih =>
    have hcons : NoSlashBeforeQuote (c :: (arg ++ [34])) ↔
        (c = 92 → (arg ++ [34]).head? ≠ some 34) ∧ NoSlashBeforeQuote (arg ++ [34]) := by
      rw [NoSlashBeforeQuote, isChain_cons]
      refine and_congr_left' ?_
      simp only [Option.mem_def, not_and]
      constructor
      · intro h hslash hhead
        exact h 34 hhead hslash rfl
      · rintro h d hhead hslash rfl
        exact h hslash hhead
    rw [lostLoop, cons_append, hcons, List.head?_cons]
    by_cases hslash : c = 92
    · rw [if_pos hslash, ih]
      simp [hslash]
    · rw [if_neg hslash]
      have harg := ih 0
      simp only [Nat.lt_irrefl, false_implies, true_and] at harg
      by_cases hquote : c = 34
      · rw [if_pos hquote, Nat.add_eq_zero_iff, harg]
        simp [hquote]
      · rw [if_neg hquote, harg]
        simp [hslash, hquote]

theorem lost_eq_zero_iff : lost arg = 0 ↔ Readable arg := by
  unfold lost Readable
  split_ifs with hneeds
  · have hloop := lostLoop_eq_zero_iff 0 arg
    simp only [Nat.lt_irrefl, false_implies, true_and] at hloop
    simp [hneeds, hloop]
  · simp [hneeds]

theorem plain_of_not_needsQuote {arg : List UInt8} (h : ¬needsQuote arg = true) :
    arg ≠ [] ∧ ∀ c ∈ arg, narrowAlphabet.blank c = false ∧ c ≠ 34 := by
  simp only [needsQuote, Bool.or_eq_true, List.isEmpty_iff, List.contains_eq_mem,
    decide_eq_true_eq, not_or] at h
  obtain ⟨⟨⟨hne, hspace⟩, htab⟩, hquote⟩ := h
  refine ⟨hne, fun c hc => ⟨?_, fun heq => hquote (heq ▸ hc)⟩⟩
  have hspace' : c ≠ 32 := fun heq => hspace (heq ▸ hc)
  have htab' : c ≠ 9 := fun heq => htab (heq ▸ hc)
  simp [narrowAlphabet, hspace', htab']

variable (c : UInt8)

theorem quoteLoop_cons (arg : List UInt8) :
    quoteLoop (c :: arg) = (if c = 34 then [92, c] else [c]) ++ quoteLoop arg :=
  flatMap_cons

/-! ## Arguments that are read back -/

/-- From the opening mark on, after some backslashes, the argument is read up to the closing
mark. -/
theorem readFrom_quoteLoop {text : List UInt8} {n : ℕ} (hlost : lostLoop n text = 0)
    (arg rest : List UInt8) :
    readFrom narrowAlphabet true n (some arg) (quoteLoop text ++ 34 :: rest) =
      readFrom narrowAlphabet false 0 (some (arg ++ slashes narrowAlphabet n ++ text)) rest := by
  induction text generalizing n arg with
  | nil =>
    obtain rfl : n = 0 := hlost
    rw [append_nil]
    exact readFrom_quote_of_even (n := 0) rfl rest
  | cons c text ih =>
    rw [lostLoop] at hlost
    rw [quoteLoop_cons]
    by_cases hslash : c = 92
    · subst hslash
      rw [if_pos rfl] at hlost
      refine (ih hlost arg).trans ?_
      rw [slashes, replicate_succ', ← slashes]
      simp [narrowAlphabet]
    rw [if_neg hslash] at hlost
    by_cases hquote : c = 34
    · subst hquote
      rw [if_pos rfl, Nat.add_eq_zero_iff] at hlost
      obtain ⟨rfl, hlost⟩ := hlost
      refine (readFrom_quote_of_odd (n := 1) rfl (quoteLoop text ++ 34 :: rest)).trans ?_
      rw [ih hlost]
      simp [slashes, narrowAlphabet]
    · rw [if_neg hquote] at hlost
      rw [if_neg hquote]
      have hchar := @readFrom_slashes _ _ narrowAlphabet true (some arg) n 0
        (c :: (quoteLoop text ++ 34 :: rest))
      rw [readFrom_char hslash hquote (by simp), Nat.zero_add] at hchar
      rw [singleton_append, cons_append, ← hchar, ih hlost]
      simp [slashes]

theorem readsAs_quoteArg {arg : List UInt8} (hlost : lost arg = 0) :
    ReadsAs narrowAlphabet (quoteArg arg) arg := by
  unfold lost at hlost
  unfold quoteArg
  split_ifs at hlost ⊢ with hneeds
  · refine readsAs_of_append fun rest => ?_
    have hread := readFrom_quoteLoop hlost [] rest
    rw [slashes, replicate_zero, nil_append, nil_append] at hread
    rw [cons_append, append_assoc, singleton_append]
    exact hread
  · obtain ⟨hne, hplain⟩ := plain_of_not_needsQuote hneeds
    exact readsAs_of_plain hne hplain

/-! ## Arguments that are not read back -/

variable (rest : List UInt8)

theorem readWeight_cons : readWeight narrowAlphabet n (c :: rest) =
      if c = 92 then readWeight narrowAlphabet (n + 1) rest
      else if c = 34 then n + readWeight narrowAlphabet 0 rest
      else 2 * n + readWeight narrowAlphabet 0 rest :=
  rfl

theorem weight_cons_narrow (arg : List UInt8) : weight narrowAlphabet (c :: arg) =
      (if c = 92 then 2 else if c = 34 then 1 else 0) + weight narrowAlphabet arg :=
  weight_cons c arg

theorem readWeight_quoteLoop :
    readWeight narrowAlphabet n (quoteLoop arg ++ 34 :: rest) + lostLoop n arg =
      2 * n + weight narrowAlphabet arg + readWeight narrowAlphabet 0 rest := by
  induction arg generalizing n with
  | nil =>
    have hclose : readWeight narrowAlphabet n (34 :: rest) =
        n + readWeight narrowAlphabet 0 rest := rfl
    have hempty : weight narrowAlphabet [] = 0 := rfl
    rw [hempty, lostLoop]
    refine (congrArg (· + n) hclose).trans ?_
    omega
  | cons c arg ih =>
    rw [quoteLoop_cons, weight_cons_narrow, lostLoop]
    -- The induction carries the backslashes read so far, which the next byte decides about.
    by_cases hslash : c = 92
    · subst hslash
      have hread := ih (n + 1)
      simp only [if_true]
      refine Eq.trans ?_ (hread.trans ?_)
      · rfl
      · omega
    rw [if_neg hslash, if_neg hslash]
    by_cases hquote : c = 34
    · subst hquote
      have hread := ih 0
      have hmark : readWeight narrowAlphabet n ([92, 34] ++ quoteLoop arg ++ 34 :: rest) =
          (n + 1) + readWeight narrowAlphabet 0 (quoteLoop arg ++ 34 :: rest) := rfl
      rw [if_pos rfl, if_pos rfl, if_pos rfl, hmark]
      omega
    · have hread := ih 0
      have hchar : readWeight narrowAlphabet n ([c] ++ quoteLoop arg ++ 34 :: rest) =
          2 * n + readWeight narrowAlphabet 0 (quoteLoop arg ++ 34 :: rest) := by
        rw [append_assoc, singleton_append, readWeight_cons, if_neg hslash, if_neg hquote]
      rw [if_neg hquote, if_neg hquote, if_neg hquote, hchar]
      omega

/-- Without quotation marks, all of the backslashes are read. -/
theorem readWeight_plain {arg rest : List UInt8} (harg : ∀ c ∈ arg, c ≠ 34)
    (hrest : ∀ n, readWeight narrowAlphabet n rest = 2 * n + readWeight narrowAlphabet 0 rest)
    (n : ℕ) :
    readWeight narrowAlphabet n (arg ++ rest) =
      2 * n + weight narrowAlphabet arg + readWeight narrowAlphabet 0 rest := by
  induction arg generalizing n with
  | nil => exact hrest n
  | cons c arg ih =>
    obtain ⟨hquote, harg⟩ := forall_mem_cons.1 harg
    rw [cons_append, weight_cons_narrow, readWeight_cons]
    by_cases hslash : c = 92
    · rw [if_pos hslash, if_pos hslash, ih harg]
      omega
    · rw [if_neg hslash, if_neg hslash, if_neg hquote, if_neg hquote, ih harg]
      omega

theorem readWeight_quoteArg {rest : List UInt8}
    (hrest : ∀ n, readWeight narrowAlphabet n rest = 2 * n + readWeight narrowAlphabet 0 rest) :
    readWeight narrowAlphabet 0 (quoteArg arg ++ rest) + lost arg =
      weight narrowAlphabet arg + readWeight narrowAlphabet 0 rest := by
  unfold quoteArg lost
  split_ifs with hneeds
  · have hopen : readWeight narrowAlphabet 0 (34 :: (quoteLoop arg ++ [34]) ++ rest) =
        readWeight narrowAlphabet 0 (quoteLoop arg ++ 34 :: rest) := by
      rw [cons_append, append_assoc, singleton_append]
      exact Nat.zero_add _
    rw [hopen, readWeight_quoteLoop]
    omega
  · have hplain := (plain_of_not_needsQuote hneeds).2
    rw [readWeight_plain (fun c hc => (hplain c hc).2) hrest]
    omega

/-- What follows the path in the command line. -/
def argsLine : List UInt8 := args.flatMap fun arg => 32 :: quoteArg arg

theorem readWeight_argsLine :
    readWeight narrowAlphabet n (argsLine args) =
      2 * n + readWeight narrowAlphabet 0 (argsLine args) := by
  cases args with
  | nil => rfl
  | cons arg args =>
    rw [argsLine, flatMap_cons, cons_append, readWeight_cons, readWeight_cons]
    simp

/-- What is lost of the arguments is missing in the weight of what is read. -/
theorem sum_weight_argsLine :
    ((arguments narrowAlphabet (argsLine args)).map (weight narrowAlphabet)).sum +
      (args.map lost).sum = (args.map (weight narrowAlphabet)).sum := by
  rw [sum_weight_arguments]
  induction args with
  | nil => rfl
  | cons arg args ih =>
    have harg := readWeight_quoteArg arg (readWeight_argsLine · args)
    have hblank : readWeight narrowAlphabet 0 (argsLine (arg :: args)) =
        readWeight narrowAlphabet 0 (quoteArg arg ++ argsLine args) := Nat.zero_add _
    rw [map_cons, map_cons, sum_cons, sum_cons, hblank]
    omega

/-- The arguments are read back if and only if nothing is lost. -/
theorem arguments_argsLine_iff :
    arguments narrowAlphabet (argsLine args) = args ↔ ∀ arg ∈ args, Readable arg := by
  constructor
  · intro hread arg harg
    have hsum := sum_weight_argsLine args
    rw [hread] at hsum
    have hlost : (args.map lost).sum = 0 := by omega
    rw [← lost_eq_zero_iff]
    exact List.sum_eq_zero_iff_forall_eq_nat.1 hlost _ (mem_map_of_mem harg)
  · intro hargs
    have htexts : List.Forall₂ (ReadsAs narrowAlphabet) (args.map quoteArg) args := by
      rw [forall₂_map_left_iff]
      exact forall₂_same.2 fun arg harg =>
        readsAs_quoteArg ((lost_eq_zero_iff arg).2 (hargs arg harg))
    have hline := arguments_flatMap (c := 32) (by decide) htexts
    rw [flatMap_map] at hline
    exact hline

/-! ## The whole line -/

theorem commandLine_of_ne_nil {adbPath : List UInt8} (hpath : adbPath ≠ [])
    (args : List (List UInt8)) :
    commandLine adbPath args = some (quoteArg adbPath ++ argsLine args) := by
  have hfold (cmd : List UInt8) :
      args.foldl (fun cmd arg => cmd ++ [32] ++ quoteArg arg) cmd = cmd ++ argsLine args := by
    induction args generalizing cmd with
    | nil => exact (append_nil cmd).symm
    | cons arg args ih =>
      rw [foldl_cons, ih, argsLine, argsLine, flatMap_cons]
      simp
  rw [commandLine, if_neg (by simpa using hpath), hfold]

theorem quoteLoop_of_notMem {arg : List UInt8} (harg : 34 ∉ arg) : quoteLoop arg = arg := by
  have hsingle : quoteLoop arg = arg.flatMap fun c => [c] := by
    refine flatMap_congr fun c hc => ?_
    have hne : c ≠ 34 := fun heq => harg (heq ▸ hc)
    rw [if_neg hne]
  rw [hsingle, flatMap_singleton']

/-- The path is read back if it has no quotation mark, and then the arguments follow. -/
theorem argv_quoteArg {adbPath : List UInt8} (hquote : 34 ∉ adbPath) (args : List (List UInt8)) :
    argv narrowAlphabet (quoteArg adbPath ++ argsLine args) =
      adbPath :: arguments narrowAlphabet (argsLine args) := by
  -- The blank after the path is not part of either.
  have hargs : (program narrowAlphabet false (argsLine args)).1 = [] ∧
      arguments narrowAlphabet (program narrowAlphabet false (argsLine args)).2 =
        arguments narrowAlphabet (argsLine args) := by
    cases args with
    | nil => exact ⟨rfl, rfl⟩
    | cons arg args => exact ⟨rfl, rfl⟩
  have hprogram : program narrowAlphabet false (quoteArg adbPath ++ argsLine args) =
      (adbPath ++ (program narrowAlphabet false (argsLine args)).1,
        (program narrowAlphabet false (argsLine args)).2) := by
    unfold quoteArg
    split_ifs with hneeds
    · rw [quoteLoop_of_notMem hquote, cons_append, append_assoc, singleton_append]
      exact program_quoted hquote (argsLine args)
    · exact program_plain (plain_of_not_needsQuote hneeds).2 (argsLine args)
  rw [argv, hprogram, hargs.1, append_nil, hargs.2]

/-- The path and the arguments are read back from the command line, if there is one, if and only
if the path has no quotation mark and the arguments have no backslash before one. -/
theorem argv_commandLine_iff :
    (∀ line ∈ commandLine adbPath args, argv narrowAlphabet line = adbPath :: args) ↔
      adbPath = [] ∨ 34 ∉ adbPath ∧ ∀ arg ∈ args, Readable arg := by
  by_cases hpath : adbPath = []
  · simp [hpath, commandLine]
  rw [commandLine_of_ne_nil hpath, or_iff_right hpath]
  simp only [Option.mem_def, Option.some.injEq, forall_eq']
  constructor
  · intro hread
    have hquote : 34 ∉ adbPath := by
      obtain ⟨hprogram, -⟩ := List.cons.inj hread
      rw [← hprogram]
      exact quote_notMem_program false _
    rw [argv_quoteArg hquote] at hread
    exact ⟨hquote, (arguments_argsLine_iff args).1 (List.cons.inj hread).2⟩
  · rintro ⟨hquote, hargs⟩
    rw [argv_quoteArg hquote, (arguments_argsLine_iff args).2 hargs]

/-- The backslash at the end of `a b\` takes the closing mark into the argument, and with it what
follows. -/
theorem closing_mark_escaped :
    commandLine [97, 100, 98] [[97, 32, 98, 92], [99]] =
        some [97, 100, 98, 32, 34, 97, 32, 98, 92, 34, 32, 99] ∧
      argv narrowAlphabet [97, 100, 98, 32, 34, 97, 32, 98, 92, 34, 32, 99] =
        [[97, 100, 98], [97, 32, 98, 34, 32, 99]] ∧
      argv narrowAlphabet [97, 100, 98, 32, 34, 97, 32, 98, 92, 34, 32, 99] ≠
        [[97, 100, 98], [97, 32, 98, 92], [99]] := by
  decide

end WKOpenVR.Quest.Adb
