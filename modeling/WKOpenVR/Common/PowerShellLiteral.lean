import Mathlib.Data.UInt
import WKOpenVR.Quoted

/-!
# Literals for PowerShell

Paths are put into a script as single-quoted literals (`QuotePowerShellLiteral`), in which the
apostrophe is doubled. PowerShell takes the curly quotation marks U+2018 to U+201B for
delimiters as well, and these are not doubled: a literal is read back exactly where the path
has none of them (`token_quotePowerShellLiteral_iff`).
-/

namespace WKOpenVR.Common

variable (ch : UInt16)

/-- The characters that delimit a single-quoted string of PowerShell. -/
def isSingleQuote : Bool := decide (ch = 0x27 ∨ 0x2018 ≤ ch ∧ ch ≤ 0x201B)

def quoteLiteralLoop : List UInt16 → List UInt16 → List UInt16
  | out, [] => out
  | out, ch :: value =>
    quoteLiteralLoop (if ch = 0x27 then out ++ [0x27, 0x27] else out ++ [ch]) value

variable (value : List UInt16)

def quotePowerShellLiteral : List UInt16 := quoteLiteralLoop [0x27] value ++ [0x27]

/-- The curly ones among the delimiters. -/
def IsCurly : Prop := 0x2018 ≤ ch ∧ ch ≤ 0x201B

theorem quoteLiteralLoop_eq (out value : List UInt16) :
    quoteLiteralLoop out value = out ++ Quoted.double (fun ch => decide (ch = 0x27)) value := by
  fun_induction quoteLiteralLoop out value with
  | case1 out => simp [Quoted.double]
  | case2 out ch value ih =>
    rw [ih]
    by_cases hch : ch = 0x27
    · simp [Quoted.double, hch]
    · simp [Quoted.double, hch]

variable (rest : List UInt16)

theorem quotePowerShellLiteral_append : quotePowerShellLiteral value ++ rest =
      0x27 :: (Quoted.double (fun ch => decide (ch = 0x27)) value ++ 0x27 :: rest) := by
  rw [quotePowerShellLiteral, quoteLiteralLoop_eq]
  simp

/-- Only the apostrophe is doubled, which leaves out the curly delimiters. -/
theorem doubled_iff : decide (ch = 0x27) = isSingleQuote ch ↔ ¬IsCurly ch := by
  unfold isSingleQuote IsCurly
  by_cases hch : ch = 0x27
  · subst hch
    decide
  · simp [hch]

/-- A literal is read as one string, which is the quoted text, with what follows it left over,
exactly if the text has no curly quotation mark and no delimiter follows the literal. -/
theorem token_quotePowerShellLiteral_iff :
    Quoted.token isSingleQuote (quotePowerShellLiteral value ++ rest) = some (value, rest) ↔
      (∀ ch ∈ value, ¬IsCurly ch) ∧ ∀ ch ∈ rest.head?, isSingleQuote ch = false := by
  have hquote : isSingleQuote 0x27 = true := by decide
  have hesc : ∀ ch : UInt16, decide (ch = 0x27) = true → isSingleQuote ch = true := by
    intro ch hch
    rw [of_decide_eq_true hch]
    exact hquote
  rw [quotePowerShellLiteral_append, Quoted.token, if_pos hquote,
    Quoted.scan_double_append_iff hesc hquote]
  simp only [doubled_iff]

/-- The path `C:\O’;c` ends at its apostrophe, and what is behind that is read as a command. -/
theorem token_curly_apostrophe :
    let value : List UInt16 := [0x43, 0x3A, 0x5C, 0x4F, 0x2019, 0x3B, 0x63]
    let rest : List UInt16 := [0x3B, 0x0D, 0x0A]
    Quoted.token isSingleQuote (quotePowerShellLiteral value ++ rest) =
        some ([0x43, 0x3A, 0x5C, 0x4F], [0x3B, 0x63, 0x27, 0x3B, 0x0D, 0x0A]) ∧
      Quoted.token isSingleQuote (quotePowerShellLiteral value ++ rest) ≠ some (value, rest) := by
  decide

end WKOpenVR.Common
