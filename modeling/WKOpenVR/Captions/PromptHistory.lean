import WKOpenVR.Words

/-!
# The history for the prompt of Whisper

The transcripts are kept, joined by single spaces, as the prompt for the next one
(`WhisperPromptHistory`). If the history exceeds its budget of bytes, its beginning is cut off
(`TrimToBudget`): from the first byte that is within the budget on, it skips what is left of a
word, and the whitespace after it.

What is kept should be the longest part of the joined texts that begins with a word and is within
the budget (`IsLongest`). But if a word begins at the very first byte within the budget, then it
is skipped as if it had begun before. For every sequence of calls, the history is the longest
part at all times if and only if no call finds such a word (`isLongest_text_iff`). Cutting a
history that was cut before is as good as cutting the joined texts (`IsLongest.append_iff`).
-/

namespace WKOpenVR.Captions.PromptHistory

open List

open Words (AtWord skipWord)

def isSpace (c : UInt8) : Bool := c == 32 || c == 9 || c == 13 || c == 10

def trim (text : List UInt8) : List UInt8 := Words.trim isSpace text

variable (maxChars : ℕ)

def trimToBudget (history : List UInt8) : List UInt8 :=
  if history.length ≤ maxChars then history
  else skipWord isSpace (history.drop (history.length - maxChars))

/-- A text at the end of the history, after a space. -/
def append (history text : List UInt8) : List UInt8 :=
  if history.isEmpty then text else history ++ [32] ++ text

inductive Call
  | observe (text : List UInt8)
  | clear

def step (history : List UInt8) : Call → List UInt8
  | .observe text =>
    if (trim text).isEmpty then history else trimToBudget maxChars (append history (trim text))
  | .clear => []

variable (calls : List Call)

/-- The history after a sequence of calls. -/
def text : List UInt8 := calls.foldl (step maxChars) []

/-! ## What the history is for -/

/-- The texts observed since the last `Clear`, trimmed, without those that are empty then. -/
def observed : List (List UInt8) :=
  calls.foldl
    (fun texts call =>
      match call with
      | .observe text => if (trim text).isEmpty then texts else texts ++ [trim text]
      | .clear => [])
    []

def joined : List UInt8 := [32].intercalate (observed calls)

/-- The end of the text from a word on, within the budget. -/
def Fitting (text part : List UInt8) : Prop :=
  part.length ≤ maxChars ∧
    (part = [] ∨ ∃ before, text = before ++ part ∧ AtWord isSpace before part)

structure IsLongest (maxChars : ℕ) (text part : List UInt8) : Prop where
  fitting : Fitting maxChars text part
  le : ∀ other, Fitting maxChars text other → other.length ≤ part.length

/-- The first byte within the budget begins a word, and there is more before it. -/
def BeginsAtBudget (history : List UInt8) : Prop :=
  ∃ before after, history = before ++ after ∧ after.length = maxChars ∧ before ≠ [] ∧
    after ≠ [] ∧ AtWord isSpace before after

/-- A call that cuts the history at such a byte. -/
def SkipsWord (history : List UInt8) : Call → Prop
  | .observe text => trim text ≠ [] ∧ BeginsAtBudget maxChars (append history (trim text))
  | .clear => False

/-! ## Cutting -/

section Cut

variable {maxChars} {text part : List UInt8}

theorem IsLongest.head? (h : IsLongest maxChars text part) :
    ∀ c ∈ part.head?, isSpace c = false := by
  rcases h.fitting.2 with rfl | ⟨before, -, hword⟩
  · intro c hc
    cases hc
  · exact hword.after

/-- Within the budget, nothing has to be cut. -/
theorem isLongest_self (hlength : text.length ≤ maxChars)
    (hhead : ∀ c ∈ text.head?, isSpace c = false) : IsLongest maxChars text text := by
  constructor
  · refine ⟨hlength, .inr ⟨[], rfl, ?_, hhead⟩⟩
    intro c hc
    cases hc
  · rintro other ⟨-, rfl | ⟨before, rfl, -⟩⟩
    · exact Nat.zero_le _
    · rw [length_append]
      exact Nat.le_add_left _ _

/-- A text that exceeds the budget, cut where the budget begins. -/
theorem isLongest_skipWord {before after : List UInt8} (hbefore : before ≠ [])
    (hafter : after.length = maxChars) (hbudget : ¬BeginsAtBudget maxChars (before ++ after)) :
    IsLongest maxChars (before ++ after) (skipWord isSpace after) := by
  constructor
  · refine ⟨hafter ▸ Words.skipWord_suffix.length_le, ?_⟩
    refine (Words.atWord_skipWord after).imp_right ?_
    rintro ⟨skipped, hne, heq, hword⟩
    refine ⟨before ++ skipped, ?_, ?_, hword.after⟩
    · rw [append_assoc, ← heq]
    · rw [getLast?_append_of_ne_nil _ hne]
      exact hword.before
  · rintro other ⟨hlength, rfl | ⟨pre, heq, hword⟩⟩
    · exact Nat.zero_le _
    have hsuffix : other <:+ after :=
      suffix_of_suffix_length_le (heq ▸ suffix_append pre other)
        (suffix_append before after) (hafter ▸ hlength)
    obtain ⟨skipped, rfl⟩ := hsuffix
    obtain rfl : pre = before ++ skipped :=
      append_cancel_right (heq ▸ (append_assoc before skipped other).symm)
    rcases eq_or_ne skipped [] with rfl | hne
    · -- The part begins with the budget, which no word does.
      rw [append_nil] at hword
      by_contra hlt
      refine hbudget ⟨before, other, rfl, hafter, hbefore, ?_, hword⟩
      rintro rfl
      exact hlt (Nat.zero_le _)
    · have hword' : AtWord isSpace skipped other := by
        refine ⟨?_, hword.after⟩
        have hlast := hword.before
        rwa [getLast?_append_of_ne_nil _ hne] at hlast
      exact (hword'.suffix_skipWord hne).length_le

/-- Unless a word begins with the budget, what is kept is the longest part. -/
theorem isLongest_trimToBudget (hhead : ∀ c ∈ text.head?, isSpace c = false)
    (hbudget : ¬BeginsAtBudget maxChars text) :
    IsLongest maxChars text (trimToBudget maxChars text) := by
  rw [trimToBudget]
  split_ifs with hlength
  · exact isLongest_self hlength hhead
  · rw [← take_append_drop (text.length - maxChars) text] at hbudget
    have hlongest := isLongest_skipWord ?_ ?_ hbudget
    · rw [take_append_drop] at hlongest
      exact hlongest
    · rw [Ne, take_eq_nil_iff]
      rintro (hzero | rfl)
      · omega
      · exact hlength (Nat.zero_le _)
    · rw [length_drop]
      omega

/-- A word that begins with the budget would fit, but is skipped. -/
theorem not_isLongest_trimToBudget (hbudget : BeginsAtBudget maxChars text) :
    ¬IsLongest maxChars text (trimToBudget maxChars text) := by
  obtain ⟨before, after, rfl, hafter, hbefore, hne, hword⟩ := hbudget
  intro hlongest
  have hfits := hlongest.le after ⟨hafter.le, .inr ⟨before, rfl, hword⟩⟩
  have hexceeds : ¬(before ++ after).length ≤ maxChars := by
    have hpos := length_pos_of_ne_nil hbefore
    rw [length_append]
    omega
  have hdrop : (before ++ after).drop ((before ++ after).length - maxChars) = after := by
    rw [length_append, ← hafter, Nat.add_sub_cancel, drop_left]
  rw [trimToBudget, if_neg hexceeds, hdrop] at hfits
  cases after with
  | nil => exact hne rfl
  | cons c after =>
    rw [Words.skipWord_cons_of_not_blank (hword.after c rfl)] at hfits
    have hskip := (@Words.skipWord_suffix _ isSpace after).length_le
    rw [length_cons] at hfits
    omega

end Cut

/-! ## Histories that were cut before -/

section Append

variable {maxChars} {text history part next : List UInt8}

/-- What fits of the text, fits of its longest part. -/
theorem IsLongest.fitting_iff (h : IsLongest maxChars text history) :
    Fitting maxChars text part ↔ Fitting maxChars history part := by
  constructor
  · rintro ⟨hlength, rfl | ⟨before, rfl, hword⟩⟩
    · exact ⟨hlength, .inl rfl⟩
    refine ⟨hlength, ?_⟩
    have hle := h.le part ⟨hlength, .inr ⟨before, rfl, hword⟩⟩
    rcases h.fitting.2 with rfl | ⟨cut, heq, -⟩
    · exact .inl (eq_nil_of_length_eq_zero (Nat.le_zero.1 hle))
    right
    obtain ⟨skipped, rfl⟩ := suffix_of_suffix_length_le (suffix_append before part)
      (heq ▸ suffix_append cut history) hle
    rw [← append_assoc] at heq
    obtain rfl := append_cancel_right heq
    refine ⟨skipped, rfl, ?_, hword.after⟩
    intro c hc
    exact hword.before c (by rw [getLast?_append, hc]; rfl)
  · rintro ⟨hlength, rfl | ⟨skipped, rfl, hword⟩⟩
    · exact ⟨hlength, .inl rfl⟩
    refine ⟨hlength, ?_⟩
    rcases h.fitting.2 with hnil | ⟨cut, rfl, hcut⟩
    · exact .inl (append_eq_nil_iff.1 hnil).2
    right
    refine ⟨cut ++ skipped, (append_assoc ..).symm, ?_, hword.after⟩
    rcases eq_or_ne skipped [] with rfl | hne
    · rw [append_nil]
      exact hcut.before
    · rw [getLast?_append_of_ne_nil _ hne]
      exact hword.before

/-- What fits of a text after another: a part of it, or all of it with a part of the other. -/
theorem fitting_join_iff :
    Fitting maxChars (text ++ [32] ++ next) part ↔
      Fitting maxChars next part ∨
        ∃ first, first ≠ [] ∧ Fitting maxChars text first ∧ part = first ++ [32] ++ next ∧
          part.length ≤ maxChars := by
  constructor
  · rintro ⟨hlength, rfl | ⟨before, heq, hword⟩⟩
    · exact .inl ⟨hlength, .inl rfl⟩
    rw [append_assoc] at heq
    -- No part begins with the space in between.
    have hspace : part ≠ [32] ++ next := by
      rintro rfl
      cases hword.after 32 rfl
    rcases append_eq_append_iff.1 heq with ⟨gap, rfl, hgap⟩ | ⟨first, rfl, rfl⟩
    · left
      cases gap with
      | nil => exact absurd hgap.symm hspace
      | cons d gap =>
        obtain ⟨-, rfl⟩ := cons.inj hgap
        refine ⟨hlength, .inr ⟨gap, rfl, ?_, hword.after⟩⟩
        intro c hc
        refine hword.before c ?_
        rw [getLast?_append, getLast?_cons, hc]
        rfl
    · right
      have hne : first ≠ [] := by
        rintro rfl
        exact hspace rfl
      refine ⟨first, hne, ⟨?_, .inr ⟨before, rfl, hword.before, ?_⟩⟩, (append_assoc ..).symm,
        hlength⟩
      · rw [length_append] at hlength
        omega
      · intro c hc
        refine hword.after c ?_
        rw [head?_append, hc]
        rfl
  · rintro (⟨hlength, rfl | ⟨gap, rfl, hword⟩⟩ | ⟨first, hne, ⟨-, hnil | ⟨before, rfl, hword⟩⟩,
      rfl, hlength⟩)
    · exact ⟨hlength, .inl rfl⟩
    · refine ⟨hlength, .inr ⟨text ++ [32] ++ gap, (append_assoc ..).symm, ?_, hword.after⟩⟩
      rcases eq_or_ne gap [] with rfl | hgap
      · intro c hc
        rw [append_nil, getLast?_concat] at hc
        cases hc
        rfl
      · rw [getLast?_append_of_ne_nil _ hgap]
        exact hword.before
    · exact absurd hnil hne
    · refine ⟨hlength, .inr ⟨before, ?_, hword.before, ?_⟩⟩
      · simp only [append_assoc]
      · rw [append_assoc, head?_append_of_ne_nil _ hne]
        exact hword.after

/-- Cutting a history that was cut before is as good as cutting the whole text. -/
theorem IsLongest.append_iff (h : IsLongest maxChars text history) :
    IsLongest maxChars (append text next) part ↔ IsLongest maxChars (append history next) part := by
  have hfitting (other : List UInt8) : Fitting maxChars (append text next) other ↔
      Fitting maxChars (append history next) other := by
    rcases eq_or_ne text [] with rfl | htext
    · -- Of no text, nothing fits.
      have hhistory : history = [] := by
        rcases h.fitting.2 with hnil | ⟨before, heq, -⟩
        · exact hnil
        · exact (append_eq_nil_iff.1 heq.symm).2
      rw [hhistory]
    have happend : append text next = text ++ [32] ++ next := by simp [append, htext]
    rw [happend, fitting_join_iff]
    simp only [h.fitting_iff]
    rcases eq_or_ne history [] with rfl | hhistory
    · refine or_iff_left ?_
      rintro ⟨first, hne, ⟨-, hnil | ⟨before, heq, -⟩⟩, -⟩
      · exact hne hnil
      · exact hne (append_eq_nil_iff.1 heq.symm).2
    · have happend' : append history next = history ++ [32] ++ next := by simp [append, hhistory]
      rw [happend', fitting_join_iff]
  constructor
  · rintro ⟨hfits, hle⟩
    exact ⟨(hfitting part).1 hfits, fun other hother => hle other ((hfitting other).2 hother)⟩
  · rintro ⟨hfits, hle⟩
    exact ⟨(hfitting part).2 hfits, fun other hother => hle other ((hfitting other).1 hother)⟩

end Append

/-! ## Whole sequences of calls -/

section Calls

variable {maxChars calls}

theorem text_concat (call : Call) :
    text maxChars (calls ++ [call]) = step maxChars (text maxChars calls) call :=
  foldl_concat ..

variable (next : List UInt8)

theorem observed_concat_observe : observed (calls ++ [.observe next]) =
      if (trim next).isEmpty then observed calls else observed calls ++ [trim next] :=
  foldl_concat ..

theorem ne_nil_of_mem_observed : ∀ part ∈ observed calls, part ≠ [] := by
  induction calls using reverseRecOn with
  | nil => simp [observed]
  | append_singleton calls call ih =>
    cases call with
    | clear => simp [observed]
    | observe next =>
      rw [observed_concat_observe]
      split_ifs with hempty
      · exact ih
      · intro part hpart
        rcases mem_append.1 hpart with hmem | hmem
        · exact ih part hmem
        · rw [mem_singleton.1 hmem]
          exact fun hnil => hempty (isEmpty_iff.2 hnil)

theorem joined_concat_observe : joined (calls ++ [.observe next]) =
      if (trim next).isEmpty then joined calls else append (joined calls) (trim next) := by
  rw [joined, observed_concat_observe]
  split_ifs with hempty
  · rfl
  have hobserved := @ne_nil_of_mem_observed calls
  rw [joined]
  cases htexts : observed calls with
  | nil => simp [append]
  | cons first texts =>
    have hfirst : first ≠ [] := hobserved first (htexts ▸ mem_cons_self)
    have hjoined := Words.intercalate_ne_nil [32] texts hfirst
    rw [Words.intercalate_concat _ (cons_ne_nil _ _), append, if_neg (by simpa using hjoined)]

theorem isLongest_nil : IsLongest maxChars [] [] :=
  isLongest_self (Nat.zero_le _) (by simp)

/-- A call keeps the longest part, unless it skips a word. -/
theorem isLongest_concat_iff (h : IsLongest maxChars (joined calls) (text maxChars calls))
    (call : Call) :
    IsLongest maxChars (joined (calls ++ [call])) (text maxChars (calls ++ [call])) ↔
      ¬SkipsWord maxChars (text maxChars calls) call := by
  rw [text_concat]
  cases call with
  | clear =>
    have hjoined : joined (calls ++ [.clear]) = [] := by simp [joined, observed]
    rw [hjoined]
    exact iff_of_true isLongest_nil id
  | observe next =>
    rw [joined_concat_observe, step]
    split_ifs with hempty
    · refine iff_of_true h fun hskips => ?_
      exact hskips.1 (isEmpty_iff.1 hempty)
    have hhead : ∀ c ∈ (append (text maxChars calls) (trim next)).head?, isSpace c = false := by
      rw [append]
      split_ifs with hhistory
      · exact Words.head?_trim
      · rw [append_assoc, head?_append_of_ne_nil _ (by simpa using hhistory)]
        exact h.head?
    rw [h.append_iff]
    constructor
    · rintro hlongest ⟨-, hbudget⟩
      exact not_isLongest_trimToBudget hbudget hlongest
    · intro hskips
      refine isLongest_trimToBudget hhead fun hbudget => hskips ⟨?_, hbudget⟩
      simpa using hempty

/-- At all times, the history is the longest part of the joined texts that begins with a word and
is within the budget, if and only if no call finds a word at the beginning of the budget. -/
theorem isLongest_text_iff (maxChars : ℕ) (calls : List Call) :
    (∀ pre, pre <+: calls → IsLongest maxChars (joined pre) (text maxChars pre)) ↔
      ∀ pre call, pre ++ [call] <+: calls → ¬SkipsWord maxChars (text maxChars pre) call := by
  constructor
  · intro hlongest pre call hpre
    have hbefore := hlongest pre ((prefix_append pre [call]).trans hpre)
    exact (isLongest_concat_iff hbefore call).1 (hlongest _ hpre)
  · intro hskips pre hpre
    induction pre using List.reverseRecOn with
    | nil => exact isLongest_nil
    | append_singleton pre call ih =>
      have hbefore := ih ((prefix_append pre [call]).trans hpre)
      exact (isLongest_concat_iff hbefore call).2 (hskips pre call hpre)

/-- With a budget of five bytes, the last word of `a bcdef` would fit, and nothing is kept. -/
theorem word_at_budget_skipped :
    text 5 [.observe [97, 32, 98, 99, 100, 101, 102]] = [] ∧
      ¬IsLongest 5 (joined [.observe [97, 32, 98, 99, 100, 101, 102]])
        (text 5 [.observe [97, 32, 98, 99, 100, 101, 102]]) := by
  have htext : text 5 [.observe [97, 32, 98, 99, 100, 101, 102]] = [] := by decide
  have hjoined : joined [.observe [97, 32, 98, 99, 100, 101, 102]] =
      [97, 32] ++ [98, 99, 100, 101, 102] := by
    decide
  refine ⟨htext, fun hlongest => ?_⟩
  rw [htext, hjoined] at hlongest
  have hword : AtWord isSpace [97, 32] [98, 99, 100, 101, 102] := by
    constructor
    · rintro c hc
      cases hc
      rfl
    · rintro c hc
      cases hc
      rfl
  have hle := hlongest.le _ ⟨le_rfl, .inr ⟨_, rfl, hword⟩⟩
  exact absurd hle (by decide)

end Calls

end WKOpenVR.Captions.PromptHistory
