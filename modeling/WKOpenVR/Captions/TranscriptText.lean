import WKOpenVR.Text
import WKOpenVR.Words

/-!
# Words of a transcript

The words of a transcript are its runs of letters and digits, in lower case: with their positions
(`TranscriptWords`), or joined by single spaces (`TranscriptLowerWords`). Letters and digits are
those of ASCII, which are the ones of `isalnum` in the locale of the process; any other byte
separates words.

The words with positions are the words of the text (`normalized_transcriptWords`), each of which
ends where the text after it begins (`drop_wordEnd`). The joined words are the same ones
(`transcriptLowerWords_eq`).
-/

namespace WKOpenVR.Captions

open Text List Words

variable (ch : UInt8)

def transcriptIsWordChar : Bool :=
  decide (48 ≤ ch ∧ ch ≤ 57 ∨ 65 ≤ ch ∧ ch ≤ 90 ∨ 97 ≤ ch ∧ ch ≤ 122)

/-- A byte that is not part of a word. -/
def notWordChar : Bool := !transcriptIsWordChar ch

structure TranscriptWordSpan where
  normalized : List UInt8
  wordBegin : ℕ
  wordEnd : ℕ
  deriving DecidableEq, Repr

theorem length_skip_lt {text : List UInt8} (h : ¬(text.dropWhile notWordChar).isEmpty = true) :
    ((text.dropWhile notWordChar).dropWhile transcriptIsWordChar).length < text.length := by
  have hle := (@List.dropWhile_suffix _ text notWordChar).length_le
  have hhead := @Words.head?_dropWhile _ notWordChar text
  generalize text.dropWhile notWordChar = rest at *
  cases rest with
  | nil => exact absurd rfl h
  | cons c rest =>
    have hc : transcriptIsWordChar c = true := by simpa [notWordChar] using hhead c rfl
    rw [dropWhile_cons_of_pos hc]
    exact lt_of_lt_of_le (Nat.lt_succ_of_le (dropWhile_suffix _).length_le) hle

/-- The loop of `TranscriptWords`, over the text from `pos` on. -/
def transcriptWordsFrom (pos : ℕ) (text : List UInt8) : List TranscriptWordSpan :=
  let rest := text.dropWhile notWordChar
  if rest.isEmpty then []
  else
    let wordBegin := pos + (text.takeWhile notWordChar).length
    let word := rest.takeWhile transcriptIsWordChar
    let wordEnd := wordBegin + word.length
    ⟨word.map toLower, wordBegin, wordEnd⟩ ::
      transcriptWordsFrom wordEnd (rest.dropWhile transcriptIsWordChar)
termination_by text.length
decreasing_by exact length_skip_lt (by assumption)

def transcriptWords (text : List UInt8) : List TranscriptWordSpan := transcriptWordsFrom 0 text

/-- One byte of `TranscriptLowerWords`: the text so far, and if a space is pending. -/
def lowerWordsStep : List UInt8 × Bool → UInt8 → List UInt8 × Bool
  | (out, pendingSpace), ch =>
    if transcriptIsWordChar ch then
      ((if pendingSpace && !out.isEmpty then out ++ [32] else out) ++ [toLower ch], false)
    else (out, !out.isEmpty)

def transcriptLowerWords (text : List UInt8) : List UInt8 :=
  (text.foldl lowerWordsStep ([], false)).1

/-- The words of a text, in lower case. -/
def lowerWords (text : List UInt8) : List (List UInt8) :=
  (Words.words notWordChar text).map (List.map toLower)

/-- The text after its first words. -/
def afterWords : ℕ → List UInt8 → List UInt8
  | 0, text => text
  | k + 1, text => afterWords k ((text.dropWhile notWordChar).dropWhile transcriptIsWordChar)

section Split

variable {text : List UInt8}

/-- A text has a word, or none: a gap, the word, and the rest. -/
theorem split_word (text : List UInt8) :
    text = text.takeWhile notWordChar ++ ((text.dropWhile notWordChar).takeWhile
      transcriptIsWordChar ++ (text.dropWhile notWordChar).dropWhile transcriptIsWordChar) := by
  rw [takeWhile_append_dropWhile, takeWhile_append_dropWhile]

theorem lowerWords_of_isEmpty (h : (text.dropWhile notWordChar).isEmpty = true) :
    lowerWords text = [] := by
  have hblanks := @Words.words_blanks_append _ notWordChar (text.takeWhile notWordChar)
    (fun c hc => mem_takeWhile_imp hc) (text.dropWhile notWordChar)
  rw [takeWhile_append_dropWhile, isEmpty_iff.1 h] at hblanks
  rw [lowerWords, hblanks]
  rfl

theorem takeWhile_ne_nil (h : ¬(text.dropWhile notWordChar).isEmpty = true) :
    (text.dropWhile notWordChar).takeWhile transcriptIsWordChar ≠ [] := by
  have hhead := @Words.head?_dropWhile _ notWordChar text
  generalize text.dropWhile notWordChar = rest at *
  cases rest with
  | nil => exact absurd rfl h
  | cons c rest =>
    have hc : transcriptIsWordChar c = true := by simpa [notWordChar] using hhead c rfl
    rw [takeWhile_cons_of_pos hc]
    exact cons_ne_nil _ _

theorem lowerWords_of_not_isEmpty (h : ¬(text.dropWhile notWordChar).isEmpty = true) :
    lowerWords text =
      ((text.dropWhile notWordChar).takeWhile transcriptIsWordChar).map toLower ::
        lowerWords ((text.dropWhile notWordChar).dropWhile transcriptIsWordChar) := by
  have hblanks : ∀ c ∈ text.takeWhile notWordChar, notWordChar c = true :=
    fun c hc => mem_takeWhile_imp hc
  have hword : ∀ c ∈ (text.dropWhile notWordChar).takeWhile transcriptIsWordChar,
      notWordChar c = false :=
    fun c hc => by simp [notWordChar, mem_takeWhile_imp hc]
  have hrest : ∀ c ∈ ((text.dropWhile notWordChar).dropWhile transcriptIsWordChar).head?,
      notWordChar c = true :=
    fun c hc => by simp [notWordChar, head?_dropWhile c hc]
  nth_rewrite 1 [split_word text]
  rw [lowerWords, words_blanks_append hblanks,
    words_cons_word (takeWhile_ne_nil h) hword hrest]
  rfl

variable (pos : ℕ)

/-- The spans are those of the words of the text. -/
theorem normalized_transcriptWordsFrom (text : List UInt8) :
    (transcriptWordsFrom pos text).map TranscriptWordSpan.normalized = lowerWords text := by
  induction pos, text using transcriptWordsFrom.induct with
  | case1 pos text rest hempty =>
    rw [transcriptWordsFrom, if_pos hempty, lowerWords_of_isEmpty hempty]
    rfl
  | case2 pos text rest hempty wordBegin word wordEnd ih =>
    rw [transcriptWordsFrom, if_neg hempty, lowerWords_of_not_isEmpty hempty, map_cons, ih]

theorem normalized_transcriptWords (text : List UInt8) :
    (transcriptWords text).map TranscriptWordSpan.normalized = lowerWords text :=
  normalized_transcriptWordsFrom 0 text

theorem afterWords_suffix (k : ℕ) (text : List UInt8) : afterWords k text <:+ text := by
  induction k generalizing text with
  | zero => exact suffix_rfl
  | succ k ih => exact (ih _).trans ((dropWhile_suffix _).trans (dropWhile_suffix _))

/-- Where a word ends, the text after it begins. -/
theorem wordEnd_add_length (text : List UInt8) (span : TranscriptWordSpan) :
    ∀ k, (transcriptWordsFrom pos text)[k]? = some span →
      span.wordEnd + (afterWords (k + 1) text).length = pos + text.length := by
  induction pos, text using transcriptWordsFrom.induct with
  | case1 pos text rest hempty =>
    intro k h
    rw [transcriptWordsFrom, if_pos hempty] at h
    cases h
  | case2 pos text rest hempty wordBegin word wordEnd ih =>
    intro k h
    -- The gap, the word and the rest.
    have hlength : text.length = (text.takeWhile notWordChar).length +
        (word.length + (rest.dropWhile transcriptIsWordChar).length) := by
      nth_rewrite 1 [split_word text]
      rw [length_append, length_append]
    have hend : wordEnd = pos + (text.takeWhile notWordChar).length + word.length := rfl
    rw [transcriptWordsFrom, if_neg hempty] at h
    cases k with
    | zero =>
      cases h
      change wordEnd + (rest.dropWhile transcriptIsWordChar).length = _
      omega
    | succ k =>
      have hspan := ih k h
      change span.wordEnd + (afterWords (k + 1) (rest.dropWhile transcriptIsWordChar)).length = _
      omega

theorem drop_wordEnd {k : ℕ} {span : TranscriptWordSpan}
    (h : (transcriptWords text)[k]? = some span) :
    text.drop span.wordEnd = afterWords (k + 1) text := by
  have hlength := wordEnd_add_length 0 text span k h
  obtain ⟨before, hbefore⟩ := afterWords_suffix (k + 1) text
  have hend : span.wordEnd = before.length := by
    have hsum := congrArg List.length hbefore
    rw [length_append] at hsum
    omega
  nth_rewrite 1 [← hbefore]
  rw [hend, drop_left]

/-- The text after a word does not have its bytes. -/
theorem length_afterWords_lt {k : ℕ} (hk : k < (lowerWords text).length) :
    (afterWords (k + 1) text).length < ((afterWords k text).dropWhile notWordChar).length := by
  induction k generalizing text with
  | zero =>
    have hempty : ¬(text.dropWhile notWordChar).isEmpty = true := by
      intro hempty
      rw [lowerWords_of_isEmpty hempty] at hk
      cases hk
    have hword := length_pos_of_ne_nil (takeWhile_ne_nil hempty)
    have hlength := congrArg List.length
      (@List.takeWhile_append_dropWhile _ transcriptIsWordChar (text.dropWhile notWordChar))
    rw [length_append] at hlength
    change ((text.dropWhile notWordChar).dropWhile transcriptIsWordChar).length <
      (text.dropWhile notWordChar).length
    omega
  | succ k ih =>
    have hempty : ¬(text.dropWhile notWordChar).isEmpty = true := by
      intro hempty
      rw [lowerWords_of_isEmpty hempty] at hk
      cases hk
    rw [lowerWords_of_not_isEmpty hempty, length_cons] at hk
    exact ih (Nat.lt_of_succ_lt_succ hk)

end Split

section Join

variable {ch}

theorem lowerWordsStep_of_wordChar (h : transcriptIsWordChar ch = true)
    (state : List UInt8 × Bool) :
    lowerWordsStep state ch =
      ((if state.2 && !state.1.isEmpty then state.1 ++ [32] else state.1) ++ [toLower ch], false) :=
  if_pos h

theorem lowerWordsStep_of_not_wordChar (h : ¬transcriptIsWordChar ch = true)
    (state : List UInt8 × Bool) : lowerWordsStep state ch = (state.1, !state.1.isEmpty) :=
  if_neg h

/-- Bytes at the end go on with the last word. -/
theorem intercalate_concat_append (done : List (List UInt8)) (word more : List UInt8) :
    [32].intercalate (done ++ [word]) ++ more = [32].intercalate (done ++ [word ++ more]) := by
  cases done with
  | nil => simp only [nil_append, intercalate_singleton]
  | cons first done =>
    rw [intercalate_concat _ (cons_ne_nil _ _),
      intercalate_concat _ (cons_ne_nil _ _), append_assoc]

variable (text : List UInt8)

/-- The loop after the words that are complete: in a word that has begun, or between words. -/
theorem foldl_lowerWordsStep (done : List (List UInt8)) (hdone : ∀ word ∈ done, word ≠ []) :
    (∀ word, word ≠ [] →
      (text.foldl lowerWordsStep ([32].intercalate (done ++ [word.map toLower]), false)).1 =
        [32].intercalate
          (done ++ (wordsFrom notWordChar word text).map (List.map toLower))) ∧
      (text.foldl lowerWordsStep ([32].intercalate done, !([32].intercalate done).isEmpty)).1 =
        [32].intercalate (done ++ lowerWords text) := by
  induction text generalizing done with
  | nil =>
    refine ⟨fun word hword => ?_, ?_⟩
    · rw [wordsFrom, closeWord_of_ne_nil hword]
      rfl
    · rw [lowerWords, words, wordsFrom, closeWord, map_nil, append_nil]
      rfl
  | cons ch text ih =>
    by_cases hch : transcriptIsWordChar ch = true
    · have hnot : ¬notWordChar ch = true := by simp [notWordChar, hch]
      refine ⟨fun word hword => ?_, ?_⟩
      · rw [foldl_cons, lowerWordsStep_of_wordChar hch, wordsFrom, if_neg hnot,
          ← (ih done hdone).1 (word ++ [ch]) (by simp), Bool.false_and, if_neg Bool.false_ne_true,
          intercalate_concat_append, map_append]
        rfl
      · -- A word begins, after a space if there is one before.
        have hbegin : (if !([32].intercalate done).isEmpty && !([32].intercalate done).isEmpty
              then [32].intercalate done ++ [32] else [32].intercalate done) ++ [toLower ch] =
            [32].intercalate (done ++ [[ch].map toLower]) := by
          cases done with
          | nil => rfl
          | cons first done =>
            have hne := intercalate_ne_nil [32] done (hdone first mem_cons_self)
            rw [intercalate_concat _ (cons_ne_nil _ _), if_pos (by simpa using hne)]
            rfl
        rw [foldl_cons, lowerWordsStep_of_wordChar hch, hbegin,
          (ih done hdone).1 [ch] (cons_ne_nil _ _), lowerWords, words, wordsFrom,
          if_neg hnot, nil_append]
    · have hblank : notWordChar ch = true := by simp [notWordChar, hch]
      refine ⟨fun word hword => ?_, ?_⟩
      · -- The word is complete.
        have hdone' : ∀ other ∈ done ++ [word.map toLower], other ≠ [] := by
          refine forall_mem_append.2 ⟨hdone, forall_mem_singleton.2 ?_⟩
          exact fun hnil => hword (map_eq_nil_iff.1 hnil)
        rw [foldl_cons, lowerWordsStep_of_not_wordChar hch, (ih _ hdone').2, wordsFrom,
          if_pos hblank, closeWord_of_ne_nil hword, append_assoc]
        rfl
      · rw [foldl_cons, lowerWordsStep_of_not_wordChar hch, (ih done hdone).2, lowerWords,
          lowerWords, words_cons_of_blank hblank]

/-- The words of the text, with a space between them. -/
theorem transcriptLowerWords_eq : transcriptLowerWords text = [32].intercalate (lowerWords text) :=
  (foldl_lowerWordsStep text [] fun _ h => absurd h not_mem_nil).2

end Join

end WKOpenVR.Captions
