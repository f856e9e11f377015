import WKOpenVR.Captions.TranscriptText

/-!
# Overlapping transcripts

A transcript may repeat the last words of the one before. They are removed
(`RemoveOverlappingTranscriptPrefix`): from `maxWords` words down to two, it looks for a number of
words that end the previous text and begin the current one, and returns what follows them from the
next word on.

What should be left out beside the words is the punctuation and the whitespace after them
(`Removed`). The loop leaves out every byte up to the next letter or digit of ASCII, the bytes of
other letters as well. The text returned is the one that should be if and only if, at the largest
overlap, nothing but punctuation and whitespace stands between the words and the next one, and the
numbers of words are not too large for an `int` (`removed_iff`).
-/

namespace WKOpenVR.Captions

open List Nat

/-- A `size_t` as an `int`. -/
def castInt (n : ℕ) : ℤ :=
  if n % 4294967296 < 2147483648 then n % 4294967296 else n % 4294967296 - 4294967296

def trimTranscriptLeadingSeparators (text : List UInt8) (start : ℕ) : List UInt8 :=
  (text.drop start).dropWhile notWordChar

/-- The comparison of the last words of the previous text with the first of the current one. -/
def overlapMatches (prevWords curWords : List TranscriptWordSpan) (overlap : ℕ) : Bool :=
  let prevStart := prevWords.length - overlap
  (List.range overlap).all fun i =>
    prevWords[prevStart + i]?.map TranscriptWordSpan.normalized ==
      curWords[i]?.map TranscriptWordSpan.normalized

/-- The loop of `RemoveOverlappingTranscriptPrefix`, down from a number of words. -/
def removeOverlapFrom (prevWords curWords : List TranscriptWordSpan) (current : List UInt8) :
    ℕ → List UInt8
  | overlap + 2 =>
    if overlapMatches prevWords curWords (overlap + 2) then
      -- As many words were compared.
      match curWords[overlap + 1]? with
      | some span => trimTranscriptLeadingSeparators current span.wordEnd
      | none => current
    else removeOverlapFrom prevWords curWords current (overlap + 1)
  | _ => current

def removeOverlappingTranscriptPrefix (previous current : List UInt8) (maxWords : ℤ) :
    List UInt8 :=
  if previous.isEmpty ∨ current.isEmpty ∨ maxWords < 2 then current
  else
    let prevWords := transcriptWords previous
    let curWords := transcriptWords current
    let maxOverlap := min maxWords (min (castInt prevWords.length) (castInt curWords.length))
    removeOverlapFrom prevWords curWords current maxOverlap.toNat

/-! ## What should be removed -/

/-- The last `k` words of the previous text are the first of the current one. -/
structure Overlap (maxWords : ℤ) (previous current : List UInt8) (k : ℕ) : Prop where
  two_le : 2 ≤ k
  le_maxWords : (k : ℤ) ≤ maxWords
  le_length : k ≤ (lowerWords current).length
  suffix : (lowerWords current).take k <:+ lowerWords previous

/-- Punctuation and whitespace of ASCII. -/
def isSeparator (c : UInt8) : Bool :=
  decide (9 ≤ c ∧ c ≤ 13 ∨ c = 32 ∨ 33 ≤ c ∧ c ≤ 47 ∨ 58 ≤ c ∧ c ≤ 64 ∨ 91 ≤ c ∧ c ≤ 96 ∨
    123 ≤ c ∧ c ≤ 126)

/-- A byte that is not of ASCII. -/
def isHigh (c : UInt8) : Bool := decide (128 ≤ c)

/-- The result is the current text without the largest overlap, and without the punctuation and
    whitespace after it. -/
structure Removed (maxWords : ℤ) (previous current result : List UInt8) : Prop where
  unchanged : (∀ k, ¬Overlap maxWords previous current k) → result = current
  removed : ∀ k, IsGreatest {k | Overlap maxWords previous current k} k →
    result = (afterWords k current).dropWhile isSeparator
  high : ∀ k, IsGreatest {k | Overlap maxWords previous current k} k →
    result.filter isHigh = (afterWords k current).filter isHigh

section Bytes

variable {c : UInt8}

theorem notWordChar_of_isSeparator (h : isSeparator c = true) : notWordChar c = true := by
  simp only [isSeparator, notWordChar, transcriptIsWordChar, decide_eq_true_eq,
    Bool.not_eq_true', decide_eq_false_iff_not, UInt8.le_iff_toNat_le, ← UInt8.toNat_inj,
    UInt8.reduceToNat] at h ⊢
  omega

theorem isHigh_of_isSeparator (h : isSeparator c = true) : isHigh c = false := by
  simp only [isSeparator, isHigh, decide_eq_true_eq, decide_eq_false_iff_not,
    UInt8.le_iff_toNat_le, ← UInt8.toNat_inj, UInt8.reduceToNat] at h ⊢
  omega

end Bytes

/-! ## The loop -/

section Loop

variable {previous current : List UInt8} {k : ℕ}

theorem castInt_le (n : ℕ) : castInt n ≤ n := by
  rw [castInt]
  split_ifs <;> omega

theorem length_transcriptWords (text : List UInt8) :
    (transcriptWords text).length = (lowerWords text).length := by
  rw [← normalized_transcriptWords, length_map]

/-- The comparison is that of the last words with the first. -/
theorem overlapMatches_iff (hprevious : k ≤ (lowerWords previous).length)
    (hcurrent : k ≤ (lowerWords current).length) :
    overlapMatches (transcriptWords previous) (transcriptWords current) k = true ↔
      (lowerWords current).take k <:+ lowerWords previous := by
  have hlength : ((lowerWords current).take k).length = k := length_take_of_le hcurrent
  rw [suffix_iff_eq_drop, hlength, overlapMatches, all_eq_true]
  simp only [mem_range, beq_iff_eq, ← getElem?_map, normalized_transcriptWords,
    length_transcriptWords]
  constructor
  · -- Word by word, and no more than `k`.
    intro h
    refine ext_getElem? fun i => ?_
    rcases lt_or_ge i k with hi | hi
    · rw [getElem?_take_of_lt hi, getElem?_drop, h i hi]
    · rw [getElem?_eq_none (hlength.trans_le hi), getElem?_eq_none]
      rw [length_drop]
      omega
  · intro h i hi
    rw [← getElem?_drop, ← h, getElem?_take_of_lt hi]

/-- The loop returns at the first number of words that match. -/
theorem removeOverlapFrom_cases (prevWords : List TranscriptWordSpan) (n : ℕ)
    (hn : n ≤ (transcriptWords current).length) :
    (removeOverlapFrom prevWords (transcriptWords current) current n = current ∧
      ∀ k, 2 ≤ k → k ≤ n → ¬overlapMatches prevWords (transcriptWords current) k = true) ∨
    ∃ k, 2 ≤ k ∧ k ≤ n ∧ overlapMatches prevWords (transcriptWords current) k = true ∧
      (∀ j, k < j → j ≤ n → ¬overlapMatches prevWords (transcriptWords current) j = true) ∧
      removeOverlapFrom prevWords (transcriptWords current) current n =
        (afterWords k current).dropWhile notWordChar := by
  induction n using removeOverlapFrom.induct prevWords (transcriptWords current) with
  | case1 overlap hmatch span hspan =>
    right
    refine ⟨overlap + 2, by omega, le_rfl, hmatch, fun j hj hle => by omega, ?_⟩
    rw [removeOverlapFrom, if_pos hmatch, hspan]
    exact congrArg (dropWhile notWordChar) (drop_wordEnd hspan)
  | case2 overlap hmatch hnone =>
    -- There are as many words.
    rw [getElem?_eq_none_iff] at hnone
    omega
  | case3 overlap hmatch ih =>
    rw [removeOverlapFrom, if_neg hmatch]
    rcases ih (by omega) with ⟨heq, hnot⟩ | ⟨k, htwo, hle, hk, hnot, heq⟩
    · refine .inl ⟨heq, fun k htwo hle => ?_⟩
      rcases lt_or_eq_of_le hle with hlt | rfl
      · exact hnot k htwo (le_of_lt_succ hlt)
      · exact hmatch
    · refine .inr ⟨k, htwo, by omega, hk, fun j hj hle => ?_, heq⟩
      rcases lt_or_eq_of_le hle with hlt | rfl
      · exact hnot j hj (le_of_lt_succ hlt)
      · exact hmatch
  | case4 n hfew =>
    refine .inl ⟨?_, fun k htwo hle => ?_⟩
    · rw [removeOverlapFrom]
      exact hfew
    · obtain ⟨j, rfl⟩ := Nat.exists_eq_add_of_le' (htwo.trans hle)
      exact (hfew j rfl).elim

end Loop

/-! ## The result -/

section Result

variable {maxWords : ℤ} {previous current : List UInt8} {k : ℕ}

theorem Overlap.le_previous (h : Overlap maxWords previous current k) :
    k ≤ (lowerWords previous).length := by
  have hle := h.suffix.length_le
  rwa [length_take_of_le h.le_length] at hle

/-- The largest number of words that the loop compares. -/
def maxOverlap (maxWords : ℤ) (previous current : List UInt8) : ℕ :=
  (min maxWords (min (castInt (lowerWords previous).length)
    (castInt (lowerWords current).length))).toNat

theorem le_maxOverlap_iff (hk : 0 < k) :
    k ≤ maxOverlap maxWords previous current ↔
      (k : ℤ) ≤ maxWords ∧ (k : ℤ) ≤ castInt (lowerWords previous).length ∧
        (k : ℤ) ≤ castInt (lowerWords current).length := by
  obtain ⟨j, rfl⟩ := exists_eq_add_one.2 hk
  rw [maxOverlap, add_one_le_iff, Int.lt_toNat, lt_min_iff, lt_min_iff, cast_succ]
  simp only [Int.add_one_le_iff]

/-- Up to that number, the loop finds the overlaps. -/
theorem overlap_iff (htwo : 2 ≤ k) (hk : k ≤ maxOverlap maxWords previous current) :
    overlapMatches (transcriptWords previous) (transcriptWords current) k = true ↔
      Overlap maxWords previous current k := by
  obtain ⟨hmax, hprevious, hcurrent⟩ := (le_maxOverlap_iff (by omega)).1 hk
  have hlePrevious : k ≤ (lowerWords previous).length := by
    exact_mod_cast hprevious.trans (castInt_le _)
  have hleCurrent : k ≤ (lowerWords current).length := by
    exact_mod_cast hcurrent.trans (castInt_le _)
  rw [overlapMatches_iff hlePrevious hleCurrent]
  exact ⟨fun h => ⟨htwo, hmax, hleCurrent, h⟩, Overlap.suffix⟩

/-- The result is the current text, or what follows the largest overlap the loop finds. -/
theorem removeOverlappingTranscriptPrefix_cases (maxWords : ℤ) (previous current : List UInt8) :
    (removeOverlappingTranscriptPrefix previous current maxWords = current ∧
      ∀ k, k ≤ maxOverlap maxWords previous current → ¬Overlap maxWords previous current k) ∨
    ∃ k, k ≤ maxOverlap maxWords previous current ∧ Overlap maxWords previous current k ∧
      (∀ j, k < j → j ≤ maxOverlap maxWords previous current →
        ¬Overlap maxWords previous current j) ∧
      removeOverlappingTranscriptPrefix previous current maxWords =
        (afterWords k current).dropWhile notWordChar := by
  rw [removeOverlappingTranscriptPrefix]
  split_ifs with hearly
  · -- A text without words has no overlap.
    refine .inl ⟨rfl, fun k _ hk => ?_⟩
    have htwo := hk.two_le
    rcases hearly with hprevious | hcurrent | hfew
    · have hle := hk.le_previous
      rw [isEmpty_iff.1 hprevious] at hle
      exact absurd (htwo.trans hle) (by decide)
    · have hle := hk.le_length
      rw [isEmpty_iff.1 hcurrent] at hle
      exact absurd (htwo.trans hle) (by decide)
    · have hle := hk.le_maxWords
      omega
  · have hn : maxOverlap maxWords previous current ≤ (transcriptWords current).length := by
      rw [length_transcriptWords, maxOverlap, Int.toNat_le]
      exact (min_le_right _ _).trans ((min_le_right _ _).trans (castInt_le _))
    simp only [length_transcriptWords]
    rcases removeOverlapFrom_cases (transcriptWords previous) _ hn with
      ⟨heq, hnot⟩ | ⟨k, htwo, hle, hk, hnot, heq⟩
    · refine .inl ⟨heq, fun k hle hk => ?_⟩
      exact hnot k hk.two_le hle ((overlap_iff hk.two_le hle).2 hk)
    · refine .inr ⟨k, hle, (overlap_iff htwo hle).1 hk, fun j hj hle hoverlap => ?_, heq⟩
      exact hnot j hj hle ((overlap_iff hoverlap.two_le hle).2 hoverlap)

/-- After more words, there is less text. -/
theorem length_afterWords_le_of_lt {j : ℕ} (hjk : j < k) (text : List UInt8) :
    (afterWords k text).length ≤ (afterWords (j + 1) text).length := by
  induction j generalizing k text with
  | zero =>
    obtain ⟨k, rfl⟩ := Nat.exists_eq_add_of_lt hjk
    rw [zero_add]
    exact (afterWords_suffix k _).length_le
  | succ j ih =>
    obtain ⟨k, rfl⟩ : ∃ i, k = i + 1 := ⟨k - 1, by omega⟩
    exact ih (lt_of_succ_lt_succ hjk) _

/-- A text that is returned with some of the words of the largest overlap is too long. -/
theorem length_lt_of_overlap {j : ℕ} (hk : Overlap maxWords previous current k) (hjk : j < k) :
    ((afterWords k current).dropWhile isSeparator).length <
      ((afterWords j current).dropWhile notWordChar).length := by
  have hj : j < (lowerWords current).length := hjk.trans_le hk.le_length
  calc ((afterWords k current).dropWhile isSeparator).length
      ≤ (afterWords k current).length := (dropWhile_suffix _).length_le
    _ ≤ (afterWords (j + 1) current).length := length_afterWords_le_of_lt hjk current
    _ < ((afterWords j current).dropWhile notWordChar).length := length_afterWords_lt hj

/-- The loop finds the largest overlap, if it begins with as many words. -/
theorem remove_eq_of_isGreatest (hk : IsGreatest {k | Overlap maxWords previous current k} k)
    (hle : k ≤ maxOverlap maxWords previous current) :
    removeOverlappingTranscriptPrefix previous current maxWords =
      (afterWords k current).dropWhile notWordChar := by
  rcases removeOverlappingTranscriptPrefix_cases maxWords previous current with
    ⟨-, hnot⟩ | ⟨j, hj, hoverlap, hnot, heq⟩
  · exact absurd hk.1 (hnot k hle)
  · rcases lt_or_eq_of_le (hk.2 hoverlap) with hlt | rfl
    · exact absurd hk.1 (hnot k hlt hle)
    · exact heq

/-- A text without the words of the largest overlap is not returned otherwise. -/
theorem le_maxOverlap_of_removed (hk : IsGreatest {k | Overlap maxWords previous current k} k)
    (hremoved : removeOverlappingTranscriptPrefix previous current maxWords =
      (afterWords k current).dropWhile isSeparator) : k ≤ maxOverlap maxWords previous current := by
  rcases removeOverlappingTranscriptPrefix_cases maxWords previous current with
    ⟨heq, -⟩ | ⟨j, hj, hoverlap, -, heq⟩
  · -- All the words are still there.
    have hpos : 0 < k := lt_of_lt_of_le zero_lt_two hk.1.two_le
    have hlt := length_lt_of_overlap hk.1 hpos
    rw [← hremoved, heq] at hlt
    exact absurd hlt (not_lt_of_ge (dropWhile_suffix _).length_le)
  · rcases lt_or_eq_of_le (hk.2 hoverlap) with hlt | rfl
    · rw [heq] at hremoved
      exact absurd (congrArg length hremoved) (length_lt_of_overlap hk.1 hlt).ne'
    · exact hj

/-- For all texts, the overlap is removed with the punctuation and whitespace after it, and nothing
    else is, if and only if there is nothing else up to the next word, and the words of the texts
    can be counted with an `int`. -/
theorem removed_iff (maxWords : ℤ) (previous current : List UInt8) :
    Removed maxWords previous current
        (removeOverlappingTranscriptPrefix previous current maxWords) ↔
      ∀ k, IsGreatest {k | Overlap maxWords previous current k} k →
        (k : ℤ) ≤ castInt (lowerWords previous).length ∧
        (k : ℤ) ≤ castInt (lowerWords current).length ∧
        ∀ c ∈ (afterWords k current).takeWhile notWordChar, isSeparator c = true := by
  -- The source drops all that is no word character, the specification only separators.
  have hdrop : ∀ k, (afterWords k current).dropWhile notWordChar =
        (afterWords k current).dropWhile isSeparator ↔
      ∀ c ∈ (afterWords k current).takeWhile notWordChar, isSeparator c = true :=
    fun k => Words.dropWhile_eq_iff (fun _ hc => notWordChar_of_isSeparator hc) _
  have hpos : ∀ k, Overlap maxWords previous current k → 0 < k :=
    fun k hk => lt_of_lt_of_le zero_lt_two hk.two_le
  constructor
  · intro h k hk
    have hremoved := h.removed k hk
    have hle := le_maxOverlap_of_removed hk hremoved
    obtain ⟨-, hprevious, hcurrent⟩ := (le_maxOverlap_iff (hpos k hk.1)).1 hle
    rw [remove_eq_of_isGreatest hk hle] at hremoved
    exact ⟨hprevious, hcurrent, (hdrop k).1 hremoved⟩
  · intro h
    have hremoved : ∀ k, IsGreatest {k | Overlap maxWords previous current k} k →
        removeOverlappingTranscriptPrefix previous current maxWords =
          (afterWords k current).dropWhile isSeparator := by
      intro k hk
      obtain ⟨hprevious, hcurrent, hseparators⟩ := h k hk
      have hle := (le_maxOverlap_iff (hpos k hk.1)).2 ⟨hk.1.le_maxWords, hprevious, hcurrent⟩
      rw [remove_eq_of_isGreatest hk hle, (hdrop k).2 hseparators]
    refine ⟨fun hnone => ?_, hremoved, fun k hk => ?_⟩
    · rcases removeOverlappingTranscriptPrefix_cases maxWords previous current with
        ⟨heq, -⟩ | ⟨j, -, hoverlap, -⟩
      · exact heq
      · exact absurd hoverlap (hnone j)
    · rw [hremoved k hk]
      exact Words.filter_dropWhile_of_imp (fun _ hc => isHigh_of_isSeparator hc) _

/-- In a text that goes on with a letter that is not of ASCII ("il a" and "il a été"), its two bytes
    are left out with the overlap. -/
theorem accented_letter_removed :
    removeOverlappingTranscriptPrefix [105, 108, 32, 97]
        [105, 108, 32, 97, 32, 195, 169, 116, 195, 169] 8 = [116, 195, 169] ∧
      ¬Removed 8 [105, 108, 32, 97] [105, 108, 32, 97, 32, 195, 169, 116, 195, 169]
        (removeOverlappingTranscriptPrefix [105, 108, 32, 97]
          [105, 108, 32, 97, 32, 195, 169, 116, 195, 169] 8) := by
  have htwo : Overlap 8 [105, 108, 32, 97] [105, 108, 32, 97, 32, 195, 169, 116, 195, 169] 2 :=
    ⟨le_rfl, by decide, by decide, by decide⟩
  have hle : ∀ k,
      Overlap 8 [105, 108, 32, 97] [105, 108, 32, 97, 32, 195, 169, 116, 195, 169] k → k ≤ 2 :=
    fun k hk => hk.le_previous
  have hresult : removeOverlappingTranscriptPrefix [105, 108, 32, 97]
      [105, 108, 32, 97, 32, 195, 169, 116, 195, 169] 8 = [116, 195, 169] := by
    rcases removeOverlappingTranscriptPrefix_cases 8 [105, 108, 32, 97]
        [105, 108, 32, 97, 32, 195, 169, 116, 195, 169] with ⟨-, hnot⟩ | ⟨k, -, hk, -, heq⟩
    · exact absurd htwo (hnot 2 (by decide))
    · obtain rfl : k = 2 := le_antisymm (hle k hk) hk.two_le
      exact heq
  refine ⟨hresult, fun h => ?_⟩
  have hremoved := h.removed 2 ⟨htwo, hle⟩
  rw [hresult] at hremoved
  exact absurd hremoved (by decide)

end Result

end WKOpenVR.Captions
