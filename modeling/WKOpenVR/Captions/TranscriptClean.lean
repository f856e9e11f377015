import WKOpenVR.Brackets
import WKOpenVR.Captions.TranscriptText

/-!
# Clean transcripts

Before a transcript is published (`CleanTranscriptForPublish`), the markers in brackets that stand
for something else than speech are removed (`RemoveKnownNonSpeechMarkers`), and each run of
whitespace becomes a single space (`CollapseTranscriptWhitespace`). Whitespace are the four bytes
that `TranscriptTrimAscii` leaves out.

The text is then free of whitespace at its ends and of whitespace next to whitespace, and to clean
it again does not change it (`cleanTranscriptForPublish_idem`): the whitespace does not decide which
markers are known (`known_squeezeFrom`). But a marker is still there if its bracket opens after
another one that is not closed before it, with a word between the two (`Nested`): the scan then
takes the text from the first bracket on as the marker. A transcript is clean if and only if
there is no such bracket (`isClean_iff`).
-/

namespace WKOpenVR.Captions

open Text List Brackets

def transcriptIsSpace (ch : UInt8) : Bool := ch == 32 || ch == 9 || ch == 13 || ch == 10

variable (text : List UInt8)

def transcriptTrimAscii : List UInt8 := Words.trim transcriptIsSpace text

def kMarkers : List (List UInt8) :=
  [ascii "music", ascii "laughter", ascii "laughs", ascii "laughing", ascii "applause",
    ascii "clapping", ascii "silence", ascii "inaudible", ascii "background noise"]

def transcriptIsKnownNonSpeechMarker : Bool :=
  kMarkers.contains (transcriptLowerWords text)

/-- `RemoveKnownNonSpeechMarkers`: a marker begins with `[`, and ends with the next `]`. -/
def removeKnownNonSpeechMarkers : List UInt8 :=
  Brackets.erase 91 93 transcriptIsKnownNonSpeechMarker text

/-- One byte of `CollapseTranscriptWhitespace`: the text so far, and if a space is pending. -/
def collapseStep : List UInt8 × Bool → UInt8 → List UInt8 × Bool
  | (out, pendingSpace), ch =>
    if transcriptIsSpace ch then (out, !out.isEmpty)
    else ((if pendingSpace then out ++ [32] else out) ++ [ch], false)

def collapseTranscriptWhitespace : List UInt8 :=
  transcriptTrimAscii (text.foldl collapseStep ([], false)).1

def cleanTranscriptForPublish : List UInt8 :=
  collapseTranscriptWhitespace (removeKnownNonSpeechMarkers text)

/-! ## Clean texts -/

/-- A `[` whose text up to the next `]` is a known marker. -/
abbrev HasMarker : Prop :=
  Brackets.HasMarker 91 93 transcriptIsKnownNonSpeechMarker text

structure IsClean (text : List UInt8) : Prop where
  unmarked : ¬HasMarker text
  head : ∀ c ∈ text.head?, transcriptIsSpace c = false
  last : ∀ c ∈ text.getLast?, transcriptIsSpace c = false
  single : text.IsChain fun c d => ¬(transcriptIsSpace c = true ∧ transcriptIsSpace d = true)
  again : cleanTranscriptForPublish text = text

/-- A `[` before the one of a known marker, with a word, but no `]`, between the two. -/
def Nested : Prop :=
  ∃ before between marker after,
    text = before ++ 91 :: (between ++ 91 :: (marker ++ 93 :: after)) ∧
      93 ∉ between ∧ 93 ∉ marker ∧ transcriptIsKnownNonSpeechMarker marker = true ∧
      ∃ ch ∈ between, transcriptIsWordChar ch = true

/-! ## Known markers -/

section Known

variable {text} {ch : UInt8}

def markerWords : List (List (List UInt8)) := kMarkers.map (Words.words notWordChar)

theorem notWordChar_toLower (h : notWordChar ch = false) : notWordChar (toLower ch) = false := by
  simp only [notWordChar, transcriptIsWordChar, toLower, Bool.not_eq_false', decide_eq_true_eq,
    UInt8.le_iff_toNat_le, UInt8.reduceToNat] at h ⊢
  split_ifs with hupper
  · rw [UInt8.toNat_add]
    simp only [UInt8.reduceToNat]
    omega
  · exact h

theorem words_intercalate_lowerWords (text : List UInt8) :
    Words.words notWordChar ([32].intercalate (lowerWords text)) = lowerWords text := by
  refine Words.words_intercalate rfl fun word hword => ?_
  obtain ⟨word, hmem, rfl⟩ := mem_map.1 hword
  obtain ⟨hne, hchars⟩ := Words.forall_mem_words text word hmem
  refine ⟨fun hnil => hne (map_eq_nil_iff.1 hnil), fun d hd => ?_⟩
  obtain ⟨c, hc, rfl⟩ := mem_map.1 hd
  exact notWordChar_toLower (hchars c hc)

/-- A marker is known by its words. -/
theorem known_iff :
    transcriptIsKnownNonSpeechMarker text = true ↔ lowerWords text ∈ markerWords := by
  have hjoin : ∀ marker ∈ kMarkers,
      [32].intercalate (Words.words notWordChar marker) = marker := by decide
  rw [transcriptIsKnownNonSpeechMarker, contains_iff_mem, transcriptLowerWords_eq]
  constructor
  · intro h
    rw [← words_intercalate_lowerWords]
    exact mem_map_of_mem h
  · intro h
    obtain ⟨marker, hmarker, heq⟩ := mem_map.1 h
    rw [← heq, hjoin marker hmarker]
    exact hmarker

theorem lowerWords_append_cons (hch : notWordChar ch = true) (text rest : List UInt8) :
    lowerWords (text ++ ch :: rest) = lowerWords text ++ lowerWords rest := by
  rw [lowerWords, Words.words_append_cons hch, map_append]
  rfl

variable {between : List UInt8}

/-- A known marker is not one with more words before it. -/
theorem lowerWords_eq_nil_of_known {marker : List UInt8}
    (hmarker : transcriptIsKnownNonSpeechMarker marker = true)
    (hboth : transcriptIsKnownNonSpeechMarker (between ++ 91 :: marker) = true) :
    lowerWords between = [] := by
  have hsuffix : ∀ words ∈ markerWords, ∀ other ∈ markerWords, other <:+ words → other = words := by
    decide
  -- The words of the marker end the words of both.
  rw [known_iff] at hmarker hboth
  rw [lowerWords_append_cons rfl] at hboth
  have heq := hsuffix _ hboth _ hmarker (suffix_append _ _)
  exact append_left_eq_self.1 heq.symm

theorem known_append_cons_of_lowerWords_eq_nil (h : lowerWords between = []) (marker : List UInt8) :
    transcriptIsKnownNonSpeechMarker (between ++ 91 :: marker) =
      transcriptIsKnownNonSpeechMarker marker := by
  rw [Bool.eq_iff_iff, known_iff, known_iff, lowerWords_append_cons rfl, h, nil_append]

theorem known_nested (a b m : List UInt8) (hm : transcriptIsKnownNonSpeechMarker m = true)
    (ha : transcriptIsKnownNonSpeechMarker (a ++ 91 :: m) = false) :
    transcriptIsKnownNonSpeechMarker (b ++ 91 :: (a ++ 91 :: m)) = false := by
  rw [← Bool.not_eq_true]
  intro hboth
  have hassoc : b ++ 91 :: (a ++ 91 :: m) = (b ++ 91 :: a) ++ 91 :: m := by simp
  rw [hassoc] at hboth
  have hnil := lowerWords_eq_nil_of_known hm hboth
  rw [lowerWords_append_cons rfl] at hnil
  rw [known_append_cons_of_lowerWords_eq_nil (append_eq_nil_iff.1 hnil).2, hm] at ha
  cases ha

theorem lowerWords_eq_nil_iff :
    lowerWords text = [] ↔ ∀ c ∈ text, ¬transcriptIsWordChar c = true := by
  have hnil : (text.dropWhile notWordChar).isEmpty = true ↔
      ∀ c ∈ text, ¬transcriptIsWordChar c = true := by
    rw [List.isEmpty_iff, dropWhile_eq_nil_iff]
    simp only [notWordChar, Bool.not_eq_true, Bool.not_eq_true']
  rw [← hnil]
  refine ⟨fun h => ?_, lowerWords_of_isEmpty⟩
  by_contra hempty
  rw [lowerWords_of_not_isEmpty hempty] at h
  cases h

/-- A bracket hides a known marker if there is a word between. -/
theorem nested_iff : Nested text ↔ Brackets.Hides 91 93 transcriptIsKnownNonSpeechMarker text := by
  have hword : ∀ between marker, transcriptIsKnownNonSpeechMarker marker = true →
      ((∃ ch ∈ between, transcriptIsWordChar ch = true) ↔
        transcriptIsKnownNonSpeechMarker (between ++ 91 :: marker) = false) := by
    intro between marker hmarker
    have hnot : (∃ ch ∈ between, transcriptIsWordChar ch = true) ↔ ¬lowerWords between = [] := by
      rw [lowerWords_eq_nil_iff]
      push Not
      rfl
    rw [hnot, ← Bool.not_eq_true, not_iff_not]
    exact ⟨fun h => (known_append_cons_of_lowerWords_eq_nil h marker).trans hmarker,
      lowerWords_eq_nil_of_known hmarker⟩
  constructor
  · rintro ⟨before, between, marker, after, htext, hbetween, hmarker, hknown, hch⟩
    exact ⟨before, between, marker, after, htext, hbetween, hmarker, hknown,
      (hword between marker hknown).1 hch⟩
  · rintro ⟨before, between, marker, after, htext, hbetween, hmarker, hknown, hfalse⟩
    exact ⟨before, between, marker, after, htext, hbetween, hmarker, hknown,
      (hword between marker hknown).2 hfalse⟩

end Known

/-! ## Whitespace -/

section Collapse

variable {text} {out : List UInt8}

/-- The text with a space for each run of whitespace, after whitespace or not. -/
abbrev squeezeFrom (f : Bool) (text : List UInt8) : List UInt8 :=
  Words.squeezeFrom transcriptIsSpace 32 f text

/-- The loop after a byte that is not whitespace. -/
theorem foldl_collapseStep (text : List UInt8) {out : List UInt8} (hne : out ≠ [])
    (hout : ∀ c ∈ out.getLast?, transcriptIsSpace c = false) (pendingSpace : Bool) :
    (text.foldl collapseStep (out, pendingSpace)).1 =
      (out ++ ((if pendingSpace then [32] else []) ++ squeezeFrom pendingSpace text)).rdropWhile
        transcriptIsSpace := by
  induction text generalizing out pendingSpace with
  | nil =>
    have hblanks : ∀ c ∈ (if pendingSpace then [32] else []) ++ squeezeFrom pendingSpace [],
        transcriptIsSpace c = true := by
      intro c hc
      cases pendingSpace with
      | false => exact absurd hc not_mem_nil
      | true =>
        rw [mem_singleton.1 hc]
        rfl
    have hself := Words.rdropWhile_append hout []
    rw [append_nil, rdropWhile_nil, append_nil] at hself
    rw [Words.rdropWhile_append_blanks hblanks, hself]
    rfl
  | cons ch text ih =>
    by_cases hch : transcriptIsSpace ch = true
    · -- A space is pending, as there is text before.
      have hstep : collapseStep (out, pendingSpace) ch = (out, true) := by
        rw [collapseStep, if_pos hch, isEmpty_eq_false_iff.2 hne]
        rfl
      rw [foldl_cons, hstep, ih hne hout true, squeezeFrom, squeezeFrom, Words.squeezeFrom,
        if_pos hch]
      cases pendingSpace <;> rfl
    · have hstep : collapseStep (out, pendingSpace) ch =
          (out ++ ((if pendingSpace then [32] else []) ++ [ch]), false) := by
        rw [collapseStep, if_neg hch]
        cases pendingSpace
        · rfl
        · exact congrArg (·, false) (append_assoc out [32] [ch])
      have hlast : ∀ c ∈ (out ++ ((if pendingSpace then [32] else []) ++ [ch])).getLast?,
          transcriptIsSpace c = false := by
        intro c hc
        rw [← append_assoc, List.getLast?_concat] at hc
        cases hc
        exact Bool.eq_false_iff.2 hch
      rw [foldl_cons, hstep, ih (by simp) hlast false, squeezeFrom, squeezeFrom,
        Words.squeezeFrom_cons_of_not_blank (Bool.eq_false_iff.2 hch)]
      simp only [append_assoc]
      rfl

/-- Before the first byte that is not whitespace, no space is pending. -/
theorem foldl_collapseStep_nil (text : List UInt8) :
    (text.foldl collapseStep ([], false)).1 =
      (squeezeFrom true text).rdropWhile transcriptIsSpace := by
  induction text with
  | nil => rfl
  | cons ch text ih =>
    by_cases hch : transcriptIsSpace ch = true
    · rw [foldl_cons, collapseStep, if_pos hch, squeezeFrom, Words.squeezeFrom, if_pos hch,
        if_pos rfl]
      exact ih
    · rw [foldl_cons, collapseStep, if_neg hch, squeezeFrom, Words.squeezeFrom, if_neg hch]
      have hlast : ∀ c ∈ [ch].getLast?, transcriptIsSpace c = false := by
        intro c hc
        cases hc
        exact Bool.eq_false_iff.2 hch
      exact foldl_collapseStep text (cons_ne_nil ch []) hlast false

/-- The text with single spaces, and none at its ends. -/
theorem collapseTranscriptWhitespace_eq (text : List UInt8) :
    collapseTranscriptWhitespace text =
      (squeezeFrom true text).rdropWhile transcriptIsSpace := by
  have hhead : ∀ c ∈ ((squeezeFrom true text).rdropWhile transcriptIsSpace).head?,
      transcriptIsSpace c = false :=
    Words.head?_rdropWhile ((Words.isChain_squeezeFrom true text).2 rfl)
  rw [collapseTranscriptWhitespace, foldl_collapseStep_nil, transcriptTrimAscii, Words.trim,
    Words.dropWhile_of_head? hhead, rdropWhile_idempotent]

theorem head?_collapseTranscriptWhitespace :
    ∀ c ∈ (collapseTranscriptWhitespace text).head?, transcriptIsSpace c = false :=
  Words.head?_trim

theorem getLast?_collapseTranscriptWhitespace :
    ∀ c ∈ (collapseTranscriptWhitespace text).getLast?, transcriptIsSpace c = false :=
  Words.getLast?_trim

theorem isChain_collapseTranscriptWhitespace (text : List UInt8) :
    (collapseTranscriptWhitespace text).IsChain
      fun c d => ¬(transcriptIsSpace c = true ∧ transcriptIsSpace d = true) := by
  rw [collapseTranscriptWhitespace_eq]
  exact List.IsChain.prefix (Words.isChain_squeezeFrom true text).1 <| rdropWhile_prefix _ _

theorem collapseTranscriptWhitespace_idem (text : List UInt8) :
    collapseTranscriptWhitespace (collapseTranscriptWhitespace text) =
      collapseTranscriptWhitespace text := by
  rw [collapseTranscriptWhitespace_eq, collapseTranscriptWhitespace_eq]
  obtain ⟨blanks, heq, hblanks⟩ := @Words.exists_blanks_rdropWhile _ transcriptIsSpace
    (squeezeFrom true text)
  obtain ⟨blanks', heq', hblanks'⟩ := @Words.exists_blanks_squeezeFrom_append _ transcriptIsSpace 32
    rfl blanks hblanks true ((squeezeFrom true text).rdropWhile transcriptIsSpace)
  -- Only the blanks at the end are missing, and the next ones are left out again.
  rw [← heq, Words.squeezeFrom_squeezeFrom rfl] at heq'
  calc (squeezeFrom true ((squeezeFrom true text).rdropWhile transcriptIsSpace)).rdropWhile
        transcriptIsSpace
      = (squeezeFrom true ((squeezeFrom true text).rdropWhile transcriptIsSpace) ++
          blanks').rdropWhile transcriptIsSpace := (Words.rdropWhile_append_blanks hblanks' _).symm
    _ = (squeezeFrom true text).rdropWhile transcriptIsSpace := by rw [← heq']

end Collapse

/-! ## Markers and whitespace -/

section Marker

variable {text}

/-- Whitespace does not decide if a marker is known. -/
theorem known_squeezeFrom (f : Bool) (marker : List UInt8) :
    transcriptIsKnownNonSpeechMarker (squeezeFrom f marker) =
      transcriptIsKnownNonSpeechMarker marker := by
  have hspace : ∀ c, transcriptIsSpace c = true → notWordChar c = true := by
    intro c hc
    simp only [transcriptIsSpace, Bool.or_eq_true, beq_iff_eq] at hc
    rcases hc with ((rfl | rfl) | rfl) | rfl <;> rfl
  rw [Bool.eq_iff_iff, known_iff, known_iff, lowerWords, lowerWords,
    Words.words_squeezeFrom hspace rfl]

theorem hasMarker_squeezeFrom_iff (f : Bool) : HasMarker (squeezeFrom f text) ↔ HasMarker text := by
  constructor
  · rintro ⟨before, marker, after, heq, hmarker, hknown⟩
    obtain ⟨before', rest, rfl, -, hrest⟩ := Words.exists_of_squeezeFrom_eq rfl rfl heq
    obtain ⟨marker', after', rfl, rfl, -⟩ := Words.exists_of_squeezeFrom_eq rfl rfl hrest
    rw [Words.mem_squeezeFrom_iff rfl rfl] at hmarker
    exact ⟨before', marker', after', rfl, hmarker, (known_squeezeFrom _ _).symm.trans hknown⟩
  · rintro ⟨before, marker, after, rfl, hmarker, hknown⟩
    refine ⟨squeezeFrom f before, squeezeFrom false marker, squeezeFrom false after, ?_, ?_,
      (known_squeezeFrom _ _).trans hknown⟩
    · rw [squeezeFrom, Words.squeezeFrom_append_cons rfl, Words.squeezeFrom_append_cons rfl]
    · rwa [Words.mem_squeezeFrom_iff rfl rfl]

theorem hasMarker_rdropWhile_iff :
    HasMarker (text.rdropWhile transcriptIsSpace) ↔ HasMarker text := by
  constructor
  · rintro ⟨before, marker, after, heq, hmarker⟩
    obtain ⟨blanks, htext, -⟩ := @Words.exists_blanks_rdropWhile _ transcriptIsSpace text
    refine ⟨before, marker, after ++ blanks, ?_, hmarker⟩
    rw [htext, heq]
    simp
  · rintro ⟨before, marker, after, rfl, hmarker⟩
    refine ⟨before, marker, after.rdropWhile transcriptIsSpace, ?_, hmarker⟩
    have hclosed : ∀ c ∈ (before ++ 91 :: (marker ++ [93])).getLast?,
        transcriptIsSpace c = false := by
      intro c hc
      rw [← cons_append, ← append_assoc, List.getLast?_concat] at hc
      cases hc
      rfl
    have hdrop := Words.rdropWhile_append hclosed after
    simpa using hdrop

theorem hasMarker_collapse_iff :
    HasMarker (collapseTranscriptWhitespace text) ↔ HasMarker text := by
  rw [collapseTranscriptWhitespace_eq, hasMarker_rdropWhile_iff, hasMarker_squeezeFrom_iff]

/-- A text without markers to be removed has none with less whitespace. -/
theorem remove_squeezeFrom_eq (text : List UInt8) (f : Bool)
    (h : removeKnownNonSpeechMarkers text = text) :
    removeKnownNonSpeechMarkers (squeezeFrom f text) = squeezeFrom f text := by
  rw [removeKnownNonSpeechMarkers] at h ⊢
  induction text using scan_induction (91 : UInt8) 93 generalizing f with
  | none y hy =>
    exact erase_of_notMem (mt (Words.mem_squeezeFrom_iff rfl rfl).1 hy)
  | unclosed y m hy hm =>
    rw [squeezeFrom, Words.squeezeFrom_append_cons rfl]
    exact erase_unclosed (mt (Words.mem_squeezeFrom_iff rfl rfl).1 hy)
      (mt (Words.mem_squeezeFrom_iff rfl rfl).1 hm)
  | closed y m q hy hm ih =>
    -- The pair is not known, with or without its whitespace.
    obtain ⟨hknown, hq⟩ := of_erase_closed_eq hy hm h
    rw [squeezeFrom, Words.squeezeFrom_append_cons rfl, Words.squeezeFrom_append_cons rfl,
      erase_closed (mt (Words.mem_squeezeFrom_iff rfl rfl).1 hy)
        (mt (Words.mem_squeezeFrom_iff rfl rfl).1 hm), ih false hq, known_squeezeFrom, hknown]
    simp

theorem remove_rdropWhile_eq (h : removeKnownNonSpeechMarkers text = text) :
    removeKnownNonSpeechMarkers (text.rdropWhile transcriptIsSpace) =
      text.rdropWhile transcriptIsSpace := by
  obtain ⟨blanks, htext, hblanks⟩ := @Words.exists_blanks_rdropWhile _ transcriptIsSpace text
  have hbracket : ∀ c, transcriptIsSpace c = false → c ∉ blanks := by
    intro c hc hmem
    rw [hblanks c hmem] at hc
    cases hc
  rw [removeKnownNonSpeechMarkers] at h ⊢
  rw [htext, erase_append_right (hbracket 91 rfl) (hbracket 93 rfl)] at h
  exact append_cancel_right h

/-- To clean a text again does not change it. -/
theorem cleanTranscriptForPublish_idem (text : List UInt8) :
    cleanTranscriptForPublish (cleanTranscriptForPublish text) =
      cleanTranscriptForPublish text := by
  have hremoved : removeKnownNonSpeechMarkers (cleanTranscriptForPublish text) =
      cleanTranscriptForPublish text := by
    rw [cleanTranscriptForPublish, collapseTranscriptWhitespace_eq]
    exact remove_rdropWhile_eq (remove_squeezeFrom_eq _ true (erase_erase text))
  rw [cleanTranscriptForPublish, hremoved, cleanTranscriptForPublish,
    collapseTranscriptWhitespace_idem]

/-- For all texts, what is published is clean if and only if no bracket is nested in another one. -/
theorem isClean_iff (text : List UInt8) :
    IsClean (cleanTranscriptForPublish text) ↔ ¬Nested text := by
  have hmarker : HasMarker (cleanTranscriptForPublish text) ↔ Nested text := by
    rw [cleanTranscriptForPublish, hasMarker_collapse_iff, nested_iff]
    exact Brackets.hasMarker_erase_iff (by decide) known_nested text
  constructor
  · intro h hnested
    exact h.unmarked (hmarker.2 hnested)
  · intro h
    exact ⟨fun hmem => h (hmarker.1 hmem), head?_collapseTranscriptWhitespace,
      getLast?_collapseTranscriptWhitespace, isChain_collapseTranscriptWhitespace _,
      cleanTranscriptForPublish_idem text⟩

/-- In "[a[music]", the marker is not removed. -/
theorem nested_marker_published :
    cleanTranscriptForPublish [91, 97, 91, 109, 117, 115, 105, 99, 93] =
        [91, 97, 91, 109, 117, 115, 105, 99, 93] ∧
      ¬IsClean (cleanTranscriptForPublish [91, 97, 91, 109, 117, 115, 105, 99, 93]) := by
  have hremove : removeKnownNonSpeechMarkers [91, 97, 91, 109, 117, 115, 105, 99, 93] =
      [91, 97, 91, 109, 117, 115, 105, 99, 93] := by
    have hscan := @Brackets.erase_closed _ 91 93 transcriptIsKnownNonSpeechMarker _ []
      [97, 91, 109, 117, 115, 105, 99] (by decide) (by decide) []
    rw [Brackets.erase_of_notMem not_mem_nil] at hscan
    exact hscan
  have hclean : cleanTranscriptForPublish [91, 97, 91, 109, 117, 115, 105, 99, 93] =
      [91, 97, 91, 109, 117, 115, 105, 99, 93] := by
    rw [cleanTranscriptForPublish, hremove]
    rfl
  refine ⟨hclean, fun h => h.unmarked ?_⟩
  rw [hclean]
  exact ⟨[91, 97], [109, 117, 115, 105, 99], [], rfl, by decide, by decide⟩

end Marker

end WKOpenVR.Captions
