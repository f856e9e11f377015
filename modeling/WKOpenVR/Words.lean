import Mathlib.Data.List.Chain
import Mathlib.Data.List.DropRight

/-!
# Words between blanks

Texts over any alphabet, some characters of which are blanks. A text without the blanks at its
ends (`trim`) begins and ends with other characters, and has all of them. A word begins where a
blank, or nothing, is followed by another character (`AtWord`).

To skip what is left of a word, and the blanks after it, is to go on at a word that begins after
a blank (`atWord_skipWord`), and at the first one (`AtWord.suffix_skipWord`).

The words of a text are the runs between blanks (`words`). They are found one after another
(`words_cons_word`), and those of two parts with a blank between them are the words of both
(`words_append_cons`).
-/

namespace WKOpenVR.Words

open List

variable {α : Type*} (p : α → Bool) (text : List α)

/-- The text without the blanks at its ends. -/
def trim : List α := (text.dropWhile p).rdropWhile p

/-- What follows the word at the beginning, and the blanks after it. -/
def skipWord : List α := (text.dropWhile fun c => !p c).dropWhile p

/-- Between the two parts of a text, a word begins. -/
structure AtWord (before after : List α) : Prop where
  before : ∀ c ∈ before.getLast?, p c = true
  after : ∀ c ∈ after.head?, p c = false

variable {p text} {before after : List α}

theorem head?_dropWhile : ∀ c ∈ (text.dropWhile p).head?, p c = false := by
  intro c hc
  have hnot := head?_dropWhile_not p text
  rw [hc] at hnot
  exact hnot

theorem head?_rdropWhile (htext : ∀ c ∈ text.head?, p c = false) :
    ∀ c ∈ (text.rdropWhile p).head?, p c = false := by
  intro c hc
  obtain ⟨blanks, hblanks⟩ := rdropWhile_prefix p text
  have hhead : text.head? = some c := by
    rw [← hblanks, head?_append]
    exact Option.or_eq_some_iff.2 (.inl hc)
  exact htext c hhead

theorem head?_trim : ∀ c ∈ (trim p text).head?, p c = false := head?_rdropWhile head?_dropWhile

theorem getLast?_trim : ∀ c ∈ (trim p text).getLast?, p c = false := by
  intro c hc
  have hne : trim p text ≠ [] := by
    intro hnil
    rw [hnil] at hc
    cases hc
  have hlast := rdropWhile_last_not p (text.dropWhile p) hne
  rw [getLast?_eq_some_getLast hne] at hc
  cases hc
  exact Bool.eq_false_iff.2 hlast

/-- At the end, only blanks are left out. -/
theorem exists_blanks_rdropWhile (text : List α) :
    ∃ blanks, text = text.rdropWhile p ++ blanks ∧ ∀ c ∈ blanks, p c = true := by
  refine ⟨text.rtakeWhile p, (rdropWhile_append_rtakeWhile).symm, ?_⟩
  intro c hc
  exact mem_rtakeWhile_imp hc

variable {blanks : List α}

theorem filter_eq_nil_of_blanks (h : ∀ c ∈ blanks, p c = true) :
    blanks.filter (fun c => !p c) = [] := by
  refine filter_eq_nil_iff.2 fun c hc => ?_
  simp [h c hc]

variable {q : α → Bool}

/-- Characters that are no blanks are not left out at the beginning. -/
theorem filter_dropWhile_of_imp (hq : ∀ c, p c = true → q c = false)
    (text : List α) : (text.dropWhile p).filter q = text.filter q := by
  have hblanks : (text.takeWhile p).filter q = [] :=
    filter_eq_nil_iff.2 fun c hc => by simp [hq c (mem_takeWhile_imp hc)]
  calc (text.dropWhile p).filter q
      = (text.takeWhile p ++ text.dropWhile p).filter q := by
        rw [filter_append, hblanks, nil_append]
    _ = text.filter q := by rw [takeWhile_append_dropWhile]

theorem filter_dropWhile (text : List α) :
    (text.dropWhile p).filter (fun c => !p c) = text.filter fun c => !p c :=
  filter_dropWhile_of_imp (fun c hc => by simp [hc]) text

/-- No other characters are left out. -/
theorem filter_trim (text : List α) :
    (trim p text).filter (fun c => !p c) = text.filter fun c => !p c := by
  obtain ⟨blanks, heq, hblanks⟩ := @exists_blanks_rdropWhile _ p (text.dropWhile p)
  calc (trim p text).filter (fun c => !p c)
      = (trim p text ++ blanks).filter fun c => !p c := by
        rw [filter_append, filter_eq_nil_of_blanks hblanks, append_nil]
    _ = (text.dropWhile p).filter fun c => !p c := by rw [trim, ← heq]
    _ = text.filter fun c => !p c := filter_dropWhile text

theorem dropWhile_of_head? (htext : ∀ c ∈ text.head?, p c = false) : text.dropWhile p = text := by
  cases text with
  | nil => rfl
  | cons c text => exact dropWhile_cons_of_neg (by simp [htext c rfl])

/-- To leave out the blanks at the beginning is to leave out some of them, if there are no
others. -/
theorem dropWhile_eq_iff (hq : ∀ c, q c = true → p c = true) (text : List α) :
    text.dropWhile p = text.dropWhile q ↔ ∀ c ∈ text.takeWhile p, q c = true := by
  induction text with
  | nil => exact ⟨fun _ _ hc => (not_mem_nil hc).elim, fun _ => rfl⟩
  | cons c text ih =>
    by_cases hpc : p c = true
    · rw [dropWhile_cons_of_pos hpc, takeWhile_cons_of_pos hpc, forall_mem_cons]
      by_cases hqc : q c = true
      · rw [dropWhile_cons_of_pos hqc, ih]
        exact (and_iff_right hqc).symm
      · -- The text after `c` is too short to be the one with `c`.
        rw [dropWhile_cons_of_neg hqc]
        refine iff_of_false ?_ fun hall => hqc hall.1
        intro heq
        have hle := (@List.dropWhile_suffix _ text p).length_le
        rw [heq, length_cons] at hle
        exact Nat.not_succ_le_self _ hle
    · have hqc : ¬q c = true := mt (hq c) hpc
      rw [dropWhile_cons_of_neg hpc, dropWhile_cons_of_neg hqc, takeWhile_cons_of_neg hpc]
      exact iff_of_true rfl fun _ hd => (not_mem_nil hd).elim

theorem rdropWhile_append (hbefore : ∀ c ∈ before.getLast?, p c = false) (after : List α) :
    (before ++ after).rdropWhile p = before ++ after.rdropWhile p := by
  induction after using reverseRecOn with
  | nil =>
    rw [append_nil, rdropWhile_nil, append_nil, rdropWhile_eq_self_iff]
    intro hne
    simp [hbefore _ (getLast?_eq_some_getLast hne)]
  | append_singleton after c ih =>
    rw [← append_assoc]
    by_cases hc : p c = true
    · rw [rdropWhile_concat_pos _ _ _ hc, rdropWhile_concat_pos _ _ _ hc, ih]
    · rw [rdropWhile_concat_neg _ _ _ hc, rdropWhile_concat_neg _ _ _ hc, append_assoc]

theorem rdropWhile_append_blanks (hblanks : ∀ c ∈ blanks, p c = true)
    (text : List α) : (text ++ blanks).rdropWhile p = text.rdropWhile p := by
  have hreverse : ∀ c ∈ blanks.reverse, p c = true := fun c hc => hblanks c (mem_reverse.1 hc)
  rw [rdropWhile, reverse_append, dropWhile_append_of_pos hreverse, rdropWhile]

theorem suffix_dropWhile (hafter : ∀ c ∈ after.head?, p c = false) :
    after <:+ (before ++ after).dropWhile p := by
  induction before with
  | nil =>
    cases after with
    | nil => exact suffix_rfl
    | cons c after =>
      have hc : ¬p c = true := by simp [hafter c rfl]
      have hdrop : ([] ++ c :: after).dropWhile p = c :: after := dropWhile_cons_of_neg hc
      exact ⟨[], hdrop.symm⟩
  | cons c before ih =>
    rw [cons_append]
    by_cases hc : p c = true
    · rw [dropWhile_cons_of_pos hc]
      exact ih
    · rw [dropWhile_cons_of_neg hc]
      exact (suffix_append before after).trans (suffix_cons c _)

theorem skipWord_cons_of_blank {c : α} (hc : p c = true) :
    skipWord p (c :: text) = text.dropWhile p := by
  rw [skipWord, dropWhile_cons_of_neg (by simp [hc]), dropWhile_cons_of_pos hc]

theorem skipWord_cons_of_not_blank {c : α} (hc : p c = false) :
    skipWord p (c :: text) = skipWord p text := by
  rw [skipWord, dropWhile_cons_of_pos (by simp [hc]), skipWord]

theorem skipWord_suffix : skipWord p text <:+ text :=
  (dropWhile_suffix p).trans (dropWhile_suffix _)

/-- A word that begins after a blank is not skipped with the one before it. -/
theorem AtWord.suffix_skipWord (h : AtWord p before after) (hbefore : before ≠ []) :
    after <:+ skipWord p (before ++ after) := by
  induction before with
  | nil => exact absurd rfl hbefore
  | cons c before ih =>
    rw [cons_append]
    cases hc : p c with
    | true =>
      rw [skipWord_cons_of_blank hc]
      exact suffix_dropWhile h.after
    | false =>
      rw [skipWord_cons_of_not_blank hc]
      cases before with
      | nil =>
        have hblank := h.before c rfl
        rw [hc] at hblank
        cases hblank
      | cons d before => exact ih ⟨h.before, h.after⟩ (cons_ne_nil d before)

/-- What is left begins with a word, after a blank. -/
theorem atWord_skipWord (text : List α) :
    skipWord p text = [] ∨
      ∃ skipped, skipped ≠ [] ∧ text = skipped ++ skipWord p text ∧
        AtWord p skipped (skipWord p text) := by
  induction text with
  | nil => exact .inl rfl
  | cons c text ih =>
    cases hc : p c with
    | true =>
      right
      rw [skipWord_cons_of_blank hc]
      refine ⟨c :: text.takeWhile p, cons_ne_nil _ _, ?_, ?_, head?_dropWhile⟩
      · rw [cons_append, takeWhile_append_dropWhile]
      · -- What is skipped are blanks from here on.
        intro d hd
        rcases mem_cons.1 (mem_of_getLast? hd) with rfl | hmem
        · exact hc
        · exact mem_takeWhile_imp hmem
    | false =>
      rw [skipWord_cons_of_not_blank hc]
      refine ih.imp_right ?_
      rintro ⟨skipped, hne, htext, hword⟩
      refine ⟨c :: skipped, cons_ne_nil _ _, ?_, ?_, hword.after⟩
      · rw [cons_append, ← htext]
      · rw [getLast?_cons_of_ne_nil hne]
        exact hword.before

/-! ## The words of a text -/

/-- A word that ends, unless none has begun. -/
def closeWord : List α → List (List α)
  | [] => []
  | word => [word]

variable (p) in
/-- The words of a text after the beginning of one. -/
def wordsFrom : List α → List α → List (List α)
  | word, [] => closeWord word
  | word, c :: text =>
    if p c then closeWord word ++ wordsFrom [] text else wordsFrom (word ++ [c]) text

variable (p) in
def words (text : List α) : List (List α) := wordsFrom p [] text

section Runs

variable {word rest : List α} {c : α}

theorem closeWord_of_ne_nil (hne : word ≠ []) : closeWord word = [word] := by
  cases word with
  | nil => exact absurd rfl hne
  | cons c word => rfl

theorem wordsFrom_append_cons (hc : p c = true) (word text rest : List α) :
    wordsFrom p word (text ++ c :: rest) = wordsFrom p word text ++ words p rest := by
  induction text generalizing word with
  | nil => exact if_pos hc
  | cons d text ih =>
    rw [cons_append, wordsFrom, wordsFrom]
    split_ifs
    · rw [ih, append_assoc]
    · exact ih _

theorem words_append_cons (hc : p c = true) (text rest : List α) :
    words p (text ++ c :: rest) = words p text ++ words p rest :=
  wordsFrom_append_cons hc [] text rest

theorem words_cons_of_blank (hc : p c = true) (rest : List α) :
    words p (c :: rest) = words p rest :=
  words_append_cons hc [] rest

theorem words_blanks_append (hblanks : ∀ c ∈ blanks, p c = true)
    (rest : List α) : words p (blanks ++ rest) = words p rest := by
  induction blanks with
  | nil => rfl
  | cons c blanks ih =>
    obtain ⟨hc, hblanks⟩ := forall_mem_cons.1 hblanks
    rw [cons_append, words_cons_of_blank hc, ih hblanks]

theorem wordsFrom_append (hword : ∀ c ∈ word, p c = false) (first rest : List α) :
    wordsFrom p first (word ++ rest) = wordsFrom p (first ++ word) rest := by
  induction word generalizing first with
  | nil => rw [nil_append, append_nil]
  | cons c word ih =>
    obtain ⟨hc, hword⟩ := forall_mem_cons.1 hword
    rw [cons_append, wordsFrom, if_neg (by simp [hc]), ih hword, append_assoc]
    rfl

/-- The first word, up to a blank. -/
theorem words_cons_word (hne : word ≠ []) (hword : ∀ c ∈ word, p c = false)
    (hrest : ∀ c ∈ rest.head?, p c = true) : words p (word ++ rest) = word :: words p rest := by
  rw [words, wordsFrom_append hword, nil_append]
  cases rest with
  | nil => exact closeWord_of_ne_nil hne
  | cons c rest =>
    rw [wordsFrom, if_pos (hrest c rfl), closeWord_of_ne_nil hne, words_cons_of_blank (hrest c rfl)]
    rfl

theorem forall_mem_closeWord (hword : ∀ d ∈ word, p d = false) :
    ∀ other ∈ closeWord word, other ≠ [] ∧ ∀ d ∈ other, p d = false := by
  intro other hother
  cases word with
  | nil => exact absurd hother not_mem_nil
  | cons d word =>
    rw [mem_singleton.1 hother]
    exact ⟨cons_ne_nil d word, hword⟩

theorem forall_mem_wordsFrom (hword : ∀ d ∈ word, p d = false) (text : List α) :
    ∀ other ∈ wordsFrom p word text, other ≠ [] ∧ ∀ d ∈ other, p d = false := by
  induction text generalizing word with
  | nil => exact forall_mem_closeWord hword
  | cons c text ih =>
    rw [wordsFrom]
    split_ifs with hc
    · exact forall_mem_append.2
        ⟨forall_mem_closeWord hword, ih fun _ hd => absurd hd not_mem_nil⟩
    · refine ih (forall_mem_append.2 ⟨hword, forall_mem_singleton.2 ?_⟩)
      exact Bool.eq_false_iff.2 hc

/-- Words are not empty, and have no blanks. -/
theorem forall_mem_words (text : List α) :
    ∀ word ∈ words p text, word ≠ [] ∧ ∀ d ∈ word, p d = false :=
  forall_mem_wordsFrom (fun _ hd => absurd hd not_mem_nil) text

variable (sep : List α) {list : List (List α)}

theorem intercalate_concat (hne : list ≠ [])
    (word : List α) : sep.intercalate (list ++ [word]) = sep.intercalate list ++ sep ++ word := by
  induction list with
  | nil => exact absurd rfl hne
  | cons first list ih =>
    cases list with
    | nil => simp
    | cons second list =>
      rw [cons_append, intercalate_cons_of_ne_nil (by simp), ih (cons_ne_nil _ _),
        intercalate_cons_of_ne_nil (cons_ne_nil _ _)]
      simp only [append_assoc]

theorem intercalate_ne_nil (list : List (List α)) (hne : word ≠ []) :
    sep.intercalate (word :: list) ≠ [] := by
  cases list with
  | nil => rwa [intercalate_singleton]
  | cons second list =>
    rw [intercalate_cons_cons, append_assoc]
    exact append_ne_nil_of_left_ne_nil hne _

/-- Words joined by a blank are the words again. -/
theorem words_intercalate (hc : p c = true)
    (hlist : ∀ word ∈ list, word ≠ [] ∧ ∀ d ∈ word, p d = false) :
    words p ([c].intercalate list) = list := by
  induction list with
  | nil => rfl
  | cons word list ih =>
    obtain ⟨⟨hne, hword⟩, hlist⟩ := forall_mem_cons.1 hlist
    cases list with
    | nil =>
      have hone := @words_cons_word _ p word [] hne hword (fun _ hd => nomatch hd)
      rw [append_nil] at hone
      rw [intercalate_singleton, hone]
      rfl
    | cons next list =>
      have hhead : ∀ d ∈ ([c] ++ [c].intercalate (next :: list)).head?, p d = true := by
        rintro d ⟨⟩
        exact hc
      rw [intercalate_cons_cons, append_assoc, words_cons_word hne hword hhead,
        singleton_append, words_cons_of_blank hc, ih hlist]

end Runs

/-! ## Single blanks -/

variable (p) in
/-- The text with the blank `b` for each run of blanks, if there is a blank before it or not. -/
def squeezeFrom (b : α) : Bool → List α → List α
  | _, [] => []
  | afterBlank, c :: text =>
    if p c then if afterBlank then squeezeFrom b true text else b :: squeezeFrom b true text
    else c :: squeezeFrom b false text

section Squeeze

variable {b c : α} {f : Bool}

theorem squeezeFrom_cons_of_not_blank (hc : p c = false) (f : Bool) (text : List α) :
    squeezeFrom p b f (c :: text) = c :: squeezeFrom p b false text := by
  rw [squeezeFrom, if_neg (by simp [hc])]

theorem squeezeFrom_append_cons (hc : p c = false) (f : Bool) (text rest : List α) :
    squeezeFrom p b f (text ++ c :: rest) =
      squeezeFrom p b f text ++ c :: squeezeFrom p b false rest := by
  induction text generalizing f with
  | nil => exact squeezeFrom_cons_of_not_blank hc f rest
  | cons d text ih =>
    -- `c` comes after the same blanks as before.
    rw [cons_append, squeezeFrom, squeezeFrom]
    split_ifs
    · exact ih true
    · rw [ih true, cons_append]
    · rw [ih false, cons_append]

/-- What is not a blank was in the text before, between the same parts. -/
theorem exists_of_squeezeFrom_eq (hb : p b = true) (hc : p c = false) {rest : List α}
    (h : squeezeFrom p b f text = before ++ c :: rest) :
    ∃ before' rest', text = before' ++ c :: rest' ∧ squeezeFrom p b f before' = before ∧
      squeezeFrom p b false rest' = rest := by
  induction text generalizing f before with
  | nil =>
    rw [squeezeFrom] at h
    exact absurd h.symm (append_ne_nil_of_right_ne_nil _ (cons_ne_nil _ _))
  | cons d text ih =>
    rw [squeezeFrom] at h
    split_ifs at h with hd hf
    · obtain ⟨before', rest', rfl, hbefore, hrest⟩ := ih h
      refine ⟨d :: before', rest', rfl, ?_, hrest⟩
      rw [squeezeFrom, if_pos hd, if_pos hf, hbefore]
    · -- The blank of the run is not `c`.
      cases before with
      | nil =>
        rw [(cons.inj h).1, hc] at hb
        cases hb
      | cons e before =>
        obtain ⟨rfl, hrest⟩ := cons.inj h
        obtain ⟨before', rest', rfl, hbefore, hrest⟩ := ih hrest
        refine ⟨d :: before', rest', rfl, ?_, hrest⟩
        rw [squeezeFrom, if_pos hd, if_neg hf, hbefore]
    · cases before with
      | nil =>
        obtain ⟨rfl, hrest⟩ := cons.inj h
        exact ⟨[], text, rfl, rfl, hrest⟩
      | cons e before =>
        obtain ⟨rfl, hrest⟩ := cons.inj h
        obtain ⟨before', rest', rfl, hbefore, hrest⟩ := ih hrest
        refine ⟨d :: before', rest', rfl, ?_, hrest⟩
        rw [squeezeFrom, if_neg hd, hbefore]

theorem mem_squeezeFrom_iff (hb : p b = true) (hc : p c = false) :
    c ∈ squeezeFrom p b f text ↔ c ∈ text := by
  constructor
  · intro hmem
    obtain ⟨before, rest, heq⟩ := append_of_mem hmem
    obtain ⟨before', rest', rfl, -⟩ := exists_of_squeezeFrom_eq hb hc heq
    exact mem_append_right before' mem_cons_self
  · intro hmem
    obtain ⟨before, rest, rfl⟩ := append_of_mem hmem
    rw [squeezeFrom_append_cons hc]
    exact mem_append_right _ mem_cons_self

/-- With more blanks than those that are squeezed, the words are the same. -/
theorem wordsFrom_squeezeFrom {q : α → Bool} {word : List α} (hq : ∀ d, p d = true → q d = true)
    (hb : q b = true) (hword : f = true → word = []) :
    wordsFrom q word (squeezeFrom p b f text) = wordsFrom q word text := by
  induction text generalizing f word with
  | nil => rw [squeezeFrom]
  | cons d text ih =>
    by_cases hd : p d = true
    · have hrest : wordsFrom q [] (squeezeFrom p b true text) = wordsFrom q [] text :=
        ih fun _ => rfl
      cases f with
      | true =>
        -- No word has begun, so none ends with another blank.
        obtain rfl := hword rfl
        rw [squeezeFrom, if_pos hd, if_pos rfl, hrest]
        exact (words_cons_of_blank (hq d hd) text).symm
      | false =>
        rw [squeezeFrom, if_pos hd, if_neg Bool.false_ne_true, wordsFrom, if_pos hb, hrest,
          wordsFrom, if_pos (hq d hd)]
    · have hrest : ∀ word, wordsFrom q word (squeezeFrom p b false text) = wordsFrom q word text :=
        fun _ => ih fun h => absurd h Bool.false_ne_true
      rw [squeezeFrom, if_neg hd, wordsFrom, wordsFrom, hrest, hrest]

theorem words_squeezeFrom {q : α → Bool} (hq : ∀ d, p d = true → q d = true) (hb : q b = true)
    (f : Bool) (text : List α) : words q (squeezeFrom p b f text) = words q text :=
  wordsFrom_squeezeFrom hq hb fun _ => rfl

/-- Two blanks do not follow each other. -/
theorem isChain_squeezeFrom (f : Bool) (text : List α) :
    (squeezeFrom p b f text).IsChain (fun c d => ¬(p c = true ∧ p d = true)) ∧
      (f = true → ∀ c ∈ (squeezeFrom p b f text).head?, p c = false) := by
  induction text generalizing f with
  | nil => exact ⟨.nil, fun _ c hc => nomatch hc⟩
  | cons d text ih =>
    rw [squeezeFrom]
    split_ifs with hd hf
    · exact ⟨(ih true).1, fun _ => (ih true).2 rfl⟩
    · -- After the blank, the text goes on without one.
      refine ⟨isChain_cons.2 ⟨fun c hc hblanks => ?_, (ih true).1⟩, fun h => absurd h hf⟩
      have hhead := (ih true).2 rfl c hc
      rw [hblanks.2] at hhead
      cases hhead
    · refine ⟨isChain_cons.2 ⟨fun c _ hblanks => hd hblanks.1, (ih false).1⟩, fun _ c hc => ?_⟩
      cases hc
      exact Bool.eq_false_iff.2 hd

/-- A text is not squeezed again. -/
theorem squeezeFrom_squeezeFrom (hb : p b = true) (f : Bool) (text : List α) :
    squeezeFrom p b f (squeezeFrom p b f text) = squeezeFrom p b f text := by
  induction text generalizing f with
  | nil => rfl
  | cons d text ih =>
    rw [squeezeFrom]
    split_ifs with hd hf
    · rw [hf]
      exact ih true
    · rw [squeezeFrom, if_pos hb, if_neg hf, ih]
    · rw [squeezeFrom_cons_of_not_blank (Bool.eq_false_iff.2 hd), ih]

/-- At the end of a text, blanks add blanks. -/
theorem exists_blanks_squeezeFrom_append (hb : p b = true) {blanks : List α}
    (hblanks : ∀ d ∈ blanks, p d = true) (f : Bool) (text : List α) :
    ∃ blanks', squeezeFrom p b f (text ++ blanks) = squeezeFrom p b f text ++ blanks' ∧
      ∀ d ∈ blanks', p d = true := by
  induction text generalizing f with
  | nil =>
    refine ⟨squeezeFrom p b f blanks, rfl, fun d hd => ?_⟩
    by_contra hnot
    exact hnot (hblanks d ((mem_squeezeFrom_iff hb (Bool.eq_false_iff.2 hnot)).1 hd))
  | cons d text ih =>
    rw [cons_append, squeezeFrom, squeezeFrom]
    split_ifs
    · exact ih true
    · obtain ⟨blanks', heq, hblanks'⟩ := ih true
      exact ⟨blanks', by rw [heq, cons_append], hblanks'⟩
    · obtain ⟨blanks', heq, hblanks'⟩ := ih false
      exact ⟨blanks', by rw [heq, cons_append], hblanks'⟩

end Squeeze

end WKOpenVR.Words
