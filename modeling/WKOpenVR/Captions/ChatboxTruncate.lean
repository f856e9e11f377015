import WKOpenVR.Captions.ChatboxSplit

/-!
# Texts that are cut

A text that exceeds the limit is cut to the first chunk, with an ellipsis
(`TruncateTextForChatbox`). What is left should be the text itself, or a part of it with an
ellipsis for what is missing (`IsTruncation`).

But the length of the text is taken with the whitespace at its ends, and that of the chunk without
it. If the text exceeds the limit by its whitespace only, then an ellipsis is added though nothing
is missing; and if there is nothing but whitespace, then nothing is left
(`ellipsis_without_missing`). For all other texts that are valid UTF-8, what is left is a
truncation of the text (`isTruncation_iff`).
-/

namespace WKOpenVR.Captions

open Text Utf8 List Words

/-- What is left of a text: the text itself, or what it begins with after its whitespace, and an
ellipsis if anything is missing. -/
structure IsTruncation (byteLimit : ℕ) (text result : List UInt8) : Prop where
  valid : Valid result
  length_le : result.length ≤ byteLimit
  kept : result = text ∨ ∃ kept missing, text.dropWhile chatboxAsciiSpace = kept ++ missing ∧
    result = kept ++ ascii "..." ∧ nonSpace missing ≠ []

section Front

variable {byteLimit : ℕ} {text : List UInt8} {blanks rest : List UInt8}

theorem dropWhile_blanks_append (hblanks : ∀ c ∈ blanks, chatboxAsciiSpace c = true)
    (hhead : ∀ c ∈ rest.head?, chatboxAsciiSpace c = false) :
    (blanks ++ rest).dropWhile chatboxAsciiSpace = rest := by
  rw [dropWhile_append_of_pos hblanks, dropWhile_of_head? hhead]

variable {part : List UInt8}

theorem isPrefix_trimChatboxChunk
    (hhead : ∀ c ∈ part.head?, chatboxAsciiSpace c = false) : trimChatboxChunk part <+: part := by
  rw [trimChatboxChunk, dropWhile_of_head? hhead]
  exact rdropWhile_prefix _ _

theorem trimChatboxChunk_prefix_dropWhile
    (hblanks : ∀ c ∈ blanks, chatboxAsciiSpace c = true) (hne : part ≠ [])
    (hhead : ∀ c ∈ part.head?, chatboxAsciiSpace c = false) :
    trimChatboxChunk part <+: (blanks ++ (part ++ rest)).dropWhile chatboxAsciiSpace := by
  have hhead' : ∀ c ∈ (part ++ rest).head?, chatboxAsciiSpace c = false := by
    rw [List.head?_append_of_ne_nil _ hne]
    exact hhead
  rw [dropWhile_blanks_append hblanks hhead']
  exact (isPrefix_trimChatboxChunk hhead).trans (prefix_append _ _)

/-- The first chunk is what the text begins with after its whitespace. -/
theorem Splits.front {chunks : List (List UInt8)} (h : Splits byteLimit text chunks)
    (htext : nonSpace text ≠ []) :
    ∃ front chunks', chunks = front :: chunks' ∧ front <+: text.dropWhile chatboxAsciiSpace := by
  cases h with
  | blank hblanks => exact absurd (nonSpace_of_blanks hblanks) htext
  | last hblanks hne hhead hlength =>
    refine ⟨_, _, rfl, ?_⟩
    rw [dropWhile_blanks_append hblanks hhead]
    exact isPrefix_trimChatboxChunk hhead
  | atSpace hblanks hne hhead hlength hc h =>
    exact ⟨_, _, rfl, trimChatboxChunk_prefix_dropWhile hblanks hne hhead⟩
  | hard hblanks hne hpart hlength hrest hword h =>
    refine ⟨_, _, rfl, trimChatboxChunk_prefix_dropWhile hblanks hne fun c hc => ?_⟩
    exact hpart c (mem_of_mem_head? hc)

/-- A valid text, cut at a character. -/
theorem valid_take_clamp (hvalid : Valid text) (pos : ℕ) :
    Valid (text.take (clampChatboxUtf8Boundary text pos)) := by
  rw [clampChatboxUtf8Boundary]
  split_ifs with hpos
  · rw [take_length]
    exact hvalid
  · rcases eq_or_ne (clampLoop text pos) 0 with hzero | hne
    · rw [hzero]
      exact valid_nil
    · have hcut := not_isContinuation_drop_clampLoop (Nat.lt_of_not_le hpos) hne
      rw [← take_append_drop (clampLoop text pos) text] at hvalid
      exact (hvalid.of_append hcut).1

end Front

/-! ## What is left -/

section Kept

variable {byteLimit : ℕ} {text : List UInt8}

/-- Of a text that exceeds the limit, what is left is what it begins with, and an ellipsis. -/
theorem exists_kept (hvalid : Valid text) (hlimit : 4 ≤ byteLimit)
    (hlength : byteLimit < text.length) (htext : nonSpace text ≠ []) :
    ∃ kept, truncateTextForChatbox text byteLimit = kept ++ ascii "..." ∧
      kept <+: text.dropWhile chatboxAsciiSpace ∧ kept.length + 3 ≤ byteLimit ∧ Valid kept := by
  have hsplits : Splits byteLimit text (splitTextForChatbox text byteLimit) := by
    rw [splitTextForChatbox, if_neg (by omega)]
    exact splits_splitLoop hlimit text hvalid
  obtain ⟨front, chunks, hchunks, hfront⟩ := hsplits.front htext
  have hchunk := hsplits.isChunk hvalid front (hchunks ▸ mem_cons_self)
  rw [truncateTextForChatbox, if_neg (Nat.not_le_of_lt hlength), hchunks]
  dsimp only
  rw [if_neg (by omega)]
  split_ifs with hfits
  · exact ⟨front, rfl, hfront, by omega, hchunk.valid⟩
  · have htrim := rdropWhile_prefix chatboxAsciiSpace
      (front.take (clampChatboxUtf8Boundary front (byteLimit - 3)))
    refine ⟨_, rfl, ?_, ?_, ?_⟩
    · have htake := take_prefix (clampChatboxUtf8Boundary front (byteLimit - 3)) front
      exact htrim.trans (htake.trans hfront)
    · have hclamp := clampChatboxUtf8Boundary_le front (byteLimit - 3)
      have htake := length_take_le (clampChatboxUtf8Boundary front (byteLimit - 3)) front
      have hle := htrim.length_le
      omega
    · have htake := valid_take_clamp hchunk.valid (byteLimit - 3)
      obtain ⟨blanks, heq, hblanks⟩ := @Words.exists_blanks_rdropWhile _ chatboxAsciiSpace
        (front.take (clampChatboxUtf8Boundary front (byteLimit - 3)))
      rw [heq] at htake
      exact htake.of_append_ascii fun c hc => toNat_lt_of_chatboxAsciiSpace (hblanks c hc)

theorem nonSpace_ne_nil_of_trim (htrim : trimChatboxChunk text ≠ []) : nonSpace text ≠ [] := by
  rw [← nonSpace_trimChatboxChunk]
  intro hnil
  have hlast := getLast?_trim _ (List.getLast?_eq_some_getLast htrim)
  have hspace := filter_eq_nil_iff.1 hnil _ (getLast_mem htrim)
  simp [hlast] at hspace

/-- The text after its whitespace: the trimmed text, and whitespace. -/
theorem exists_trimChatboxChunk_append (text : List UInt8) :
    ∃ blanks, text.dropWhile chatboxAsciiSpace = trimChatboxChunk text ++ blanks ∧
      ∀ c ∈ blanks, chatboxAsciiSpace c = true :=
  exists_blanks_rdropWhile _

/-- If less is kept than the trimmed text has, then some of it is missing. -/
theorem nonSpace_missing_ne_nil {kept missing : List UInt8}
    (heq : text.dropWhile chatboxAsciiSpace = kept ++ missing)
    (hlength : kept.length < (trimChatboxChunk text).length) : nonSpace missing ≠ [] := by
  obtain ⟨blanks, htrim, -⟩ := exists_trimChatboxChunk_append text
  have hprefix : kept <+: trimChatboxChunk text :=
    prefix_of_prefix_length_le (heq ▸ prefix_append kept missing)
      (htrim ▸ prefix_append _ blanks) hlength.le
  obtain ⟨more, hmore⟩ := hprefix
  have hne : more ≠ [] := by
    rintro rfl
    rw [← hmore, append_nil] at hlength
    exact lt_irrefl _ hlength
  have hmissing : missing = more ++ blanks := by
    rw [heq, ← hmore, append_assoc] at htrim
    exact append_cancel_left htrim
  -- The last byte of the trimmed text is not whitespace.
  have hlast : chatboxAsciiSpace (more.getLast hne) = false := by
    refine @Words.getLast?_trim _ chatboxAsciiSpace text _ ?_
    change _ ∈ (trimChatboxChunk text).getLast?
    rw [← hmore, List.getLast?_append_of_ne_nil _ hne]
    exact List.getLast?_eq_some_getLast hne
  intro hnil
  rw [hmissing] at hnil
  have hspace := filter_eq_nil_iff.1 hnil _
    (mem_append_left blanks (getLast_mem hne))
  simp [hlast] at hspace

theorem valid_ellipsis : Valid (ascii "...") := ⟨['.', '.', '.'], by decide⟩

theorem isTruncation_of_lt (hvalid : Valid text) (hlimit : 4 ≤ byteLimit)
    (hlength : byteLimit < text.length) (htrim : byteLimit < (trimChatboxChunk text).length + 3) :
    IsTruncation byteLimit text (truncateTextForChatbox text byteLimit) := by
  have hne : trimChatboxChunk text ≠ [] := by
    intro hnil
    rw [hnil, length_nil] at htrim
    omega
  obtain ⟨kept, hresult, ⟨missing, heq⟩, hkept, hvalid'⟩ :=
    exists_kept hvalid hlimit hlength (nonSpace_ne_nil_of_trim hne)
  refine ⟨?_, length_truncateTextForChatbox_le text byteLimit, .inr ⟨kept, missing, heq.symm,
    hresult, nonSpace_missing_ne_nil heq.symm (by omega)⟩⟩
  rw [hresult]
  exact hvalid'.append valid_ellipsis

end Kept

/-! ## Texts that exceed the limit by whitespace -/

section Whitespace

variable {byteLimit : ℕ} {text : List UInt8}

theorem trimChatboxChunk_append_blanks {part blanks : List UInt8}
    (hhead : ∀ c ∈ (part ++ blanks).head?, chatboxAsciiSpace c = false)
    (hlast : ∀ c ∈ part.getLast?, chatboxAsciiSpace c = false)
    (hblanks : ∀ c ∈ blanks, chatboxAsciiSpace c = true) :
    trimChatboxChunk (part ++ blanks) = part := by
  rw [trimChatboxChunk, dropWhile_of_head? hhead, rdropWhile_append hlast,
    rdropWhile_eq_nil_iff.2 hblanks, append_nil]

/-- The first chunk is the whole text but whitespace: the rest of it begins with whitespace before
the limit. -/
theorem splitLoop_eq_cons (htrim : trimChatboxChunk text ≠ [])
    (hlength : (trimChatboxChunk text).length + 3 ≤ byteLimit) :
    ∃ chunks, splitLoop byteLimit text = trimChatboxChunk text :: chunks := by
  obtain ⟨blanks, hrest, hblanks⟩ := exists_trimChatboxChunk_append text
  have hhead := @Words.head?_dropWhile _ chatboxAsciiSpace text
  have hlast : ∀ c ∈ (trimChatboxChunk text).getLast?, chatboxAsciiSpace c = false :=
    getLast?_trim
  rw [splitLoop]
  generalize text.dropWhile chatboxAsciiSpace = rest at *
  generalize trimChatboxChunk text = trimmed at *
  subst hrest
  have hpush (chunks : List (List UInt8)) : pushChunk trimmed chunks = trimmed :: chunks :=
    if_neg fun hnil => htrim (isEmpty_iff.1 hnil)
  dsimp only
  rw [if_neg (by simp [htrim])]
  by_cases hshort : (trimmed ++ blanks).length ≤ byteLimit
  · rw [if_pos hshort, trimChatboxChunk_append_blanks hhead hlast hblanks, hpush]
    exact ⟨_, rfl⟩
  -- Otherwise the limit falls into the blanks, and the split is at the last blank before it.
  obtain ⟨n, rfl⟩ : ∃ n, byteLimit = n + 2 := ⟨byteLimit - 2, by omega⟩
  have hspace (j : ℕ) (hj : trimmed.length ≤ j) (hj' : j ≤ n + 2) :
      chatboxAsciiSpace ((trimmed ++ blanks).getD j 0) = true := by
    rw [length_append] at hshort
    rw [getD_append_right _ _ _ _ hj, getD_eq_getElem _ _ (by omega)]
    exact hblanks _ (getElem_mem _)
  have hclamp : clampChatboxUtf8Boundary (trimmed ++ blanks) (n + 2) = n + 2 := by
    have hascii := toNat_lt_of_chatboxAsciiSpace (hspace (n + 2) (by omega) le_rfl)
    rw [clampChatboxUtf8Boundary, if_neg (by omega), clampLoop, if_neg]
    rw [Bool.not_eq_true]
    exact not_isContinuation_of_lt hascii
  have hsplit : lastSpace (trimmed ++ blanks) (n + 2) = some (n + 1) := by
    rw [lastSpace, if_pos (hspace (n + 1) (by omega) (by omega))]
  have htake : (trimmed ++ blanks).take (n + 1) =
      trimmed ++ blanks.take (n + 1 - trimmed.length) := by
    rw [take_append, take_of_length_le (by omega)]
  have hhead' : ∀ c ∈ (trimmed ++ blanks.take (n + 1 - trimmed.length)).head?,
      chatboxAsciiSpace c = false := by
    rw [List.head?_append_of_ne_nil _ htrim] at hhead ⊢
    exact hhead
  have hblanks' : ∀ c ∈ blanks.take (n + 1 - trimmed.length), chatboxAsciiSpace c = true :=
    fun c hc => hblanks c (mem_of_mem_take hc)
  rw [if_neg hshort, hclamp, if_neg (Nat.succ_ne_zero _), hsplit]
  dsimp only
  rw [htake, trimChatboxChunk_append_blanks hhead' hlast hblanks', hpush]
  exact ⟨_, rfl⟩

theorem splitLoop_eq_nil (htrim : trimChatboxChunk text = []) : splitLoop byteLimit text = [] := by
  have hempty : text.dropWhile chatboxAsciiSpace = [] := by
    obtain ⟨blanks, hrest, hblanks⟩ := exists_trimChatboxChunk_append text
    have hhead := @Words.head?_dropWhile _ chatboxAsciiSpace text
    rw [htrim, nil_append] at hrest
    rw [hrest] at hhead ⊢
    cases blanks with
    | nil => rfl
    | cons c blanks =>
      have hc := hblanks c mem_cons_self
      rw [hhead c rfl] at hc
      cases hc
  rw [splitLoop, hempty]
  rfl

/-- What is left is the whole text but whitespace with an ellipsis, or nothing at all. -/
theorem truncateTextForChatbox_of_le (hlimit : 4 ≤ byteLimit) (hlength : byteLimit < text.length)
    (htrim : (trimChatboxChunk text).length + 3 ≤ byteLimit) :
    truncateTextForChatbox text byteLimit =
      if trimChatboxChunk text = [] then [] else trimChatboxChunk text ++ ascii "..." := by
  rw [truncateTextForChatbox, if_neg (Nat.not_le_of_lt hlength), splitTextForChatbox,
    if_neg (by omega)]
  rcases eq_or_ne (trimChatboxChunk text) [] with hnil | hne
  · rw [splitLoop_eq_nil hnil, if_pos hnil]
  · obtain ⟨chunks, hchunks⟩ := splitLoop_eq_cons hne htrim
    rw [hchunks, if_neg hne]
    dsimp only
    rw [if_neg (by omega), if_pos (by omega)]

theorem not_isTruncation_of_le (hlimit : 4 ≤ byteLimit) (hlength : byteLimit < text.length)
    (htrim : (trimChatboxChunk text).length + 3 ≤ byteLimit) :
    ¬IsTruncation byteLimit text (truncateTextForChatbox text byteLimit) := by
  rintro ⟨-, hle, htext | ⟨kept, missing, hrest, hresult, hmissing⟩⟩
  · rw [htext] at hle
    omega
  rw [truncateTextForChatbox_of_le hlimit hlength htrim] at hresult
  split_ifs at hresult with hnil
  · have hdots := congrArg List.length hresult
    rw [length_nil, length_append] at hdots
    have hthree : (ascii "...").length = 3 := by decide
    omega
  · obtain ⟨blanks, hblanks, hspace⟩ := exists_trimChatboxChunk_append text
    rw [hrest, ← append_cancel_right hresult] at hblanks
    rw [append_cancel_left hblanks] at hmissing
    exact hmissing (nonSpace_of_blanks hspace)

end Whitespace

/-- What is left of a valid text is a truncation of it, if and only if the text does not exceed
the limit by its whitespace only. -/
theorem isTruncation_iff (text : List UInt8) (byteLimit : ℕ) (hvalid : Valid text)
    (hlimit : 4 ≤ byteLimit) :
    IsTruncation byteLimit text (truncateTextForChatbox text byteLimit) ↔
      text.length ≤ byteLimit ∨ byteLimit < (trimChatboxChunk text).length + 3 := by
  rcases Nat.lt_or_ge byteLimit text.length with hlength | hfits
  · rw [or_iff_right (Nat.not_le_of_lt hlength)]
    constructor
    · intro htruncation
      by_contra htrim
      exact not_isTruncation_of_le hlimit hlength (Nat.le_of_not_lt htrim) htruncation
    · exact isTruncation_of_lt hvalid hlimit hlength
  · refine iff_of_true ?_ (.inl hfits)
    rw [truncateTextForChatbox, if_pos hfits]
    exact ⟨hvalid, hfits, .inl rfl⟩

/-- Of `ab cd`, the first byte is left. -/
theorem isTruncation_iff_short :
    Valid [97, 98, 32, 99, 100] ∧
      IsTruncation 4 [97, 98, 32, 99, 100] (truncateTextForChatbox [97, 98, 32, 99, 100] 4) := by
  have hvalid : Valid [97, 98, 32, 99, 100] := ⟨['a', 'b', ' ', 'c', 'd'], by decide⟩
  exact ⟨hvalid, (isTruncation_iff _ 4 hvalid (by decide)).2 (.inr (by decide))⟩

/-- An `a` with four spaces after it gets an ellipsis, and of five spaces nothing is left. -/
theorem ellipsis_without_missing :
    truncateTextForChatbox [97, 32, 32, 32, 32] 4 = ascii "a..." ∧
      ¬IsTruncation 4 [97, 32, 32, 32, 32] (truncateTextForChatbox [97, 32, 32, 32, 32] 4) ∧
      truncateTextForChatbox [32, 32, 32, 32, 32] 4 = [] ∧
      ¬IsTruncation 4 [32, 32, 32, 32, 32] (truncateTextForChatbox [32, 32, 32, 32, 32] 4) := by
  refine ⟨?_, not_isTruncation_of_le (by decide) (by decide) (by decide), ?_,
    not_isTruncation_of_le (by decide) (by decide) (by decide)⟩
  · rw [truncateTextForChatbox_of_le (by decide) (by decide) (by decide)]
    decide
  · rw [truncateTextForChatbox_of_le (by decide) (by decide) (by decide)]
    decide

end WKOpenVR.Captions
