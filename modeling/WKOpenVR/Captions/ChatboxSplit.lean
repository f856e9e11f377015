import WKOpenVR.Captions.ChatboxText
import WKOpenVR.Utf8
import WKOpenVR.Words

/-!
# Chunks of a text

What the chunks of a text are, for a text that is valid UTF-8 and a limit that any character fits
in. A step of the loop goes on after a chunk in one of three ways (`Splits`): the rest is the last
chunk, or it is cut at a whitespace, or a word is cut because it exceeds the limit. In every other
case the word at the limit is complete.

From this one description follow, by induction on the chunks, that the chunks are valid and trimmed
and within the limit (`Splits.isChunk`), that they have all of the text but whitespace
(`Splits.nonSpace_flatten`), and that a word within the limit is not divided (`Splits.run`).
-/

namespace WKOpenVR.Captions

open Utf8 List Option Words

variable {text : List UInt8} {i : ℕ}

def nonSpace (text : List UInt8) : List UInt8 := text.filter fun c => !chatboxAsciiSpace c

structure IsChunk (byteLimit : ℕ) (chunk : List UInt8) : Prop where
  ne_nil : chunk ≠ []
  valid : Valid chunk
  length_le : chunk.length ≤ byteLimit
  head : ∀ c ∈ chunk.head?, chatboxAsciiSpace c = false
  last : ∀ c ∈ chunk.getLast?, chatboxAsciiSpace c = false

/-- The bytes between two parts of a text are a word: a run of non-whitespace bytes that does not
go on on either side. -/
structure IsRun (before word after : List UInt8) : Prop where
  ne_nil : word ≠ []
  not_space : ∀ c ∈ word, chatboxAsciiSpace c = false
  before : ∀ c ∈ before.getLast?, chatboxAsciiSpace c = true
  after : ∀ c ∈ after.head?, chatboxAsciiSpace c = true

/-- How a text is split into chunks. -/
inductive Splits (byteLimit : ℕ) : List UInt8 → List (List UInt8) → Prop
  | blank {blanks : List UInt8} (hblanks : ∀ c ∈ blanks, chatboxAsciiSpace c = true) :
      Splits byteLimit blanks []
  /-- The rest is within the limit. -/
  | last {blanks rest : List UInt8} (hblanks : ∀ c ∈ blanks, chatboxAsciiSpace c = true)
      (hne : rest ≠ []) (hhead : ∀ c ∈ rest.head?, chatboxAsciiSpace c = false)
      (hlength : rest.length ≤ byteLimit) :
      Splits byteLimit (blanks ++ rest) [trimChatboxChunk rest]
  | atSpace {blanks part rest : List UInt8} {c : UInt8} {chunks : List (List UInt8)}
      (hblanks : ∀ c ∈ blanks, chatboxAsciiSpace c = true) (hne : part ≠ [])
      (hhead : ∀ c ∈ part.head?, chatboxAsciiSpace c = false) (hlength : part.length ≤ byteLimit)
      (hc : chatboxAsciiSpace c = true) (h : Splits byteLimit rest chunks) :
      Splits byteLimit (blanks ++ (part ++ c :: rest)) (trimChatboxChunk part :: chunks)
  /-- A word that is complete, or exceeds the limit. -/
  | hard {blanks part rest : List UInt8} {chunks : List (List UInt8)}
      (hblanks : ∀ c ∈ blanks, chatboxAsciiSpace c = true) (hne : part ≠ [])
      (hpart : ∀ c ∈ part, chatboxAsciiSpace c = false) (hlength : part.length ≤ byteLimit)
      (hrest : ∀ c ∈ rest.head?, isContinuation c = false)
      (hword : (∀ c ∈ rest.head?, chatboxAsciiSpace c = true) ∨
        byteLimit < ((part ++ rest).takeWhile fun c => !chatboxAsciiSpace c).length)
      (h : Splits byteLimit rest chunks) :
      Splits byteLimit (blanks ++ (part ++ rest)) (trimChatboxChunk part :: chunks)

/-! ## The loop -/

variable {c : UInt8}

theorem toNat_lt_of_chatboxAsciiSpace (h : chatboxAsciiSpace c = true) : c.toNat < 128 := by
  simp only [chatboxAsciiSpace, Bool.or_eq_true, decide_eq_true_eq] at h
  rcases h with ((rfl | rfl) | rfl) | rfl <;> decide

theorem not_chatboxAsciiSpace_of_isContinuation (h : isContinuation c = true) :
    chatboxAsciiSpace c = false := by
  rw [Bool.eq_false_iff]
  intro hspace
  have hlt := toNat_lt_of_chatboxAsciiSpace hspace
  have hle := ((isContinuation_iff c).1 h).1
  omega

variable {part : List UInt8}

theorem trimChatboxChunk_ne_nil (hne : part ≠ [])
    (hhead : ∀ c ∈ part.head?, chatboxAsciiSpace c = false) : trimChatboxChunk part ≠ [] := by
  cases part with
  | nil => exact absurd rfl hne
  | cons c part =>
    intro hnil
    rw [trimChatboxChunk, dropWhile_of_head? hhead, rdropWhile_eq_nil_iff] at hnil
    have hc := hnil c mem_cons_self
    rw [hhead c rfl] at hc
    cases hc

theorem pushChunk_trim (hne : part ≠ [])
    (hhead : ∀ c ∈ part.head?, chatboxAsciiSpace c = false) (chunks : List (List UInt8)) :
    pushChunk (trimChatboxChunk part) chunks = trimChatboxChunk part :: chunks :=
  if_neg fun hnil => trimChatboxChunk_ne_nil hne hhead (isEmpty_iff.1 hnil)

/-- Where the loop stops: at a byte that is not a continuation byte, after which there are only
such. -/
theorem clampLoop_spec (text : List UInt8) (pos : ℕ) :
    (∀ j, clampLoop text pos < j → j ≤ pos → isContinuation (text.getD j 0) = true) ∧
      (clampLoop text pos ≠ 0 → isContinuation (text.getD (clampLoop text pos) 0) = false) := by
  induction pos with
  | zero =>
    refine ⟨fun j hj hle => absurd hj (by omega), fun hne => absurd rfl hne⟩
  | succ pos ih =>
    rw [clampLoop]
    split_ifs with hcontinuation
    · refine ⟨fun j hj hle => ?_, ih.2⟩
      rcases Nat.lt_or_ge pos j with hlt | hge
      · obtain rfl : j = pos + 1 := by omega
        exact hcontinuation
      · exact ih.1 j hj hge
    · exact ⟨fun j hj hle => absurd hj (by omega), fun _ => Bool.eq_false_iff.2 hcontinuation⟩

/-- A text can be cut where the loop stops. -/
theorem not_isContinuation_drop_clampLoop {pos : ℕ} (hpos : pos < text.length)
    (hne : clampLoop text pos ≠ 0) :
    ∀ c ∈ (text.drop (clampLoop text pos)).head?, isContinuation c = false := by
  have hle := clampLoop_le text pos
  rw [head?_drop, getElem?_eq_getElem (by omega)]
  rintro c hc
  obtain rfl := some.inj hc
  have hfirst := (clampLoop_spec text pos).2 hne
  rwa [getD_eq_getElem _ _ (by omega)] at hfirst

/-- A character ends within the limit. -/
theorem clampLoop_ne_zero {byteLimit : ℕ} (hvalid : Valid text) (hlimit : 4 ≤ byteLimit)
    (hlength : byteLimit < text.length) : clampLoop text byteLimit ≠ 0 := by
  intro hzero
  obtain ⟨i, hpos, hle, hi⟩ := hvalid.exists_not_isContinuation (by omega)
  have hcontinuation := (clampLoop_spec text byteLimit).1 i (by omega) (by omega)
  rw [hi] at hcontinuation
  cases hcontinuation

theorem lastSpace_eq_some {j : ℕ} (h : lastSpace text i = some j) :
    j < i ∧ chatboxAsciiSpace (text.getD j 0) = true := by
  induction i with
  | zero => cases h
  | succ i ih =>
    rw [lastSpace] at h
    split_ifs at h with hspace
    · obtain rfl := some.inj h
      exact ⟨Nat.lt_succ_self i, hspace⟩
    · exact ⟨(ih h).1.trans (Nat.lt_succ_self i), (ih h).2⟩

theorem lastSpace_eq_none (h : lastSpace text i = none) :
    ∀ j < i, chatboxAsciiSpace (text.getD j 0) = false := by
  induction i with
  | zero => exact fun j hj => absurd hj (Nat.not_lt_zero j)
  | succ i ih =>
    rw [lastSpace] at h
    split_ifs at h with hspace
    intro j hj
    rcases Nat.lt_succ_iff_lt_or_eq.1 hj with hlt | rfl
    · exact ih h j hlt
    · exact Bool.eq_false_iff.2 hspace

theorem eq_take_append_getD (hi : i < text.length) :
    text = text.take i ++ text.getD i 0 :: text.drop (i + 1) := by
  rw [getD_eq_getElem _ _ hi, ← drop_eq_getElem_cons hi, take_append_drop]

/-- The first bytes of a text, by their positions. -/
theorem forall_mem_take {q : UInt8 → Prop} (h : ∀ j < i, q (text.getD j 0)) :
    ∀ c ∈ text.take i, q c := by
  intro c hc
  obtain ⟨j, hj, rfl⟩ := mem_take_iff_getElem.1 hc
  have hq := h j (by omega)
  rwa [getD_eq_getElem _ _ (by omega)] at hq

/-- The first bytes of the rest begin as it does. -/
theorem take_of_head {rest : List UInt8} (hne : rest ≠ []) (hi : i ≠ 0)
    (hhead : ∀ c ∈ rest.head?, chatboxAsciiSpace c = false) :
    rest.take i ≠ [] ∧ ∀ c ∈ (rest.take i).head?, chatboxAsciiSpace c = false := by
  refine ⟨fun hnil => ?_, ?_⟩
  · rcases take_eq_nil_iff.1 hnil with hzero | hnil
    · exact hi hzero
    · exact hne hnil
  · rw [head?_take, if_neg hi]
    exact hhead

section Loop

variable {byteLimit : ℕ} {rest : List UInt8}

/-- A word that is cut exceeds the limit, unless whitespace follows it. -/
theorem exceeds_of_hardEnd (hlength : byteLimit < rest.length)
    (hnone : lastSpace rest (clampLoop rest byteLimit) = none) :
    (∀ c ∈ (rest.drop (clampLoop rest byteLimit)).head?, chatboxAsciiSpace c = true) ∨
      byteLimit < (rest.takeWhile fun c => !chatboxAsciiSpace c).length := by
  have hle := clampLoop_le rest byteLimit
  have hafter := (clampLoop_spec rest byteLimit).1
  have hbefore := lastSpace_eq_none hnone
  set hardEnd := clampLoop rest byteLimit
  have hhead : (rest.drop hardEnd).head? = some (rest.getD hardEnd 0) := by
    rw [head?_drop, getElem?_eq_getElem (by omega), getD_eq_getElem _ _ (by omega)]
  cases hspace : chatboxAsciiSpace (rest.getD hardEnd 0) with
  | true =>
    left
    rw [hhead]
    rintro c hc
    obtain rfl := some.inj hc
    exact hspace
  | false =>
    right
    -- Neither the bytes before the cut, nor the one at it, nor the continuation bytes up to the
    -- limit are whitespace.
    have hword : ∀ c ∈ rest.take (byteLimit + 1), (!chatboxAsciiSpace c) = true := by
      refine forall_mem_take fun j hj => ?_
      have hj' : chatboxAsciiSpace (rest.getD j 0) = false := by
        rcases Nat.lt_trichotomy j hardEnd with hlt | rfl | hgt
        · exact hbefore j hlt
        · exact hspace
        · exact not_chatboxAsciiSpace_of_isContinuation (hafter j hgt (by omega))
      rw [hj']
      rfl
    have hsplit := take_append_drop (byteLimit + 1) rest
    rw [← hsplit, takeWhile_append_of_pos hword, length_append, length_take]
    omega

theorem valid_drop_clampLoop (hvalid : Valid rest) (hlength : byteLimit < rest.length)
    (hpos : clampLoop rest byteLimit ≠ 0) : Valid (rest.drop (clampLoop rest byteLimit)) := by
  rw [← take_append_drop (clampLoop rest byteLimit) rest] at hvalid
  exact (hvalid.of_append (not_isContinuation_drop_clampLoop hlength hpos)).2

theorem valid_drop_space {i : ℕ} (hvalid : Valid rest) (hi : i < rest.length)
    (hspace : chatboxAsciiSpace (rest.getD i 0) = true) : Valid (rest.drop (i + 1)) := by
  have hascii := toNat_lt_of_chatboxAsciiSpace hspace
  rw [eq_take_append_getD hi] at hvalid
  refine (hvalid.of_append ?_).2.of_cons hascii
  rintro c hc
  obtain rfl := some.inj hc
  exact not_isContinuation_of_lt hascii

variable {blanks : List UInt8} {chunks : List (List UInt8)}

theorem splits_hardEnd (hblanks : ∀ c ∈ blanks, chatboxAsciiSpace c = true) (hne : rest ≠ [])
    (hhead : ∀ c ∈ rest.head?, chatboxAsciiSpace c = false) (hlength : byteLimit < rest.length)
    (hpos : clampLoop rest byteLimit ≠ 0) (hnone : lastSpace rest (clampLoop rest byteLimit) = none)
    (h : Splits byteLimit (rest.drop (clampLoop rest byteLimit)) chunks) :
    Splits byteLimit (blanks ++ rest)
      (pushChunk (trimChatboxChunk (rest.take (clampLoop rest byteLimit))) chunks) := by
  obtain ⟨htake, hhead'⟩ := take_of_head hne hpos hhead
  have hle : (rest.take (clampLoop rest byteLimit)).length ≤ byteLimit :=
    (length_take_le _ _).trans (clampLoop_le rest byteLimit)
  have hword : (∀ c ∈ (rest.drop (clampLoop rest byteLimit)).head?, chatboxAsciiSpace c = true) ∨
      byteLimit < ((rest.take (clampLoop rest byteLimit) ++
        rest.drop (clampLoop rest byteLimit)).takeWhile fun c => !chatboxAsciiSpace c).length := by
    rw [take_append_drop]
    exact exceeds_of_hardEnd hlength hnone
  have hsplits := Splits.hard hblanks htake (forall_mem_take (lastSpace_eq_none hnone)) hle
    (not_isContinuation_drop_clampLoop hlength hpos) hword h
  rw [take_append_drop] at hsplits
  rw [pushChunk_trim htake hhead']
  exact hsplits

/-- A chunk up to whitespace within the limit. -/
theorem splits_atSpace {split : ℕ} (hblanks : ∀ c ∈ blanks, chatboxAsciiSpace c = true)
    (hne : rest ≠ []) (hhead : ∀ c ∈ rest.head?, chatboxAsciiSpace c = false)
    (hlength : byteLimit < rest.length) (hsplit : split + 1 ≤ byteLimit)
    (hspace : chatboxAsciiSpace (rest.getD (split + 1) 0) = true)
    (h : Splits byteLimit (rest.drop (split + 2)) chunks) :
    Splits byteLimit (blanks ++ rest)
      (pushChunk (trimChatboxChunk (rest.take (split + 1))) chunks) := by
  obtain ⟨htake, hhead'⟩ := take_of_head hne split.succ_ne_zero hhead
  have hle : (rest.take (split + 1)).length ≤ byteLimit := (length_take_le _ _).trans hsplit
  have hsplits := Splits.atSpace hblanks htake hhead' hle hspace h
  rw [← eq_take_append_getD (hsplit.trans_lt hlength)] at hsplits
  rw [pushChunk_trim htake hhead']
  exact hsplits

end Loop

/-- The loop splits a valid text. -/
theorem splits_splitLoop {byteLimit : ℕ} (hlimit : 4 ≤ byteLimit) (text : List UInt8)
    (hvalid : Valid text) : Splits byteLimit text (splitLoop byteLimit text) := by
  induction hn : text.length using Nat.strong_induction_on generalizing text with
  | _ n ih =>
  subst hn
  rw [splitLoop]
  have htext := @List.takeWhile_append_dropWhile _ chatboxAsciiSpace text
  have hblanks : ∀ c ∈ text.takeWhile chatboxAsciiSpace, chatboxAsciiSpace c = true :=
    fun c hc => mem_takeWhile_imp hc
  have hhead := @Words.head?_dropWhile _ chatboxAsciiSpace text
  have hrest : Valid (text.dropWhile chatboxAsciiSpace) := by
    rw [← htext] at hvalid
    exact hvalid.of_ascii_append fun c hc => toNat_lt_of_chatboxAsciiSpace (hblanks c hc)
  have hle : (text.dropWhile chatboxAsciiSpace).length ≤ text.length :=
    (dropWhile_suffix _).length_le
  generalize text.takeWhile chatboxAsciiSpace = blanks at htext hblanks
  generalize text.dropWhile chatboxAsciiSpace = rest at *
  subst htext
  dsimp only
  by_cases hempty : rest = []
  · rw [if_pos (isEmpty_iff.2 hempty), hempty, append_nil]
    exact .blank hblanks
  rw [if_neg (fun h => hempty (isEmpty_iff.1 h))]
  by_cases hshort : rest.length ≤ byteLimit
  · rw [if_pos hshort, pushChunk_trim hempty hhead]
    exact .last hblanks hempty hhead hshort
  have hlength : byteLimit < rest.length := Nat.lt_of_not_le hshort
  have hclamp : clampChatboxUtf8Boundary rest byteLimit = clampLoop rest byteLimit :=
    if_neg (Nat.not_le_of_lt hlength)
  have hpos := clampLoop_ne_zero hrest hlimit hlength
  have hend := clampLoop_le rest byteLimit
  rw [if_neg hshort, hclamp, if_neg hpos]
  cases hsplit : lastSpace rest (clampLoop rest byteLimit) with
  | none =>
    have hchunks := ih _ (by rw [length_append, length_drop]; omega) _
      (valid_drop_clampLoop hrest hlength hpos) rfl
    exact splits_hardEnd hblanks hempty hhead hlength hpos hsplit hchunks
  | some split =>
    obtain ⟨hlt, hspace⟩ := lastSpace_eq_some hsplit
    cases split with
    | zero =>
      -- The first byte is not whitespace.
      cases rest with
      | nil => exact absurd rfl hempty
      | cons c rest =>
        have hc : chatboxAsciiSpace c = true := hspace
        rw [hhead c rfl] at hc
        cases hc
    | succ split =>
      have hchunks := ih _ (by rw [length_append, length_drop]; omega) _
        (valid_drop_space hrest (by omega) hspace) rfl
      exact splits_atSpace hblanks hempty hhead hlength (by omega) hspace hchunks

/-! ## The chunks -/

section Chunks

variable {byteLimit : ℕ} {chunks : List (List UInt8)}

theorem length_trimChatboxChunk_le : (trimChatboxChunk part).length ≤ part.length := by
  have htrim := rdropWhile_prefix chatboxAsciiSpace (part.dropWhile chatboxAsciiSpace)
  exact htrim.length_le.trans (dropWhile_suffix _).length_le

theorem valid_trimChatboxChunk (hvalid : Valid part) : Valid (trimChatboxChunk part) := by
  have hdrop : Valid (part.dropWhile chatboxAsciiSpace) := by
    rw [← @List.takeWhile_append_dropWhile _ chatboxAsciiSpace part] at hvalid
    exact hvalid.of_ascii_append fun c hc =>
      toNat_lt_of_chatboxAsciiSpace (mem_takeWhile_imp hc)
  obtain ⟨blanks, heq, hblanks⟩ :=
    @Words.exists_blanks_rdropWhile _ chatboxAsciiSpace (part.dropWhile chatboxAsciiSpace)
  rw [heq] at hdrop
  exact hdrop.of_append_ascii fun c hc => toNat_lt_of_chatboxAsciiSpace (hblanks c hc)

theorem isChunk_trimChatboxChunk (hvalid : Valid part) (hne : part ≠ [])
    (hhead : ∀ c ∈ part.head?, chatboxAsciiSpace c = false) (hlength : part.length ≤ byteLimit) :
    IsChunk byteLimit (trimChatboxChunk part) where
  ne_nil := trimChatboxChunk_ne_nil hne hhead
  valid := valid_trimChatboxChunk hvalid
  length_le := length_trimChatboxChunk_le.trans hlength
  head := head?_trim
  last := getLast?_trim

variable {blanks : List UInt8}

theorem valid_of_blanks (hvalid : Valid (blanks ++ text))
    (hblanks : ∀ c ∈ blanks, chatboxAsciiSpace c = true) : Valid text :=
  hvalid.of_ascii_append fun c hc => toNat_lt_of_chatboxAsciiSpace (hblanks c hc)

theorem Splits.isChunk (h : Splits byteLimit text chunks) (hvalid : Valid text) :
    ∀ chunk ∈ chunks, IsChunk byteLimit chunk := by
  induction h with
  | blank hblanks => exact fun chunk hchunk => absurd hchunk not_mem_nil
  | last hblanks hne hhead hlength =>
    intro chunk hchunk
    rw [mem_singleton.1 hchunk]
    exact isChunk_trimChatboxChunk (valid_of_blanks hvalid hblanks) hne hhead hlength
  | @atSpace blanks part rest c chunks hblanks hne hhead hlength hc h ih =>
    have hascii := toNat_lt_of_chatboxAsciiSpace hc
    have hcut : ∀ d ∈ (c :: rest).head?, isContinuation d = false := by
      rintro d hd
      obtain rfl := some.inj hd
      exact not_isContinuation_of_lt hascii
    obtain ⟨hpart, hrest⟩ := (valid_of_blanks hvalid hblanks).of_append hcut
    rw [forall_mem_cons]
    exact ⟨isChunk_trimChatboxChunk hpart hne hhead hlength, ih (hrest.of_cons hascii)⟩
  | hard hblanks hne hpart hlength hrest hword h ih =>
    obtain ⟨hvalid', hvalid''⟩ := (valid_of_blanks hvalid hblanks).of_append hrest
    rw [forall_mem_cons]
    refine ⟨isChunk_trimChatboxChunk hvalid' hne (fun c hc => ?_) hlength, ih hvalid''⟩
    exact hpart c (mem_of_mem_head? hc)

theorem nonSpace_append (a b : List UInt8) : nonSpace (a ++ b) = nonSpace a ++ nonSpace b :=
  filter_append ..

theorem nonSpace_of_blanks (h : ∀ c ∈ blanks, chatboxAsciiSpace c = true) : nonSpace blanks = [] :=
  filter_eq_nil_of_blanks h

theorem nonSpace_cons_of_space {c : UInt8} (hc : chatboxAsciiSpace c = true) :
    nonSpace (c :: text) = nonSpace text :=
  filter_cons_of_neg (by simp [hc])

theorem nonSpace_trimChatboxChunk (part : List UInt8) :
    nonSpace (trimChatboxChunk part) = nonSpace part :=
  filter_trim part

theorem Splits.nonSpace_flatten (h : Splits byteLimit text chunks) :
    nonSpace chunks.flatten = nonSpace text := by
  induction h with
  | blank hblanks => rw [nonSpace_of_blanks hblanks]; rfl
  | last hblanks hne hhead hlength =>
    rw [flatten_singleton, nonSpace_append, nonSpace_of_blanks hblanks,
      nonSpace_trimChatboxChunk, nil_append]
  | @atSpace blanks part rest c chunks hblanks hne hhead hlength hc h ih =>
    rw [flatten_cons, nonSpace_append, nonSpace_append, nonSpace_append,
      nonSpace_of_blanks hblanks, nonSpace_trimChatboxChunk, ih, nonSpace_cons_of_space hc,
      nil_append]
  | hard hblanks hne hpart hlength hrest hword h ih =>
    rw [flatten_cons, nonSpace_append, nonSpace_append, nonSpace_append,
      nonSpace_of_blanks hblanks, nonSpace_trimChatboxChunk, ih, nil_append]

end Chunks

/-! ## Words -/

section Words

variable {byteLimit : ℕ} {blanks rest before word after : List UInt8} {first : List UInt8}

theorem IsRun.head? (h : IsRun before word after) (after' : List UInt8) :
    ∃ c, c ∈ word ∧ (word ++ after').head? = some c := by
  cases hword : word with
  | nil => exact absurd hword h.ne_nil
  | cons c word => exact ⟨c, mem_cons_self, rfl⟩

/-- A word does not begin in the whitespace. -/
theorem IsRun.skip_blanks (h : IsRun before word after)
    (hblanks : ∀ c ∈ blanks, chatboxAsciiSpace c = true)
    (heq : blanks ++ rest = before ++ (word ++ after)) :
    ∃ before', before = blanks ++ before' ∧ rest = before' ++ (word ++ after) := by
  rcases append_eq_append_iff.1 heq with ⟨gap, hgap, hrest⟩ | ⟨gap, hgap, hrest⟩
  · exact ⟨gap, hgap, hrest⟩
  · cases gap with
    | nil =>
      rw [append_nil] at hgap
      exact ⟨[], hgap ▸ (append_nil _).symm, hrest.symm⟩
    | cons d gap =>
      obtain ⟨c, hc, hhead⟩ := h.head? after
      rw [hrest] at hhead
      obtain rfl := some.inj hhead
      have hspace := hblanks d (hgap ▸ mem_append_right _ mem_cons_self)
      rw [h.not_space d hc] at hspace
      cases hspace

/-- A word does not go on over a whitespace: it is before it, or after it. -/
theorem IsRun.cut_at_space (h : IsRun before word after) {c : UInt8}
    (hc : chatboxAsciiSpace c = true) (heq : part ++ c :: rest = before ++ (word ++ after)) :
    (∃ after', part = before ++ (word ++ after')) ∨
      ∃ before', before = part ++ c :: before' ∧ rest = before' ++ (word ++ after) := by
  have hmem : c ∉ word := by
    intro hmem
    rw [h.not_space c hmem] at hc
    cases hc
  rcases append_eq_append_iff.1 heq with ⟨gap, hgap, hrest⟩ | ⟨gap, hgap, hrest⟩
  · right
    cases gap with
    | nil =>
      obtain ⟨d, hd, hhead⟩ := h.head? after
      rw [nil_append] at hrest
      rw [← hrest] at hhead
      obtain rfl := some.inj hhead
      exact absurd hd hmem
    | cons d gap =>
      obtain ⟨rfl, hrest'⟩ := cons.inj hrest
      exact ⟨gap, hgap, hrest'⟩
  · left
    rcases append_eq_append_iff.1 hrest with ⟨gap', hgap', -⟩ | ⟨gap', hword, hrest'⟩
    · exact ⟨gap', hgap' ▸ hgap⟩
    · cases gap' with
      | nil =>
        rw [append_nil] at hword
        exact ⟨[], by rw [append_nil, hword, hgap]⟩
      | cons d gap' =>
        obtain ⟨rfl, -⟩ := cons.inj hrest'
        exact absurd (hword ▸ mem_append_right gap mem_cons_self) hmem

theorem IsRun.of_append (h : IsRun (first ++ before) word after) : IsRun before word after := by
  refine ⟨h.ne_nil, h.not_space, fun c hc => h.before c ?_, h.after⟩
  rw [getLast?_append, hc]
  rfl

/-- A word in a part is in its chunk. -/
theorem IsRun.trimChatboxChunk (h : IsRun before word after) {last : List UInt8}
    (hhead : ∀ c ∈ (first ++ (word ++ last)).head?, chatboxAsciiSpace c = false) :
    trimChatboxChunk (first ++ (word ++ last)) =
      first ++ word ++ last.rdropWhile chatboxAsciiSpace := by
  rw [Captions.trimChatboxChunk, dropWhile_of_head? hhead, ← append_assoc]
  refine rdropWhile_append ?_ last
  rw [getLast?_append_of_ne_nil _ h.ne_nil]
  exact fun c hc => h.not_space c (mem_of_getLast? hc)

/-- The word at the beginning of a text. -/
theorem takeWhile_word (hword : ∀ c ∈ word, chatboxAsciiSpace c = false)
    (hafter : ∀ c ∈ after.head?, chatboxAsciiSpace c = true) :
    ((word ++ after).takeWhile fun c => !chatboxAsciiSpace c) = word :=
  (Text.split_append (fun c hc => by simp [hword c hc])
    (Text.takeWhile_of_head? fun c hc => by simp [hafter c hc])).1

/-- The word is in one of the chunks, at its place: as many bytes are before it as in the text,
whitespace apart. -/
def InOneChunk (chunks : List (List UInt8)) (before word : List UInt8) : Prop :=
  ∃ pre chunk post first last, chunks = pre ++ chunk :: post ∧ chunk = first ++ word ++ last ∧
    nonSpace (pre.flatten ++ first) = nonSpace before

theorem inOneChunk_first {chunk last : List UInt8} (hchunk : chunk = first ++ word ++ last)
    (hfirst : nonSpace first = nonSpace before) (chunks : List (List UInt8)) :
    InOneChunk (chunk :: chunks) before word :=
  ⟨[], chunk, chunks, first, last, rfl, hchunk, hfirst⟩

variable {chunks : List (List UInt8)}

theorem InOneChunk.later {chunk before' : List UInt8} (h : InOneChunk chunks before word)
    (hbefore : nonSpace before' = nonSpace chunk ++ nonSpace before) :
    InOneChunk (chunk :: chunks) before' word := by
  obtain ⟨pre, chunk', post, first, last, rfl, hchunk', hfirst⟩ := h
  refine ⟨chunk :: pre, chunk', post, first, last, rfl, hchunk', ?_⟩
  rw [hbefore, ← hfirst, flatten_cons, append_assoc, nonSpace_append]

theorem nonSpace_blanks_append (hblanks : ∀ c ∈ blanks, chatboxAsciiSpace c = true) :
    nonSpace (blanks ++ text) = nonSpace text := by
  rw [nonSpace_append, nonSpace_of_blanks hblanks, nil_append]

/-- A word within the limit is not divided. -/
theorem Splits.run (h : Splits byteLimit text chunks)
    (hrun : IsRun before word after) (htext : text = before ++ (word ++ after))
    (hlength : word.length ≤ byteLimit) : InOneChunk chunks before word := by
  induction h generalizing before with
  | blank hblanks =>
    obtain ⟨c, hc, -⟩ := hrun.head? after
    have hspace := hblanks c (htext ▸ by simp [hc])
    rw [hrun.not_space c hc] at hspace
    cases hspace
  | last hblanks hne hhead hle =>
    obtain ⟨before', rfl, rfl⟩ := hrun.skip_blanks hblanks htext
    exact inOneChunk_first (hrun.trimChatboxChunk hhead) (nonSpace_blanks_append hblanks).symm _
  | @atSpace blanks part rest c chunks hblanks hne hhead hle hc h ih =>
    obtain ⟨before', rfl, heq⟩ := hrun.skip_blanks hblanks htext
    rcases hrun.of_append.cut_at_space hc heq with ⟨after', rfl⟩ | ⟨before'', rfl, rfl⟩
    · exact inOneChunk_first (hrun.trimChatboxChunk hhead) (nonSpace_blanks_append hblanks).symm _
    · have hrun' : IsRun ((part ++ [c]) ++ before'') word after := by
        rw [append_assoc]
        exact hrun.of_append
      refine (ih hrun'.of_append rfl).later ?_
      rw [nonSpace_blanks_append hblanks, nonSpace_append, nonSpace_cons_of_space hc,
        nonSpace_trimChatboxChunk]
  | @hard blanks part rest chunks hblanks hne hpart hle hrest hword h ih =>
    obtain ⟨before', rfl, heq⟩ := hrun.skip_blanks hblanks htext
    rcases append_eq_append_iff.1 heq with ⟨gap, rfl, rfl⟩ | ⟨gap, rfl, hgap⟩
    · refine (ih hrun.of_append.of_append rfl).later ?_
      rw [nonSpace_blanks_append hblanks, nonSpace_append, nonSpace_trimChatboxChunk]
    · -- The part has no whitespace that the word could begin after.
      obtain rfl : before' = [] := by
        by_contra hne'
        have hlast := getLast?_eq_some_getLast hne'
        have hspace := hrun.of_append.before _ hlast
        rw [hpart _ (mem_append_left gap (getLast_mem hne'))] at hspace
        cases hspace
      have hwhole := takeWhile_word hrun.not_space hrun.after
      rw [nil_append] at hpart hword ⊢
      rw [hgap] at hwhole
      rcases hword with hspace | hexceeds
      · rw [takeWhile_word hpart hspace] at hwhole
        subst hwhole
        have hhead : ∀ c ∈ ([] ++ (gap ++ [])).head?, chatboxAsciiSpace c = false := by
          rw [nil_append, append_nil]
          exact fun c hc => hpart c (mem_of_mem_head? hc)
        have htrim := hrun.trimChatboxChunk hhead
        rw [nil_append, append_nil] at htrim
        exact inOneChunk_first htrim (nonSpace_blanks_append hblanks).symm _
      · rw [hwhole] at hexceeds
        omega

end Words

/-- What the chunks of a text should be: valid and trimmed and within the limit, with all of the
text but whitespace in order, and with no word divided that is within the limit. -/
structure ChunksOf (byteLimit : ℕ) (text : List UInt8) (chunks : List (List UInt8)) : Prop where
  isChunk : ∀ chunk ∈ chunks, IsChunk byteLimit chunk
  nonSpace : nonSpace chunks.flatten = nonSpace text
  undivided : ∀ before word after, text = before ++ (word ++ after) → IsRun before word after →
    word.length ≤ byteLimit → InOneChunk chunks before word

/-- The chunks of a valid text. -/
theorem chunksOf_splitTextForChatbox (text : List UInt8) (byteLimit : ℕ) (hvalid : Valid text)
    (hlimit : 4 ≤ byteLimit) : ChunksOf byteLimit text (splitTextForChatbox text byteLimit) := by
  have hsplits : Splits byteLimit text (splitTextForChatbox text byteLimit) := by
    rw [splitTextForChatbox, if_neg (by omega)]
    exact splits_splitLoop hlimit text hvalid
  refine ⟨hsplits.isChunk hvalid, hsplits.nonSpace_flatten, ?_⟩
  intro before word after htext hrun hlength
  exact hsplits.run hrun htext hlength

/-- The chunks of `a éb c`. -/
theorem chunksOf_splitTextForChatbox_short :
    Valid [97, 32, 195, 169, 98, 32, 99] ∧
      ChunksOf 4 [97, 32, 195, 169, 98, 32, 99]
        (splitTextForChatbox [97, 32, 195, 169, 98, 32, 99] 4) := by
  have hvalid : Valid [97, 32, 195, 169, 98, 32, 99] := ⟨['a', ' ', 'é', 'b', ' ', 'c'], by decide⟩
  exact ⟨hvalid, chunksOf_splitTextForChatbox _ 4 hvalid (by decide)⟩

end WKOpenVR.Captions
