import Mathlib.Data.List.Infix
import Mathlib.Data.List.Nodup

/-!
# First occurrences

The first occurrence of a key in a text splits the text (`splitFirst`). In a text of several
lines, a key that has no line break in it is found in the first line that has it
(`splitFirst_append_cons`).

The elements of a list in the order of their first occurrence are `distinct`. If some elements
of a list are dropped, what is left has the same distinct elements, in the same order, exactly
if after each dropped element that is new the next new one that is left is the same
(`distinct_left_iff`).
-/

namespace WKOpenVR.Search

open List

variable {α : Type*} [DecidableEq α]

/-! ## The first occurrence of a key -/

/-- What is before and after the first occurrence of the key. -/
def splitFirst (key : List α) : List α → Option (List α × List α)
  | [] => if key = [] then some ([], []) else none
  | c :: text =>
    if key.isPrefixOf (c :: text) then some ([], (c :: text).drop key.length)
    else (splitFirst key text).map fun r => (c :: r.1, r.2)

/-- What is before each occurrence of the key. -/
def cuts (key : List α) : List α → List (List α)
  | [] => if key = [] then [[]] else []
  | c :: text => (if key.isPrefixOf (c :: text) then [[]] else []) ++ (cuts key text).map (c :: ·)

/-- The key occurs at most once. -/
def Once (key text : List α) : Prop :=
  ∀ u v u' v', text = u ++ (key ++ v) → text = u' ++ (key ++ v') → u = u'

section Key

variable {key text before after : List α}

omit [DecidableEq α] in
theorem Once.right {u : List α} (h : Once key (u ++ text)) : Once key text := by
  intro v w v' w' hv hv'
  have heq := h (u ++ v) w (u ++ v') w' (by rw [hv, append_assoc])
    (by rw [hv', append_assoc])
  exact append_cancel_left heq

theorem splitFirst_of_append (hkey : key ≠ []) (after : List α) :
    splitFirst key (key ++ after) = some ([], after) := by
  obtain ⟨c, key, rfl⟩ := exists_cons_of_ne_nil hkey
  have hpre : (c :: key).isPrefixOf (c :: (key ++ after)) = true :=
    isPrefixOf_iff_prefix.2 (prefix_append (c :: key) after)
  rw [cons_append, splitFirst, if_pos hpre]
  simp

theorem splitFirst_cons_of_not_begins {c : α} (h : ¬key <+: c :: text) :
    splitFirst key (c :: text) = (splitFirst key text).map fun r => (c :: r.1, r.2) := by
  rw [splitFirst, if_neg (mt isPrefixOf_iff_prefix.1 h)]

/-- The text is put together again, and the key does not begin before its first occurrence. -/
theorem splitFirst_spec (h : splitFirst key text = some (before, after)) :
    text = before ++ (key ++ after) ∧
      ∀ before' after', text = before' ++ (key ++ after') → before.length ≤ before'.length := by
  induction text generalizing before with
  | nil =>
    rw [splitFirst] at h
    split_ifs at h with hkey
    obtain ⟨rfl, rfl⟩ : [] = before ∧ [] = after := by simpa using h
    exact ⟨by rw [hkey]; rfl, fun _ _ _ => Nat.zero_le _⟩
  | cons c text ih =>
    rw [splitFirst] at h
    split_ifs at h with hpre
    · obtain ⟨rfl, rfl⟩ : [] = before ∧ (c :: text).drop key.length = after := by simpa using h
      refine ⟨?_, fun _ _ _ => Nat.zero_le _⟩
      exact (prefix_iff_eq_append.1 <| isPrefixOf_iff_prefix.1 hpre).symm
    · obtain ⟨⟨before₁, after₁⟩, hsplit, heq₁⟩ := Option.map_eq_some_iff.1 h
      obtain ⟨rfl, rfl⟩ : c :: before₁ = before ∧ after₁ = after := by simpa using heq₁
      obtain ⟨htext, hle⟩ := ih hsplit
      refine ⟨congrArg (c :: ·) htext, fun before' after' heq => ?_⟩
      cases before' with
      | nil => exact (hpre <| isPrefixOf_iff_prefix.2 ⟨after', heq.symm⟩).elim
      | cons d before' => exact Nat.succ_le_succ (hle before' after' (cons.inj heq).2)

theorem eq_of_splitFirst (h : splitFirst key text = some (before, after)) :
    text = before ++ (key ++ after) :=
  (splitFirst_spec h).1

theorem splitFirst_eq_none_iff (hkey : key ≠ []) : splitFirst key text = none ↔ ¬key <:+: text := by
  induction text with
  | nil => simp [splitFirst, hkey]
  | cons c text ih =>
    rw [splitFirst, infix_cons_iff]
    split_ifs with hpre
    · have hfront := isPrefixOf_iff_prefix.1 hpre
      simp [hfront]
    · rw [Option.map_eq_none_iff, ih]
      simp [mt isPrefixOf_iff_prefix.2 hpre]

/-- A key without the character `b` is found before `b`, or after it. -/
theorem splitFirst_append_cons {b : α} (hkey : key ≠ []) (hb : b ∉ key) (line rest : List α) :
    splitFirst key (line ++ b :: rest) =
      match splitFirst key line with
      | some r => some (r.1, r.2 ++ b :: rest)
      | none => (splitFirst key rest).map fun r => (line ++ b :: r.1, r.2) := by
  -- A key that begins in the line ends in it.
  have hbegin {l : List α} (h : key <+: l ++ b :: rest) : key <+: l := by
    obtain ⟨t, ht⟩ := h
    rcases append_eq_append_iff.1 ht with ⟨u, hl, -⟩ | ⟨u, hkeyeq, hrest⟩
    · exact ⟨u, hl.symm⟩
    · cases u with
      | nil => exact ⟨[], by rw [append_nil, hkeyeq, append_nil]⟩
      | cons d u =>
        obtain rfl : b = d := (cons.inj hrest).1
        exact absurd (hkeyeq ▸ mem_append_right _ mem_cons_self) hb
  induction line with
  | nil =>
    have hnot : ¬key <+: b :: rest := fun h => hkey (prefix_nil.1 (@hbegin [] h))
    rw [nil_append, splitFirst_cons_of_not_begins hnot]
    simp [splitFirst, hkey]
  | cons c line ih =>
    by_cases hpre : key <+: c :: line
    · obtain ⟨t, ht⟩ := hpre
      rw [← ht, append_assoc, splitFirst_of_append hkey, splitFirst_of_append hkey]
    · have hnot : ¬key <+: c :: (line ++ b :: rest) := fun h => hpre (@hbegin (c :: line) h)
      rw [cons_append, splitFirst_cons_of_not_begins hnot, splitFirst_cons_of_not_begins hpre, ih]
      cases splitFirst key line with
      | some r => rfl
      | none =>
        rw [Option.map_map]
        rfl

theorem mem_cuts_iff {u : List α} : u ∈ cuts key text ↔ u ++ key <+: text := by
  induction text generalizing u with
  | nil =>
    rw [cuts, prefix_nil, append_eq_nil_iff]
    split_ifs with hkey
    · simp [hkey]
    · simp [hkey]
  | cons c text ih =>
    rw [cuts, mem_append, mem_map]
    constructor
    · rintro (hu | ⟨u, hu, rfl⟩)
      · split_ifs at hu with hpre
        · obtain rfl := mem_singleton.1 hu
          exact isPrefixOf_iff_prefix.1 hpre
        · cases hu
      · exact cons_prefix_cons.2 ⟨rfl, ih.1 hu⟩
    · intro hu
      cases u with
      | nil =>
        rw [nil_append] at hu
        left
        rw [if_pos <| isPrefixOf_iff_prefix.2 hu]
        exact mem_singleton_self _
      | cons d u =>
        rw [cons_append, cons_prefix_cons] at hu
        exact .inr ⟨u, ih.2 hu.2, by rw [hu.1]⟩

theorem once_iff : Once key text ↔ ∀ u ∈ cuts key text, ∀ u' ∈ cuts key text, u = u' := by
  constructor
  · intro h u hu u' hu'
    obtain ⟨v, hv⟩ := mem_cuts_iff.1 hu
    obtain ⟨v', hv'⟩ := mem_cuts_iff.1 hu'
    exact h u v u' v' (by rw [← hv, append_assoc]) (by rw [← hv', append_assoc])
  · intro h u v u' v' hu hu'
    refine h u (mem_cuts_iff.2 ⟨v, ?_⟩) u' (mem_cuts_iff.2 ⟨v', ?_⟩)
    · rw [hu, append_assoc]
    · rw [hu', append_assoc]

instance : Decidable (Once key text) :=
  decidable_of_iff (∀ u ∈ cuts key text, ∀ u' ∈ cuts key text, u = u') once_iff.symm

theorem nodup_cuts (key text : List α) : (cuts key text).Nodup := by
  induction text with
  | nil =>
    rw [cuts]
    split_ifs <;> simp
  | cons c text ih =>
    rw [cuts, nodup_append]
    refine ⟨by split_ifs <;> simp, ih.map cons_injective, ?_⟩
    intro u hu v hv
    obtain ⟨v, -, rfl⟩ := mem_map.1 hv
    split_ifs at hu
    · obtain rfl := mem_singleton.1 hu
      simp
    · cases hu

/-- Where the key occurs at most once, the first occurrence is the only one. -/
theorem cuts_eq_of_once (hkey : key ≠ []) (h : Once key text) :
    cuts key text = ((splitFirst key text).map Prod.fst).toList := by
  cases hsplit : splitFirst key text with
  | none =>
    rw [splitFirst_eq_none_iff hkey] at hsplit
    refine eq_nil_iff_forall_not_mem.2 fun u hu => hsplit ?_
    obtain ⟨v, hv⟩ := mem_cuts_iff.1 hu
    exact ⟨u, v, hv⟩
  | some r =>
    obtain ⟨before, after⟩ := r
    have htext := eq_of_splitFirst hsplit
    have hmem : before ∈ cuts key text :=
      mem_cuts_iff.2 ⟨after, by rw [htext, append_assoc]⟩
    have hall : ∀ u ∈ cuts key text, u = before := fun u hu => once_iff.1 h u hu before hmem
    have hperm : (cuts key text).Perm [before] :=
      (perm_ext_iff_of_nodup (nodup_cuts key text) (nodup_singleton before)).2 fun u =>
        ⟨fun hu => mem_singleton.2 (hall u hu), fun hu => mem_singleton.1 hu ▸ hmem⟩
    exact perm_singleton.1 hperm

end Key

/-! ## Distinct elements -/

/-- The elements that are not in `seen`, in the order of their first occurrence. -/
def distinct (seen : List α) : List α → List α
  | [] => []
  | a :: as => if a ∈ seen then distinct seen as else a :: distinct (a :: seen) as

/-- What is left of a list whose elements are marked. -/
def left (marks : List (α × Bool)) : List α := (marks.filter Prod.snd).map Prod.fst

/-- After each dropped element that is new, the next new one that is left is the same. An element
    is new if it is neither in `seen` nor before. -/
def Kept (seen : List α) (marks : List (α × Bool)) : Prop :=
  ∀ before a after, marks = before ++ (a, false) :: after → a ∉ seen ++ before.map Prod.fst →
    ∃ pre post, after = pre ++ (a, true) :: post ∧
      ∀ b, (b, true) ∈ pre → b ∈ seen ++ before.map Prod.fst

section Distinct

variable {seen seen' : List α} {a : α} {as : List α}

theorem distinct_congr (h : ∀ b, b ∈ seen ↔ b ∈ seen') (as : List α) :
    distinct seen as = distinct seen' as := by
  induction as generalizing seen seen' with
  | nil => rfl
  | cons a as ih =>
    have hcons : ∀ b, b ∈ a :: seen ↔ b ∈ a :: seen' := by
      intro b
      rw [mem_cons, mem_cons, h b]
    rw [distinct, distinct, ih h, ih hcons]
    simp only [h a]

theorem mem_distinct_iff {b : α} : b ∈ distinct seen as ↔ b ∈ as ∧ b ∉ seen := by
  induction as generalizing seen with
  | nil => simp [distinct]
  | cons a as ih =>
    rw [distinct]
    split_ifs with ha
    · rw [ih, mem_cons]
      constructor
      · exact fun h => ⟨.inr h.1, h.2⟩
      · rintro ⟨rfl | h, hb⟩
        · exact absurd ha hb
        · exact ⟨h, hb⟩
    · rw [mem_cons, ih, mem_cons, mem_cons]
      by_cases hba : b = a
      · subst hba
        simp [ha]
      · simp [hba]

/-- The first element of a list of distinct elements is the first one that is new. -/
theorem distinct_eq_cons_iff {bs : List α} :
    distinct seen as = a :: bs ↔
      (∃ pre post, as = pre ++ a :: post ∧ (∀ b ∈ pre, b ∈ seen)) ∧ a ∉ seen ∧
        bs = distinct (a :: seen) as := by
  induction as with
  | nil => simp [distinct]
  | cons c as ih =>
    rw [distinct]
    -- An element already seen is skipped; the first other one is the head.
    split_ifs with hc
    · rw [ih, distinct, if_pos (mem_cons_of_mem _ hc)]
      refine and_congr_left fun hbs => ?_
      have ha := hbs.1
      constructor
      · rintro ⟨pre, post, rfl, hpre⟩
        exact ⟨c :: pre, post, rfl, forall_mem_cons.2 ⟨hc, hpre⟩⟩
      · rintro ⟨pre, post, heq, hpre⟩
        cases pre with
        | nil =>
          obtain rfl : c = a := (cons.inj heq).1
          exact absurd hc ha
        | cons d pre =>
          exact ⟨pre, post, (cons.inj heq).2, fun b hb => hpre b (mem_cons_of_mem _ hb)⟩
    · rw [cons.injEq]
      constructor
      · rintro ⟨rfl, rfl⟩
        refine ⟨⟨[], as, rfl, by simp⟩, hc, ?_⟩
        rw [distinct, if_pos mem_cons_self]
      · rintro ⟨⟨pre, post, heq, hpre⟩, ha, rfl⟩
        cases pre with
        | nil =>
          obtain rfl : c = a := (cons.inj heq).1
          rw [distinct, if_pos mem_cons_self]
          exact ⟨rfl, rfl⟩
        | cons d pre =>
          obtain rfl : c = d := (cons.inj heq).1
          exact absurd (hpre c mem_cons_self) hc

variable {marks : List (α × Bool)} {m : Bool}

omit [DecidableEq α] in
theorem kept_congr (h : ∀ b, b ∈ seen ↔ b ∈ seen') : Kept seen marks ↔ Kept seen' marks := by
  simp only [Kept, mem_append, h]

/-- The next new element that is left is `a`. -/
def Next (seen : List α) (a : α) (marks : List (α × Bool)) : Prop :=
  ∃ pre post, marks = pre ++ (a, true) :: post ∧ ∀ b, (b, true) ∈ pre → b ∈ seen

omit [DecidableEq α] in
/-- The condition at the first element, and at the others. -/
theorem kept_cons_iff :
    Kept seen ((a, m) :: marks) ↔
      (m = false → a ∉ seen → Next seen a marks) ∧ Kept (seen ++ [a]) marks := by
  constructor
  · intro h
    constructor
    · rintro rfl ha
      obtain ⟨pre, post, hmarks, hpre⟩ := h [] a marks rfl (by simpa using ha)
      exact ⟨pre, post, hmarks, by simpa using hpre⟩
    · intro before b after hmarks hb
      obtain ⟨pre, post, hafter, hpre⟩ := h ((a, m) :: before) b after (by rw [hmarks]; rfl)
        (by simpa using hb)
      exact ⟨pre, post, hafter, by simpa using hpre⟩
  · rintro ⟨hfirst, hrest⟩ before b after hmarks hb
    cases before with
    | nil =>
      obtain ⟨⟨rfl, rfl⟩, rfl⟩ : (a = b ∧ m = false) ∧ marks = after := by simpa using hmarks
      obtain ⟨pre, post, hafter, hpre⟩ := hfirst rfl (by simpa using hb)
      exact ⟨pre, post, hafter, by simpa using hpre⟩
    | cons p before =>
      obtain ⟨rfl, rfl⟩ : (a, m) = p ∧ marks = before ++ (b, false) :: after := by
        simpa using hmarks
      obtain ⟨pre, post, hafter, hpre⟩ := hrest before b after rfl (by simpa using hb)
      exact ⟨pre, post, hafter, by simpa using hpre⟩

omit [DecidableEq α] in
theorem left_append (ms marks : List (α × Bool)) : left (ms ++ marks) = left ms ++ left marks := by
  rw [left, filter_append, map_append]
  rfl

omit [DecidableEq α] in
/-- Elements with the same mark are left together. -/
theorem left_map (as : List α) (m : Bool) :
    left (as.map fun a => (a, m)) = if m then as else [] := by
  induction as with
  | nil => cases m <;> rfl
  | cons a as ih =>
    cases m with
    | true => exact congrArg (a :: ·) ih
    | false => exact ih

omit [DecidableEq α] in
/-- The elements that are left are split where the marked ones are. -/
theorem exists_left_eq_iff :
    (∃ pre post, left marks = pre ++ a :: post ∧ ∀ b ∈ pre, b ∈ seen) ↔ Next seen a marks := by
  constructor
  · rintro ⟨pre, post, hleft, hpre⟩
    obtain ⟨pre', rest, hfilter, rfl, hrest⟩ := map_eq_append_iff.1 hleft
    obtain ⟨p, post', rfl, rfl, -⟩ := map_eq_cons_iff.1 hrest
    obtain ⟨before, after, rfl, hbefore, hafter⟩ := filter_eq_append_iff.1 hfilter
    obtain ⟨skipped, after', rfl, hskipped, hp, -⟩ := filter_eq_cons_iff.1 hafter
    obtain ⟨b, m⟩ := p
    obtain rfl : m = true := hp
    refine ⟨before ++ skipped, after', by rw [append_assoc], ?_⟩
    intro c hc
    rcases mem_append.1 hc with hc | hc
    · refine hpre c (mem_map.2 ⟨(c, true), ?_, rfl⟩)
      rw [← hbefore]
      exact mem_filter.2 ⟨hc, rfl⟩
    · exact absurd rfl (hskipped (c, true) hc)
  · rintro ⟨pre, post, rfl, hpre⟩
    refine ⟨left pre, left post, ?_, ?_⟩
    · exact left_append pre ((a, true) :: post)
    · intro b hb
      obtain ⟨⟨b, m⟩, hmem, rfl⟩ := mem_map.1 hb
      obtain ⟨hmem, rfl⟩ : (b, m) ∈ pre ∧ m = true := mem_filter.1 hmem
      exact hpre b hmem

/-- What is left has the same distinct elements exactly if the new ones are kept. -/
theorem distinct_left_iff :
    distinct seen (left marks) = distinct seen (marks.map Prod.fst) ↔ Kept seen marks := by
  induction marks generalizing seen with
  | nil =>
    refine ⟨fun _ before a after h => ?_, fun _ => rfl⟩
    exact absurd h.symm (by simp)
  | cons p marks ih =>
    obtain ⟨a, m⟩ := p
    have hsnoc : ∀ b, b ∈ a :: seen ↔ b ∈ seen ++ [a] := by simp [or_comm]
    rw [kept_cons_iff, map_cons]
    by_cases ha : a ∈ seen
    · -- Nothing changes at an element that is not new.
      have hsame : ∀ b, b ∈ seen ↔ b ∈ seen ++ [a] := by
        intro b
        rw [mem_append, mem_singleton]
        exact ⟨.inl, fun h => h.elim id fun h => h ▸ ha⟩
      have hleft : distinct seen (left ((a, m) :: marks)) = distinct seen (left marks) := by
        cases m with
        | true => simp [left, distinct, ha]
        | false => simp [left]
      rw [hleft, distinct, if_pos ha, ih, kept_congr hsame]
      simp [ha]
    · cases m with
      | true =>
        have hleft : left ((a, true) :: marks) = a :: left marks := by simp [left]
        rw [hleft, distinct, distinct, if_neg ha, if_neg ha, cons.injEq, ih, kept_congr hsnoc]
        simp
      | false =>
        have hleft : left ((a, false) :: marks) = left marks := by simp [left]
        rw [hleft, distinct, if_neg ha, distinct_eq_cons_iff, exists_left_eq_iff,
          ← kept_congr hsnoc,
          ← ih]
        constructor
        · rintro ⟨hnext, -, heq⟩
          exact ⟨fun _ _ => hnext, heq.symm⟩
        · rintro ⟨hnext, heq⟩
          exact ⟨hnext rfl ha, ha, heq.symm⟩

end Distinct

end WKOpenVR.Search
