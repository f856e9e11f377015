import Mathlib.Data.List.DropRight

/-!
# Erasing brackets

Texts over any alphabet, with an opening and a closing bracket. A scan looks for an opening bracket
and the first closing one after it, and goes on after that; some of the brackets it finds are erased
with what is between them (`erase`), depending on that. Brackets do not nest: an opening bracket
between the two is a character as any other.

Every text is scanned in steps, which gives an induction (`scan_induction`). What is left by the
scan is left by another one (`erase_erase`). But it may have brackets to be erased that no scan
finds (`HasMarker`): those that open within a pair that is kept (`Hides`). There are such
brackets afterwards if and only if there were before (`hasMarker_erase_iff`).
-/

namespace WKOpenVR.Brackets

open List

variable {α : Type*} (o c : α) (known : List α → Bool)

section Scan

variable [DecidableEq α] {d : α}

theorem length_after_lt {text rest after : List α} {e : α}
    (hrest : text.dropWhile (· != o) = d :: rest) (hafter : rest.dropWhile (· != c) = e :: after) :
    after.length < text.length := by
  have htext := (@List.dropWhile_suffix _ text (· != o)).length_le
  have hlength := (@List.dropWhile_suffix _ rest (· != c)).length_le
  rw [hrest, length_cons] at htext
  rw [hafter, length_cons] at hlength
  omega

/-- The text without the brackets that the scan finds, if what is between them is known. -/
def erase (text : List α) : List α :=
  match _hrest : text.dropWhile (· != o) with
  | [] => text
  | _ :: rest =>
    match _hafter : rest.dropWhile (· != c) with
    | [] => text
    | _ :: after =>
      let marker := rest.takeWhile (· != c)
      text.takeWhile (· != o) ++
        ((if known marker then [] else o :: (marker ++ [c])) ++ erase after)
termination_by text.length
decreasing_by exact length_after_lt o c _hrest _hafter

variable {o c known} {y m q : List α}

theorem takeWhile_dropWhile_of_notMem (hy : d ∉ y) (q : List α) :
    (y ++ d :: q).takeWhile (· != d) = y ∧ (y ++ d :: q).dropWhile (· != d) = d :: q := by
  have hall : ∀ e ∈ y, (e != d) = true := fun e he => bne_iff_ne.2 (ne_of_mem_of_not_mem he hy)
  constructor
  · rw [takeWhile_append_of_pos hall, takeWhile_cons_of_neg (by simp), append_nil]
  · rw [dropWhile_append_of_pos hall, dropWhile_cons_of_neg (by simp)]

theorem dropWhile_of_notMem (hy : d ∉ y) : y.dropWhile (· != d) = [] :=
  dropWhile_eq_nil_iff.2 fun _ he => bne_iff_ne.2 (ne_of_mem_of_not_mem he hy)

theorem erase_of_notMem (hy : o ∉ y) : erase o c known y = y := by
  rw [erase]
  split
  · rfl
  · next hrest => rw [dropWhile_of_notMem hy] at hrest; cases hrest

theorem erase_unclosed (hy : o ∉ y) (hm : c ∉ m) : erase o c known (y ++ o :: m) = y ++ o :: m := by
  rw [erase]
  split
  · rfl
  · next hrest =>
    rw [(takeWhile_dropWhile_of_notMem hy m).2] at hrest
    cases hrest
    split
    · rfl
    · next hafter => rw [dropWhile_of_notMem hm] at hafter; cases hafter

theorem erase_closed (hy : o ∉ y) (hm : c ∉ m) (q : List α) :
    erase o c known (y ++ o :: (m ++ c :: q)) =
      y ++ ((if known m then [] else o :: (m ++ [c])) ++ erase o c known q) := by
  obtain ⟨htake, hdrop⟩ := takeWhile_dropWhile_of_notMem hy (m ++ c :: q)
  obtain ⟨htake', hdrop'⟩ := takeWhile_dropWhile_of_notMem hm q
  rw [erase]
  split
  · next hrest => rw [hdrop] at hrest; cases hrest
  · next hrest =>
    rw [hdrop] at hrest
    cases hrest
    split
    · next hafter => rw [hdrop'] at hafter; cases hafter
    · next hafter =>
      rw [hdrop'] at hafter
      cases hafter
      rw [htake, htake']

/-- The steps of a scan: no bracket opens, or one that is not closed, or one that is. -/
@[elab_as_elim]
theorem scan_induction (o c : α) {motive : List α → Prop} (text : List α)
    (none : ∀ y, o ∉ y → motive y) (unclosed : ∀ y m, o ∉ y → c ∉ m → motive (y ++ o :: m))
    (closed : ∀ y m q, o ∉ y → c ∉ m → motive q → motive (y ++ o :: (m ++ c :: q))) :
    motive text := by
  induction hn : text.length using Nat.strongRecOn generalizing text with
  | ind n ih =>
    by_cases ho : o ∈ text
    · obtain ⟨y, rest, rfl, hy⟩ := eq_append_cons_of_mem ho
      by_cases hc : c ∈ rest
      · obtain ⟨m, q, rfl, hm⟩ := eq_append_cons_of_mem hc
        refine closed y m q hy hm (ih q.length ?_ q rfl)
        simp only [length_append, length_cons] at hn
        omega
      · exact unclosed y rest hy hc
    · exact none text ho

/-- Where no bracket opens, the scan does not stop. -/
theorem erase_append (hy : o ∉ y) (text : List α) :
    erase o c known (y ++ text) = y ++ erase o c known text := by
  have hnotMem : ∀ z, o ∉ z → o ∉ y ++ z :=
    fun z hz hmem => (mem_append.1 hmem).elim hy hz
  induction text using scan_induction o c with
  | none z hz => rw [erase_of_notMem (hnotMem z hz), erase_of_notMem hz]
  | unclosed z m hz hm =>
    rw [erase_unclosed hz hm, ← append_assoc, erase_unclosed (hnotMem z hz) hm]
  | closed z m q hz hm _ =>
    rw [erase_closed hz hm, ← append_assoc, erase_closed (hnotMem z hz) hm, append_assoc]

variable (text : List α)

/-- What is left is found again, and left again. -/
theorem erase_erase : erase o c known (erase o c known text) = erase o c known text := by
  induction text using scan_induction o c with
  | none y hy => rw [erase_of_notMem hy, erase_of_notMem hy]
  | unclosed y m hy hm => rw [erase_unclosed hy hm, erase_unclosed hy hm]
  | closed y m q hy hm ih =>
    rw [erase_closed hy hm, erase_append hy]
    congr 1
    -- A pair that was kept is the first one of the second scan.
    cases hknown : known m with
    | true => exact ih
    | false =>
      have hkept := @erase_closed _ o c known _ [] m not_mem_nil hm (erase o c known q)
      rw [hknown, ih] at hkept
      simpa using hkept

/-- Characters that are no brackets stay at the end. -/
theorem erase_append_right {blanks : List α} (ho : o ∉ blanks) (hc : c ∉ blanks) (text : List α) :
    erase o c known (text ++ blanks) = erase o c known text ++ blanks := by
  induction text using scan_induction o c with
  | none y hy =>
    rw [erase_of_notMem hy, erase_append hy, erase_of_notMem ho]
  | unclosed y m hy hm =>
    have hmem : c ∉ m ++ blanks := fun hmem => (mem_append.1 hmem).elim hm hc
    rw [erase_unclosed hy hm, append_assoc, cons_append, erase_unclosed hy hmem]
  | closed y m q hy hm ih =>
    rw [erase_closed hy hm, append_assoc, cons_append, append_assoc,
      cons_append, erase_closed hy hm, ih]
    simp only [append_assoc]

theorem length_erase_le : (erase o c known text).length ≤ text.length := by
  induction text using scan_induction o c with
  | none y hy => rw [erase_of_notMem hy]
  | unclosed y m hy hm => rw [erase_unclosed hy hm]
  | closed y m q hy hm ih =>
    rw [erase_closed hy hm]
    cases known m <;>
      simp only [length_append, length_cons, length_nil, if_true, if_false, Bool.false_eq_true] <;>
      omega

/-- In a text that is left as it is, the brackets that are found are not known. -/
theorem of_erase_closed_eq (hy : o ∉ y) (hm : c ∉ m)
    (h : erase o c known (y ++ o :: (m ++ c :: q)) = y ++ o :: (m ++ c :: q)) :
    known m = false ∧ erase o c known q = q := by
  rw [erase_closed hy hm, append_cancel_left_eq] at h
  cases hknown : known m with
  | true =>
    -- The brackets themselves would be missing.
    have hle := @length_erase_le _ o c known _ q
    rw [hknown, if_pos rfl, nil_append] at h
    rw [h, length_cons, length_append, length_cons] at hle
    omega
  | false =>
    rw [hknown, if_neg Bool.false_ne_true, cons_append, append_assoc, cons.injEq,
      append_cancel_left_eq, singleton_append, cons.injEq] at h
    exact ⟨rfl, h.2.2⟩

end Scan

/-! ## Brackets that are not found -/

variable (text : List α)

/-- There are brackets with something known between them. -/
def HasMarker : Prop :=
  ∃ before marker after, text = before ++ o :: (marker ++ c :: after) ∧ c ∉ marker ∧
    known marker = true

/-- An opening bracket hides another one, with which something known begins. -/
def Hides : Prop :=
  ∃ before between marker after, text = before ++ o :: (between ++ o :: (marker ++ c :: after)) ∧
    c ∉ between ∧ c ∉ marker ∧ known marker = true ∧ known (between ++ o :: marker) = false

variable {o c known text} {y m q : List α} {p z : List α}

/-- A character is not in the part of a text that does not have it. -/
theorem exists_of_append_cons {d : α} {rest : List α} (hy : d ∉ y)
    (h : p ++ d :: z = y ++ rest) : ∃ r, p = y ++ r ∧ rest = r ++ d :: z := by
  rcases append_eq_append_iff.1 h with ⟨a, rfl, ha⟩ | ⟨a, rfl, ha⟩
  · cases a with
    | nil => exact ⟨[], by rw [append_nil, append_nil], ha.symm⟩
    | cons e a =>
      obtain ⟨rfl, -⟩ := cons.inj ha
      exact absurd (mem_append_right p mem_cons_self) hy
  · exact ⟨a, rfl, ha⟩

/-- The first closing bracket is at one place only. -/
theorem eq_of_append_cons {n r : List α} (hm : c ∉ m) (hn : c ∉ n)
    (h : m ++ c :: q = n ++ c :: r) : m = n := by
  obtain ⟨a, rfl, ha⟩ := exists_of_append_cons hn h
  cases a with
  | nil => rw [append_nil]
  | cons d a =>
    obtain ⟨rfl, -⟩ := cons.inj ha
    exact absurd (mem_append_right n mem_cons_self) hm

/-- Where a bracket may open in a text, beside a pair that the scan finds. -/
theorem open_cases (hoc : o ≠ c) (hy : o ∉ y) (h : p ++ o :: z = y ++ o :: (m ++ c :: q)) :
    (p = y ∧ z = m ++ c :: q) ∨
      (∃ a n, m = a ++ o :: n ∧ p = y ++ o :: a ∧ z = n ++ c :: q) ∨
      ∃ r, p = y ++ o :: (m ++ c :: r) ∧ q = r ++ o :: z := by
  obtain ⟨a, rfl, ha⟩ := exists_of_append_cons hy h
  cases a with
  | nil =>
    rw [append_nil]
    exact .inl ⟨rfl, (cons.inj ha).2.symm⟩
  | cons d a =>
    obtain ⟨rfl, hinner⟩ := cons.inj ha
    right
    -- Between the two, or after them.
    rcases append_eq_append_iff.1 hinner with ⟨b, rfl, hb⟩ | ⟨b, rfl, hb⟩
    · cases b with
      | nil => exact absurd (cons.inj hb).1.symm hoc
      | cons e b =>
        obtain ⟨rfl, rfl⟩ := cons.inj hb
        exact .inr ⟨b, rfl, rfl⟩
    · cases b with
      | nil => exact absurd (cons.inj hb).1 hoc
      | cons e b =>
        obtain ⟨rfl, rfl⟩ := cons.inj hb
        exact .inl ⟨a, b, rfl, rfl, rfl⟩

theorem not_hasMarker_of_notMem (hy : o ∉ y) : ¬HasMarker o c known y := by
  rintro ⟨before, marker, after, rfl, -⟩
  exact hy (mem_append_right before mem_cons_self)

theorem not_hides_of_notMem (hy : o ∉ y) : ¬Hides o c known y := by
  rintro ⟨before, between, marker, after, rfl, -⟩
  exact hy (mem_append_right before mem_cons_self)

/-- After a bracket that is not closed, none is closed. -/
theorem notMem_of_unclosed (hy : o ∉ y) (hm : c ∉ m) (h : p ++ o :: z = y ++ o :: m) : c ∉ z := by
  intro hz
  obtain ⟨a, -, ha⟩ := exists_of_append_cons hy h
  cases a with
  | nil => exact hm ((cons.inj ha).2 ▸ hz)
  | cons d a =>
    obtain ⟨-, rfl⟩ := cons.inj ha
    exact hm (mem_append_right a (mem_cons_of_mem o hz))

theorem not_hasMarker_of_unclosed (hy : o ∉ y) (hm : c ∉ m) :
    ¬HasMarker o c known (y ++ o :: m) := by
  rintro ⟨before, marker, after, heq, -⟩
  exact notMem_of_unclosed hy hm heq.symm (mem_append_right marker mem_cons_self)

theorem not_hides_of_unclosed (hy : o ∉ y) (hm : c ∉ m) : ¬Hides o c known (y ++ o :: m) := by
  rintro ⟨before, between, marker, after, heq, -⟩
  exact notMem_of_unclosed hy hm heq.symm (mem_append_right between
    (mem_cons_of_mem o (mem_append_right marker mem_cons_self)))

theorem HasMarker.append_left (h : HasMarker o c known text) (y : List α) :
    HasMarker o c known (y ++ text) := by
  obtain ⟨before, marker, after, rfl, hmarker⟩ := h
  exact ⟨y ++ before, marker, after, (append_assoc _ _ _).symm, hmarker⟩

theorem Hides.append_left (h : Hides o c known text) (y : List α) :
    Hides o c known (y ++ text) := by
  obtain ⟨before, between, marker, after, rfl, hmarker⟩ := h
  exact ⟨y ++ before, between, marker, after, (append_assoc _ _ _).symm, hmarker⟩

theorem hasMarker_append_iff (hy : o ∉ y) (text : List α) :
    HasMarker o c known (y ++ text) ↔ HasMarker o c known text := by
  refine ⟨?_, fun h => h.append_left y⟩
  rintro ⟨before, marker, after, heq, hmarker⟩
  obtain ⟨a, -, ha⟩ := exists_of_append_cons hy heq.symm
  exact ⟨a, marker, after, ha, hmarker⟩

section Pair

variable (hoc : o ≠ c)
include hoc

/-- Something known is between the brackets of a pair, or begins there, or comes after it. -/
theorem hasMarker_closed_iff (hy : o ∉ y) (hm : c ∉ m) (q : List α) :
    HasMarker o c known (y ++ o :: (m ++ c :: q)) ↔
      known m = true ∨ (∃ a n, m = a ++ o :: n ∧ known n = true) ∨ HasMarker o c known q := by
  constructor
  · rintro ⟨before, marker, after, heq, hmarker, hknown⟩
    rcases open_cases hoc hy heq.symm with ⟨-, hz⟩ | ⟨a, n, rfl, -, hz⟩ | ⟨r, -, rfl⟩
    · obtain rfl := eq_of_append_cons hmarker hm hz
      exact .inl hknown
    · have hn : c ∉ n := fun hn => hm (mem_append_right a (mem_cons_of_mem o hn))
      obtain rfl := eq_of_append_cons hmarker hn hz
      exact .inr (.inl ⟨a, marker, rfl, hknown⟩)
    · exact .inr (.inr ⟨r, marker, after, rfl, hmarker, hknown⟩)
  · rintro (hknown | ⟨a, n, rfl, hknown⟩ | hq)
    · exact ⟨y, m, q, rfl, hm, hknown⟩
    · have hn : c ∉ n := fun hn => hm (mem_append_right a (mem_cons_of_mem o hn))
      exact ⟨y ++ o :: a, n, q, by simp, hn, hknown⟩
    · have happend := hq.append_left (y ++ o :: (m ++ [c]))
      simpa using happend

variable (hknown : ∀ a b m, known m = true → known (a ++ o :: m) = false →
  known (b ++ o :: (a ++ o :: m)) = false)
include hknown

/-- A bracket hides another one in a pair that is not known, or after the pair. -/
theorem hides_closed_iff (hy : o ∉ y) (hm : c ∉ m) (q : List α) :
    Hides o c known (y ++ o :: (m ++ c :: q)) ↔
      (known m = false ∧ ∃ a n, m = a ++ o :: n ∧ known n = true) ∨ Hides o c known q := by
  constructor
  · rintro ⟨before, between, marker, after, heq, hbetween, hmarker, htrue, hfalse⟩
    have hinner : c ∉ between ++ o :: marker := by
      simp [hbetween, hmarker, hoc.symm]
    have hassoc : between ++ o :: (marker ++ c :: after) =
        (between ++ o :: marker) ++ c :: after := by simp
    -- The hiding bracket is the one of the pair, or one within it, or comes after it.
    rcases open_cases hoc hy heq.symm with ⟨-, hz⟩ | ⟨a, n, rfl, -, hz⟩ | ⟨r, -, rfl⟩
    · rw [hassoc] at hz
      obtain rfl := eq_of_append_cons hinner hm hz
      exact .inl ⟨hfalse, between, marker, rfl, htrue⟩
    · have hn : c ∉ n := fun hn => hm (mem_append_right a (mem_cons_of_mem o hn))
      rw [hassoc] at hz
      obtain rfl := eq_of_append_cons hinner hn hz
      exact .inl ⟨hknown _ a _ htrue hfalse, a ++ o :: between, marker, by simp, htrue⟩
    · exact .inr ⟨r, between, marker, after, rfl, hbetween, hmarker, htrue, hfalse⟩
  · rintro (⟨hfalse, a, n, rfl, htrue⟩ | hq)
    · obtain ⟨ha, hn⟩ : c ∉ a ∧ c ∉ n := by
        simp only [mem_append, mem_cons, not_or] at hm
        exact ⟨hm.1, hm.2.2⟩
      exact ⟨y, a, n, q, by simp, ha, hn, htrue, hfalse⟩
    · have happend := hq.append_left (y ++ o :: (m ++ [c]))
      simpa using happend

/-- After the scan, something known is still there if and only if a bracket hid it. -/
theorem hasMarker_erase_iff [DecidableEq α] (text : List α) :
    HasMarker o c known (erase o c known text) ↔ Hides o c known text := by
  induction text using scan_induction o c with
  | none y hy =>
    rw [erase_of_notMem hy]
    exact iff_of_false (not_hasMarker_of_notMem hy) (not_hides_of_notMem hy)
  | unclosed y m hy hm =>
    rw [erase_unclosed hy hm]
    exact iff_of_false (not_hasMarker_of_unclosed hy hm) (not_hides_of_unclosed hy hm)
  | closed y m q hy hm ih =>
    -- By induction, after the pair; in the pair itself, only one that is kept has a marker.
    rw [erase_closed hy hm, hides_closed_iff hoc hknown hy hm, ← ih]
    cases hm' : known m with
    | true =>
      rw [if_pos rfl, nil_append, hasMarker_append_iff hy]
      exact ⟨.inr, fun h => h.resolve_left fun hpair => nomatch hpair.1⟩
    | false =>
      have hpair := @hasMarker_closed_iff _ o c known y m hoc hy hm (erase o c known q)
      rw [hm'] at hpair
      simpa using hpair

end Pair

end WKOpenVR.Brackets
