import WKOpenVR.Face.ModuleVersions
import WKOpenVR.Words

/-!
# Version stamps

The overlay compares the tag of a release with its own version. A stamp is an optional `v`,
four numbers with dots between them, and an optional suffix from a dash on
(`IsVersionStamp`), and it is read with `strtol` (`ParseVersionStamp`).

All stamps are accepted, with their numbers, but so are texts that are not stamps. White space
and a plus sign may stand before a number, a number may be too large, in which case it is
stored as the largest `int`, and after the fourth number a dot or a NUL may be followed by
anything. These texts are the ones with a `Reading` (`parseVersionStamp_eq_some_iff`), so the
accepted texts are stamps where the reading is plain. The order of accepted stamps is the
lexicographic one of the numbers that have been read (`isRemoteVersionNewer_iff`).
-/

namespace WKOpenVR.Overlay

open Text List
open Face (strtol)

/-- The loop over the fields, of which a number is left. -/
def stampLoop : ℕ → List UInt8 → Option (List ℤ)
  | 0, _ => some []
  | _ + 1, [] => none
  | k + 1, c :: text =>
    match strtol (c :: text) with
    | none => none
    | some (v, []) => (stampLoop k []).map (v :: ·)
    | some (v, d :: rest) => if d = 46 then (stampLoop k rest).map (v :: ·) else none

variable (raw : List UInt8)

/-- `ParseVersionStamp`. The text ends for `strtol` at a NUL. -/
def parseVersionStamp : Option (List ℤ) :=
  let s := if raw.head? = some 118 then raw.tail else raw
  stampLoop 4 ((s.takeWhile (· ≠ 45)).takeWhile (· ≠ 0))

/-- The loop over the numbers of two stamps. -/
def newerLoop : List ℤ → List ℤ → Bool
  | r :: remote, l :: loc =>
    if l < r then true else if r < l then false else newerLoop remote loc
  | _, _ => false

def isRemoteVersionNewer (remote loc : List UInt8) : Bool :=
  match parseVersionStamp remote, parseVersionStamp loc with
  | some r, some l => newerLoop r l
  | _, _ => false

/-- A stamp: an optional `v`, four numbers that are an `int` each, and an optional suffix. -/
def IsVersionStamp (numbers : List ℕ) : Prop :=
  ∃ (v : Bool) (fields : List (List UInt8)) (suffix : List UInt8),
    raw = (if v then [118] else []) ++ ([46].intercalate fields ++ suffix) ∧ fields.length = 4 ∧
      (∀ ds ∈ fields, ds ≠ [] ∧ ∀ c ∈ ds, isDigit c = true) ∧
      (∀ c ∈ suffix.head?, c = 45) ∧ numbers = fields.map digitsValue ∧
      ∀ n ∈ numbers, n < 2147483648

/-! ## What is read -/

/-- What `strtol` takes for a number, without a minus sign. -/
structure Field where
  blanks : List UInt8
  plus : Bool
  digits : List UInt8
  blanks_isSpace : ∀ c ∈ blanks, isSpace c = true
  digits_ne_nil : digits ≠ []
  digits_isDigit : ∀ c ∈ digits, isDigit c = true

namespace Field

variable (f : Field)

def text : List UInt8 := f.blanks ++ ((if f.plus then [43] else []) ++ f.digits)

def number : ℕ := digitsValue f.digits

def stored : ℤ := min 2147483647 f.number

/-- A number as it should be written. -/
structure Plain : Prop where
  blanks : f.blanks = []
  plus : f.plus = false
  number : f.number < 2147483648

end Field

/-- A text that is accepted, taken apart. -/
structure Reading where
  v : Bool
  fields : List Field
  /-- What follows the fourth number, up to the first dash. -/
  rest : List UInt8
  suffix : List UInt8
  length_fields : fields.length = 4
  head_rest : ∀ c ∈ rest.head?, c = 46 ∨ c = 0
  dash_rest : 45 ∉ rest
  head_suffix : ∀ c ∈ suffix.head?, c = 45

namespace Reading

variable (r : Reading)

def text : List UInt8 :=
  (if r.v then [118] else []) ++
    ([46].intercalate (r.fields.map Field.text) ++ (r.rest ++ r.suffix))

/-- The text has nothing but a stamp. -/
structure Plain : Prop where
  fields : ∀ f ∈ r.fields, f.Plain
  rest : r.rest = []

end Reading

/-! ## Fields -/

section Field

variable {f g : Field} {rest rest' : List UInt8}

theorem isSpace_plus : isSpace 43 = false := by decide

theorem isDigit_dot : isDigit 46 = false := by decide

/-- The part of a field behind the white space. -/
theorem head?_sign_digits (f : Field) (rest : List UInt8) :
    ∀ c ∈ ((if f.plus then [43] else []) ++ f.digits ++ rest).head?, isSpace c = false := by
  obtain ⟨d, ds, hds⟩ := exists_cons_of_ne_nil f.digits_ne_nil
  have hd := of_isDigit (f.digits_isDigit d (hds ▸ mem_cons_self))
  intro c hc
  cases hplus : f.plus with
  | true =>
    obtain rfl : 43 = c := by simpa [hplus] using hc
    exact isSpace_plus
  | false =>
    obtain rfl : d = c := by simpa [hplus, hds] using hc
    exact hd.1

theorem text_append (f : Field) (rest : List UInt8) :
    f.text ++ rest = f.blanks ++ ((if f.plus then [43] else []) ++ f.digits ++ rest) := by
  simp [Field.text]

theorem dropWhile_text_append (f : Field) (rest : List UInt8) :
    (f.text ++ rest).dropWhile isSpace = (if f.plus then [43] else []) ++ f.digits ++ rest := by
  rw [text_append, dropWhile_append_of_pos f.blanks_isSpace]
  exact Words.dropWhile_of_head? (head?_sign_digits f rest)

theorem splitSign_text_append (f : Field) (rest : List UInt8) :
    splitSign ((f.text ++ rest).dropWhile isSpace) = (false, f.digits ++ rest) := by
  rw [dropWhile_text_append]
  obtain ⟨d, ds, hds⟩ := exists_cons_of_ne_nil f.digits_ne_nil
  obtain ⟨-, hminus, hplus⟩ := of_isDigit (f.digits_isDigit d (hds ▸ mem_cons_self))
  cases hp : f.plus with
  | true => simp [splitSign]
  | false => simp [splitSign, hds, hminus, hplus]

theorem takeWhile_digits_append (f : Field) (hrest : ∀ c ∈ rest.head?, isDigit c = false) :
    (f.digits ++ rest).takeWhile isDigit = f.digits ∧
      (f.digits ++ rest).dropWhile isDigit = rest :=
  split_append f.digits_isDigit (takeWhile_of_head? hrest)

theorem strtol_text_append (f : Field) (hrest : ∀ c ∈ rest.head?, isDigit c = false) :
    strtol (f.text ++ rest) = some (f.stored, rest) := by
  obtain ⟨htake, hdrop⟩ := takeWhile_digits_append f hrest
  have hclamp : max (-2 ^ 31) (min (2 ^ 31 - 1) (digitsValue f.digits : ℤ)) = f.stored := by
    unfold Field.stored Field.number
    omega
  simp only [strtol, splitSign_text_append, htake, hdrop, List.isEmpty_iff, f.digits_ne_nil,
    if_false, Bool.false_eq_true, hclamp]

/-- Where there is no minus sign, `strtol` reads a field. -/
theorem exists_of_strtol {text : List UInt8} (hdash : 45 ∉ text) {v : ℤ}
    (h : strtol text = some (v, rest)) :
    ∃ f : Field, text = f.text ++ rest ∧ v = f.stored ∧ ∀ c ∈ rest.head?, isDigit c = false := by
  -- The white space, the sign, the digits and the rest make up the text.
  have hblanks : ∀ c ∈ text.takeWhile isSpace, isSpace c = true := fun c hc =>
    mem_takeWhile_imp hc
  have htext := takeWhile_append_dropWhile (p := isSpace) (l := text)
  have hsign : ∃ plus : Bool, splitSign (text.dropWhile isSpace) =
      (false, (text.dropWhile isSpace).drop (if plus then 1 else 0)) ∧
      text.dropWhile isSpace = (if plus then [43] else []) ++
        (text.dropWhile isSpace).drop (if plus then 1 else 0) := by
    cases hdrop : text.dropWhile isSpace with
    | nil => exact ⟨false, rfl, rfl⟩
    | cons c cs =>
      have hc : c ≠ 45 := by
        rintro rfl
        exact hdash (htext ▸ mem_append_right _ (hdrop ▸ mem_cons_self))
      by_cases hplus : c = 43
      · exact ⟨true, by simp [splitSign, hplus], by simp [hplus]⟩
      · exact ⟨false, by simp [splitSign, hplus, hc], by simp⟩
  obtain ⟨plus, hsplit, heq⟩ := hsign
  generalize (text.dropWhile isSpace).drop (if plus then 1 else 0) = ds at hsplit heq
  simp only [strtol, hsplit, Bool.false_eq_true, if_false] at h
  split_ifs at h with hds
  obtain ⟨hv, hrest⟩ : _ ∧ ds.dropWhile isDigit = rest := by simpa using h
  refine ⟨⟨text.takeWhile isSpace, plus, ds.takeWhile isDigit, hblanks, by simpa using hds,
    fun c hc => mem_takeWhile_imp hc⟩, ?_, ?_, ?_⟩
  · rw [Field.text, append_assoc, append_assoc, ← hrest, takeWhile_append_dropWhile, ← heq, htext]
  · have hstored : v = min 2147483647 (digitsValue (ds.takeWhile isDigit) : ℤ) := by omega
    exact hstored
  · rw [← hrest]
    exact Words.head?_dropWhile

/-- A field can be read in one way only. -/
theorem eq_of_text_append (hrest : ∀ c ∈ rest.head?, isDigit c = false)
    (hrest' : ∀ c ∈ rest'.head?, isDigit c = false) (h : f.text ++ rest = g.text ++ rest') :
    f = g ∧ rest = rest' := by
  have htake (f : Field) (rest : List UInt8) : (f.text ++ rest).takeWhile isSpace = f.blanks := by
    have hdrop := dropWhile_text_append f rest
    have happend := takeWhile_append_dropWhile (p := isSpace) (l := f.text ++ rest)
    rw [hdrop] at happend
    exact append_cancel_right (happend.trans (text_append f rest))
  have hblanks : f.blanks = g.blanks := by rw [← htake f rest, h, htake]
  have hdigits : f.digits ++ rest = g.digits ++ rest' := by
    have hf := splitSign_text_append f rest
    rw [h, splitSign_text_append] at hf
    exact (Prod.mk.inj hf).2.symm
  have hds : f.digits = g.digits := by
    rw [← (takeWhile_digits_append f hrest).1, hdigits, (takeWhile_digits_append g hrest').1]
  have hrests : rest = rest' := by
    rw [hds] at hdigits
    exact append_cancel_left hdigits
  have hplus : f.plus = g.plus := by
    -- The signs have the same length.
    have hlength := congrArg List.length h
    simp only [Field.text, length_append, hblanks, hds, hrests] at hlength
    cases hf : f.plus <;> cases hg : g.plus <;> simp_all
  refine ⟨?_, hrests⟩
  cases f
  cases g
  simp_all

theorem text_ne_nil (f : Field) : f.text ≠ [] := by
  simp [Field.text, f.digits_ne_nil]

theorem mem_text {c : UInt8} (hc : c ∈ f.text) : isSpace c = true ∨ c = 43 ∨ isDigit c = true := by
  rw [Field.text, mem_append, mem_append] at hc
  rcases hc with hc | hc | hc
  · exact .inl (f.blanks_isSpace c hc)
  · cases hplus : f.plus with
    | true => exact .inr (.inl (by simpa [hplus] using hc))
    | false => simp [hplus] at hc
  · exact .inr (.inr (f.digits_isDigit c hc))

end Field

/-! ## The loop -/

section Loop

variable {rest : List UInt8}

/-- The characters between which nothing is read. -/
theorem of_head?_dot_or_nul (h : ∀ c ∈ rest.head?, c = 46 ∨ c = 0) :
    ∀ c ∈ rest.head?, isDigit c = false := by
  intro c hc
  rcases h c hc with rfl | rfl
  · decide
  · decide

theorem of_head?_dot (h : ∀ c ∈ rest.head?, c = 46) : ∀ c ∈ rest.head?, isDigit c = false :=
  of_head?_dot_or_nul fun c hc => .inl (h c hc)

theorem stampLoop_text_append (f : Field) (k : ℕ) {rest : List UInt8}
    (hrest : ∀ c ∈ rest.head?, c = 46) :
    stampLoop (k + 1) (f.text ++ rest) = (stampLoop k rest.tail).map (f.stored :: ·) := by
  have hread := strtol_text_append f (of_head?_dot hrest)
  obtain ⟨c, text, htext⟩ := exists_cons_of_ne_nil
    (append_ne_nil_of_left_ne_nil (text_ne_nil f) rest)
  rw [htext] at hread ⊢
  cases rest with
  | nil => simp [stampLoop, hread]
  | cons d rest =>
    obtain rfl := hrest d rfl
    simp [stampLoop, hread]

theorem exists_of_stampLoop {k : ℕ} {text : List UInt8} (hdash : 45 ∉ text) {vs : List ℤ}
    (h : stampLoop (k + 1) text = some vs) :
    ∃ (f : Field) (rest : List UInt8) (vs' : List ℤ), text = f.text ++ rest ∧
      (∀ c ∈ rest.head?, c = 46) ∧ stampLoop k rest.tail = some vs' ∧ vs = f.stored :: vs' := by
  cases text with
  | nil => cases h
  | cons c text =>
    cases hread : strtol (c :: text) with
    | none => simp [stampLoop, hread] at h
    | some r =>
      obtain ⟨v, rest⟩ := r
      obtain ⟨f, htext, rfl, -⟩ := exists_of_strtol hdash hread
      have hdot : ∀ d ∈ rest.head?, d = 46 := by
        intro d hd
        by_contra hne
        obtain ⟨rest, rfl⟩ := List.head?_eq_some_iff.1 hd
        simp [stampLoop, hread, hne] at h
      rw [htext, stampLoop_text_append f k hdot] at h
      obtain ⟨vs', hvs', rfl⟩ := Option.map_eq_some_iff.1 h
      exact ⟨f, rest, vs', htext, hdot, hvs', rfl⟩

/-- The loop reads fields with dots between them, whatever follows a dot after the last one. -/
theorem stampLoop_eq_some_iff (k : ℕ) {text : List UInt8} (hdash : 45 ∉ text) (vs : List ℤ) :
    stampLoop (k + 1) text = some vs ↔
      ∃ (fields : List Field) (rest : List UInt8), fields.length = k + 1 ∧
        text = [46].intercalate (fields.map Field.text) ++ rest ∧
        (∀ c ∈ rest.head?, c = 46) ∧ vs = fields.map Field.stored := by
  induction k generalizing text vs with
  | zero =>
    constructor
    · intro h
      obtain ⟨f, rest, vs', htext, hdot, hvs', rfl⟩ := exists_of_stampLoop hdash h
      obtain rfl : [] = vs' := by simpa [stampLoop] using hvs'
      exact ⟨[f], rest, rfl, by simpa using htext, hdot, rfl⟩
    · rintro ⟨fields, rest, hlength, rfl, hrest, rfl⟩
      obtain ⟨f, rfl⟩ := length_eq_one_iff.1 hlength
      simpa [stampLoop] using stampLoop_text_append f 0 hrest
  | succ k ih =>
    constructor
    · intro h
      obtain ⟨f, rest, vs', rfl, hdot, hvs', rfl⟩ := exists_of_stampLoop hdash h
      -- More fields are to come, so a dot follows the first one.
      cases rest with
      | nil => cases hvs'
      | cons d rest =>
        obtain rfl := hdot d rfl
        have hdash' : 45 ∉ rest := fun hmem =>
          hdash (mem_append_right _ (mem_cons_of_mem _ hmem))
        obtain ⟨fields, rest', hlength, rfl, hrest', rfl⟩ := (ih hdash' vs').1 hvs'
        refine ⟨f :: fields, rest', by rw [length_cons, hlength], ?_, hrest', rfl⟩
        obtain ⟨g, fields, rfl⟩ := exists_cons_of_length_eq_add_one hlength
        simp
    · rintro ⟨fields, rest, hlength, rfl, hrest, rfl⟩
      obtain ⟨f, fields, rfl⟩ := exists_cons_of_length_eq_add_one hlength
      have hlength' : fields.length = k + 1 := Nat.succ.inj hlength
      obtain ⟨g, fields, rfl⟩ := exists_cons_of_length_eq_add_one hlength'
      rw [map_cons, map_cons, intercalate_cons_cons, append_assoc, append_assoc] at hdash ⊢
      have hdash' : 45 ∉ [46].intercalate ((g :: fields).map Field.text) ++ rest := fun hmem =>
        hdash (mem_append_right _ (mem_cons_of_mem _ hmem))
      have hloop := (ih hdash' _).2 ⟨g :: fields, rest, hlength', rfl, hrest, rfl⟩
      exact (stampLoop_text_append f (k + 1) (by simp)).trans (congrArg _ hloop)

variable {fields : List Field}

/-- Fields with dots between them can be read in one way only. -/
theorem eq_of_intercalate_append {fields' : List Field} {rest rest' : List UInt8}
    (hlength : fields.length = fields'.length) (hne : fields ≠ [])
    (hrest : ∀ c ∈ rest.head?, isDigit c = false) (hrest' : ∀ c ∈ rest'.head?, isDigit c = false)
    (h : [46].intercalate (fields.map Field.text) ++ rest =
      [46].intercalate (fields'.map Field.text) ++ rest') : fields = fields' ∧ rest = rest' := by
  induction fields generalizing fields' with
  | nil => exact absurd rfl hne
  | cons f fields ih =>
    obtain ⟨f', fields', rfl⟩ := exists_cons_of_length_eq_add_one hlength.symm
    have hlength' : fields.length = fields'.length := Nat.succ.inj hlength
    cases fields with
    | nil =>
      obtain rfl := eq_nil_of_length_eq_zero hlength'.symm
      simp only [map_cons, map_nil, intercalate_singleton] at h
      obtain ⟨rfl, rfl⟩ := eq_of_text_append hrest hrest' h
      exact ⟨rfl, rfl⟩
    | cons g fields =>
      obtain ⟨g', fields', rfl⟩ := exists_cons_of_length_eq_add_one hlength'.symm
      simp only [map_cons, intercalate_cons_cons, append_assoc] at h
      obtain ⟨rfl, heq⟩ := eq_of_text_append (by simp [isDigit_dot]) (by simp [isDigit_dot]) h
      obtain ⟨hfields, rfl⟩ := ih hlength' (cons_ne_nil _ _) (List.cons.inj heq).2
      exact ⟨congrArg _ hfields, rfl⟩

/-- No character of the fields ends the text, or is taken for a `v`. -/
theorem of_mem_intercalate {c : UInt8}
    (hc : c ∈ [46].intercalate (fields.map Field.text)) : c ≠ 45 ∧ c ≠ 0 ∧ c ≠ 118 := by
  have hfield (f : Field) (hc : c ∈ f.text) : c ≠ 45 ∧ c ≠ 0 ∧ c ≠ 118 := by
    refine ⟨?_, ?_, ?_⟩ <;> rintro rfl <;> exact absurd (mem_text hc) (by decide)
  induction fields with
  | nil => simp at hc
  | cons f fields ih =>
    cases fields with
    | nil => exact hfield f (by simpa using hc)
    | cons g fields =>
      rw [map_cons, map_cons, intercalate_cons_cons, append_assoc, mem_append, mem_append,
        mem_singleton] at hc
      rcases hc with hc | rfl | hc
      · exact hfield f hc
      · decide
      · exact ih hc

end Loop

/-! ## Accepted texts -/

namespace Reading

variable (r : Reading)

theorem fields_ne_nil : r.fields ≠ [] :=
  ne_nil_of_length_eq_add_one r.length_fields

/-- The part of the text after the optional `v`. -/
theorem erase_v :
    (if r.text.head? = some 118 then r.text.tail else r.text) =
      [46].intercalate (r.fields.map Field.text) ++ (r.rest ++ r.suffix) := by
  cases hv : r.v with
  | true => simp [text, hv]
  | false =>
    have hhead : r.text.head? ≠ some 118 := by
      intro hhead
      cases hjoin : [46].intercalate (r.fields.map Field.text) with
      | nil =>
        obtain ⟨f, fields, hfields⟩ := exists_cons_of_ne_nil r.fields_ne_nil
        have hne := Words.intercalate_ne_nil [46] (fields.map Field.text) (text_ne_nil f)
        rw [hfields, map_cons] at hjoin
        exact hne hjoin
      | cons c text =>
        obtain rfl : c = 118 := by simpa [Reading.text, hv, hjoin] using hhead
        exact (of_mem_intercalate (hjoin ▸ mem_cons_self)).2.2 rfl
    rw [if_neg hhead]
    simp [text, hv]

theorem parseVersionStamp_text : parseVersionStamp r.text = some (r.fields.map Field.stored) := by
  have hbody : ∀ c ∈ [46].intercalate (r.fields.map Field.text) ++ r.rest,
      decide (c ≠ 45) = true := by
    refine forall_mem_append.2 ⟨fun c hc => decide_eq_true (of_mem_intercalate hc).1, ?_⟩
    exact fun c hc => decide_eq_true (ne_of_mem_of_not_mem hc r.dash_rest)
  have hsuffix : ∀ c ∈ r.suffix.head?, decide (c ≠ 45) = false := by
    intro c hc
    simpa using r.head_suffix c hc
  have hnul : ∀ c ∈ [46].intercalate (r.fields.map Field.text), decide (c ≠ 0) = true := fun c hc =>
    decide_eq_true (of_mem_intercalate hc).2.1
  unfold parseVersionStamp
  rw [r.erase_v, ← append_assoc]
  simp only
  rw [(split_append hbody (takeWhile_of_head? hsuffix)).1, takeWhile_append_of_pos hnul]
  refine (stampLoop_eq_some_iff 3 ?_ _).2 ⟨r.fields, _, r.length_fields, rfl, ?_, rfl⟩
  · intro hmem
    rcases mem_append.1 hmem with hmem | hmem
    · exact (of_mem_intercalate hmem).1 rfl
    · exact r.dash_rest ((takeWhile_sublist _).mem hmem)
  · intro c hc
    cases hrest : r.rest with
    | nil => simp [hrest] at hc
    | cons d rest =>
      -- A NUL right after the fourth number ends the text.
      rcases r.head_rest d (by rw [hrest]; rfl) with rfl | rfl
      · simpa [hrest, eq_comm] using hc
      · simp [hrest] at hc

end Reading

theorem exists_reading {raw : List UInt8} {vs : List ℤ} (h : parseVersionStamp raw = some vs) :
    ∃ r : Reading, r.text = raw := by
  unfold parseVersionStamp at h
  -- The stamp is split as it is read: a letter, the fields, what follows them, a suffix.
  obtain ⟨v, s, hraw, hs⟩ : ∃ (v : Bool) (s : List UInt8), raw = (if v then [118] else []) ++ s ∧
      (if raw.head? = some 118 then raw.tail else raw) = s := by
    by_cases hv : raw.head? = some 118
    · obtain ⟨s, rfl⟩ := List.head?_eq_some_iff.1 hv
      exact ⟨true, s, rfl, by simp⟩
    · exact ⟨false, raw, rfl, if_neg hv⟩
  rw [hs] at h
  have hdash : 45 ∉ s.takeWhile (· ≠ 45) := fun hmem => by simpa using mem_takeWhile_imp hmem
  obtain ⟨fields, rest, hlength, htext, hrest, -⟩ := (stampLoop_eq_some_iff 3 (fun hmem =>
    hdash ((takeWhile_sublist _).mem hmem)) vs).1 h
  have hbody : [46].intercalate (fields.map Field.text) ++
      (rest ++ (s.takeWhile (· ≠ 45)).dropWhile (· ≠ 0)) = s.takeWhile (· ≠ 45) := by
    rw [← append_assoc, ← htext, takeWhile_append_dropWhile]
  have hhead : ∀ c ∈ (rest ++ (s.takeWhile (· ≠ 45)).dropWhile (· ≠ 0)).head?, c = 46 ∨ c = 0 := by
    intro c hc
    cases rest with
    | nil => exact .inr (by simpa using Words.head?_dropWhile c hc)
    | cons d rest =>
      obtain rfl : d = c := by simpa using hc
      exact .inl (hrest d rfl)
  have hno : 45 ∉ rest ++ (s.takeWhile (· ≠ 45)).dropWhile (· ≠ 0) := fun hmem =>
    hdash (hbody ▸ mem_append_right _ hmem)
  have hsuffix : ∀ c ∈ (s.dropWhile (· ≠ 45)).head?, c = 45 := by
    intro c hc
    simpa using Words.head?_dropWhile c hc
  have htext : [46].intercalate (fields.map Field.text) ++
      (rest ++ (s.takeWhile (· ≠ 45)).dropWhile (· ≠ 0) ++ s.dropWhile (· ≠ 45)) = s := by
    rw [← append_assoc, hbody, takeWhile_append_dropWhile]
  refine ⟨⟨v, fields, _, _, hlength, hhead, hno, hsuffix⟩, ?_⟩
  rw [hraw]
  exact congrArg (fun body => (if v then [118] else []) ++ body) htext

/-- A text is accepted exactly if it has a reading. -/
theorem parseVersionStamp_eq_some_iff (vs : List ℤ) :
    parseVersionStamp raw = some vs ↔
      ∃ r : Reading, r.text = raw ∧ vs = r.fields.map Field.stored := by
  constructor
  · intro h
    obtain ⟨r, rfl⟩ := exists_reading h
    rw [r.parseVersionStamp_text] at h
    exact ⟨r, rfl, (Option.some.inj h).symm⟩
  · rintro ⟨r, rfl, rfl⟩
    exact r.parseVersionStamp_text

/-- A text has one reading. -/
theorem Reading.eq_of_text_eq {r r' : Reading} (h : r.text = r'.text) :
    r.fields = r'.fields ∧ r.rest = r'.rest := by
  have hend (r : Reading) : ∀ c ∈ (r.rest ++ r.suffix).head?, isDigit c = false := by
    intro c hc
    cases hrest : r.rest with
    | nil =>
      obtain rfl := r.head_suffix c (by simpa [hrest] using hc)
      decide
    | cons d rest =>
      obtain rfl : d = c := by simpa [hrest] using hc
      exact of_head?_dot_or_nul r.head_rest d (by rw [hrest]; rfl)
  have htake (r : Reading) : (r.rest ++ r.suffix).takeWhile (· ≠ 45) = r.rest :=
    (split_append (fun c hc => decide_eq_true (ne_of_mem_of_not_mem hc r.dash_rest))
      (takeWhile_of_head? fun c hc => by simpa using r.head_suffix c hc)).1
  have herase := r.erase_v
  rw [h, r'.erase_v] at herase
  obtain ⟨hfields, hrest⟩ := eq_of_intercalate_append
    (r.length_fields.trans r'.length_fields.symm) r.fields_ne_nil (hend r) (hend r') herase.symm
  refine ⟨hfields, ?_⟩
  rw [← htake r, hrest, htake r']

/-- The stamps are the texts with a plain reading. -/
theorem isVersionStamp_iff (numbers : List ℕ) : IsVersionStamp raw numbers ↔
      ∃ r : Reading, r.text = raw ∧ r.Plain ∧ numbers = r.fields.map Field.number := by
  constructor
  · rintro ⟨v, fields, suffix, rfl, hlength, hfields, hsuffix, rfl, hfit⟩
    -- Each list of digits is a field.
    let field (ds : {ds // ds ∈ fields}) : Field :=
      ⟨[], false, ds.1, by simp, (hfields ds.1 ds.2).1, (hfields ds.1 ds.2).2⟩
    have htext : (fields.attach.map field).map Field.text = fields := by
      rw [map_map]
      exact fields.attach_map_subtype_val
    have hnumber : (fields.attach.map field).map Field.number = fields.map digitsValue := by
      rw [map_map, ← attach_map_val (f := digitsValue)]
      rfl
    refine ⟨⟨v, fields.attach.map field, [], suffix, by simpa using hlength, by simp, by simp,
      hsuffix⟩, ?_, ⟨?_, rfl⟩, hnumber.symm⟩
    · rw [Reading.text, htext]
      simp
    · intro f hf
      have hmem : f.number ∈ fields.map digitsValue := hnumber ▸ mem_map_of_mem hf
      obtain ⟨ds, -, rfl⟩ := mem_map.1 hf
      exact ⟨rfl, rfl, hfit _ hmem⟩
  · rintro ⟨r, rfl, hplain, rfl⟩
    have htext : r.fields.map Field.text = r.fields.map Field.digits := by
      refine map_congr_left fun f hf => ?_
      simp [Field.text, (hplain.fields f hf).blanks, (hplain.fields f hf).plus]
    refine ⟨r.v, r.fields.map Field.digits, r.suffix, ?_, by rw [length_map, r.length_fields],
      ?_, r.head_suffix, by rw [map_map]; rfl, ?_⟩
    · rw [Reading.text, htext, hplain.rest, nil_append]
    · intro ds hds
      obtain ⟨f, -, rfl⟩ := mem_map.1 hds
      exact ⟨f.digits_ne_nil, f.digits_isDigit⟩
    · intro n hn
      obtain ⟨f, hf, rfl⟩ := mem_map.1 hn
      exact (hplain.fields f hf).number

theorem parseVersionStamp_of_isVersionStamp {raw : List UInt8} {numbers : List ℕ}
    (h : IsVersionStamp raw numbers) :
    parseVersionStamp raw = some (numbers.map (Nat.cast : ℕ → ℤ)) := by
  obtain ⟨r, rfl, hplain, rfl⟩ := (isVersionStamp_iff raw numbers).1 h
  rw [r.parseVersionStamp_text, map_map]
  refine congrArg some (map_congr_left fun f hf => ?_)
  have hfit := (hplain.fields f hf).number
  simp only [Field.stored, Function.comp_apply]
  omega

/-- A text is accepted just if it is a stamp, exactly if no leniency of the reading is used. -/
theorem isSome_iff_isVersionStamp_iff :
    ((parseVersionStamp raw).isSome = true ↔ ∃ numbers, IsVersionStamp raw numbers) ↔
      ∀ r : Reading, r.text = raw → r.Plain := by
  constructor
  · rintro h r rfl
    have hsome : (parseVersionStamp r.text).isSome = true := by rw [r.parseVersionStamp_text]; rfl
    obtain ⟨numbers, hstamp⟩ := h.1 hsome
    obtain ⟨r', htext, hplain, -⟩ := (isVersionStamp_iff _ _).1 hstamp
    obtain ⟨hfields, hrest⟩ := Reading.eq_of_text_eq htext
    exact ⟨hfields ▸ hplain.fields, hrest ▸ hplain.rest⟩
  · intro h
    constructor
    · intro hsome
      obtain ⟨vs, hvs⟩ := Option.isSome_iff_exists.1 hsome
      obtain ⟨r, hr, -⟩ := (parseVersionStamp_eq_some_iff raw vs).1 hvs
      exact ⟨_, (isVersionStamp_iff _ _).2 ⟨r, hr, h r hr, rfl⟩⟩
    · rintro ⟨numbers, hstamp⟩
      rw [parseVersionStamp_of_isVersionStamp hstamp]
      rfl

/-! ## The order -/

theorem length_of_parseVersionStamp {raw : List UInt8} {vs : List ℤ}
    (h : parseVersionStamp raw = some vs) : vs.length = 4 := by
  obtain ⟨r, -, rfl⟩ := (parseVersionStamp_eq_some_iff raw vs).1 h
  rw [length_map, r.length_fields]

theorem newerLoop_iff {remote loc : List ℤ} (h : remote.length = loc.length) :
    newerLoop remote loc = true ↔ loc < remote := by
  induction remote generalizing loc with
  | nil =>
    obtain rfl := eq_nil_of_length_eq_zero h.symm
    simp [newerLoop]
  | cons r remote ih =>
    obtain ⟨l, loc, rfl⟩ := exists_cons_of_length_eq_add_one h.symm
    have ih := @ih loc (Nat.succ.inj h)
    rw [newerLoop, cons_lt_cons_iff, ← ih]
    rcases lt_trichotomy l r with hlt | rfl | hlt
    · simp [hlt]
    · simp
    · simp [hlt, hlt.not_gt, hlt.ne']

variable {remote loc : List UInt8}

/-- The order of accepted stamps is the one of their numbers. -/
theorem isRemoteVersionNewer_iff {r l : List ℤ}
    (hr : parseVersionStamp remote = some r) (hl : parseVersionStamp loc = some l) :
    isRemoteVersionNewer remote loc = true ↔ l < r := by
  simp only [isRemoteVersionNewer, hr, hl]
  exact newerLoop_iff ((length_of_parseVersionStamp hr).trans (length_of_parseVersionStamp hl).symm)

theorem exists_of_isRemoteVersionNewer (h : isRemoteVersionNewer remote loc = true) :
    ∃ r l, parseVersionStamp remote = some r ∧ parseVersionStamp loc = some l ∧ l < r := by
  cases hr : parseVersionStamp remote with
  | none => simp [isRemoteVersionNewer, hr] at h
  | some r =>
    cases hl : parseVersionStamp loc with
    | none => simp [isRemoteVersionNewer, hr, hl] at h
    | some l => exact ⟨r, l, rfl, rfl, (isRemoteVersionNewer_iff hr hl).1 h⟩

/-- Which texts are accepted, and how they are ordered. -/
theorem versionStamps_accepted_and_ordered (s t u : List UInt8) :
    (((parseVersionStamp s).isSome = true ↔ ∃ numbers, IsVersionStamp s numbers) ↔
      ∀ r : Reading, r.text = s → r.Plain) ∧
    (∀ numbers, IsVersionStamp s numbers →
      parseVersionStamp s = some (numbers.map (Nat.cast : ℕ → ℤ))) ∧
    (∀ a b, parseVersionStamp s = some a → parseVersionStamp t = some b →
      (isRemoteVersionNewer s t = true ↔ b < a)) ∧
    isRemoteVersionNewer s s = false ∧
    (isRemoteVersionNewer s t = true → isRemoteVersionNewer t u = true →
      isRemoteVersionNewer s u = true) ∧
    ∀ a b, parseVersionStamp s = some a → parseVersionStamp t = some b →
      isRemoteVersionNewer s t = true ∨ isRemoteVersionNewer t s = true ∨ a = b := by
  refine ⟨isSome_iff_isVersionStamp_iff s, fun numbers h => parseVersionStamp_of_isVersionStamp h,
    fun a b ha hb => isRemoteVersionNewer_iff ha hb, ?_, ?_, ?_⟩
  · by_contra hnewer
    obtain ⟨a, b, ha, hb, hlt⟩ :=
      exists_of_isRemoteVersionNewer (Bool.eq_true_of_not_eq_false hnewer)
    obtain rfl := Option.some.inj (ha.symm.trans hb)
    exact lt_irrefl a hlt
  · intro hst htu
    obtain ⟨a, b, ha, hb, hba⟩ := exists_of_isRemoteVersionNewer hst
    obtain ⟨b', c, hb', hc, hcb⟩ := exists_of_isRemoteVersionNewer htu
    obtain rfl := Option.some.inj (hb.symm.trans hb')
    exact (isRemoteVersionNewer_iff ha hc).2 (hcb.trans hba)
  · intro a b ha hb
    rw [isRemoteVersionNewer_iff ha hb, isRemoteVersionNewer_iff hb ha]
    rcases lt_trichotomy a b with hlt | heq | hlt
    · exact .inr (.inl hlt)
    · exact .inr (.inr heq)
    · exact .inl hlt

/-- A fifth number is accepted, and not read. -/
theorem parseVersionStamp_fifth_number :
    parseVersionStamp (ascii "2026.6.21.0.5") = some [2026, 6, 21, 0] ∧
      ¬∃ numbers, IsVersionStamp (ascii "2026.6.21.0.5") numbers := by
  let field (ds : List UInt8) (hds : ds ≠ [] ∧ ds.all isDigit = true) : Field :=
    ⟨[], false, ds, by simp, hds.1, all_eq_true.1 hds.2⟩
  let r : Reading :=
    { v := false
      fields := [field (ascii "2026") (by decide), field (ascii "6") (by decide),
        field (ascii "21") (by decide), field (ascii "0") (by decide)]
      rest := [46, 53]
      suffix := []
      length_fields := rfl
      head_rest := by simp
      dash_rest := by decide
      head_suffix := by simp }
  have htext : r.text = ascii "2026.6.21.0.5" := by decide
  refine ⟨?_, ?_⟩
  · rw [← htext, r.parseVersionStamp_text]
    decide
  · rintro ⟨numbers, hstamp⟩
    obtain ⟨r', htext', hplain, -⟩ := (isVersionStamp_iff _ _).1 hstamp
    have hrest := (Reading.eq_of_text_eq (htext.trans htext'.symm)).2
    rw [hplain.rest] at hrest
    cases hrest

end WKOpenVR.Overlay
