import WKOpenVR.Osc.Pattern
import Mathlib.Computability.Language

/-!
# The language of a pattern

A pattern without alternations is a sequence of elements (`elements`), and stands for a
language: the concatenation of the languages of its elements (`patternLanguage`). The
matcher accepts exactly this language (`oscPatternMatch_iff`).

At a `*` the matcher tries what follows at every position of the address but its end. An
element other than `*` needs a character, so without alternations nothing is lost; what
follows a part without alternations, however, is not tried at the end of the address if
the part ends in a `*` and more than `*` follows (`oscPatternMatch_append`).
-/

namespace WKOpenVR.Osc

open List

/-! ## Elements -/

/-- An element of a pattern. A class lists ranges of characters. -/
inductive Element
  | any
  | anySequence
  | oneOf (negated : Bool) (ranges : List (UInt8 × UInt8))
  | char (c : UInt8)
  deriving DecidableEq, Repr

/-- The ranges listed between the brackets of a class. A character is a range. -/
def classRanges : List UInt8 → List (UInt8 × UInt8)
  | c₁ :: dash :: c₂ :: body =>
    if dash = 45 then (c₁, c₂) :: classRanges body else (c₁, c₁) :: classRanges (dash :: c₂ :: body)
  | c :: body => (c, c) :: classRanges body
  | [] => []

/-- The class with `body` between its brackets. -/
def classElement : List UInt8 → Element
  | [] => .oneOf false []
  | c :: body =>
    if c = 33 then .oneOf true (classRanges body) else .oneOf false (classRanges (c :: body))

/-- The element of a character that opens no class. -/
def charElement (c : UInt8) : Element :=
  if c = 63 then .any else if c = 42 then .anySequence else .char c

/-- The elements of a pattern, given what has been read of a class that is open. -/
def elementsFrom : Option (List UInt8) → List UInt8 → Option (List Element)
  | none, [] => some []
  | some _, [] => none
  | none, c :: p =>
    if c = 91 then elementsFrom (some []) p else (elementsFrom none p).map (charElement c :: ·)
  | some body, c :: p =>
    if c = 93 then (elementsFrom none p).map (classElement body :: ·)
    else elementsFrom (some (body ++ [c])) p

/-- The elements of a pattern without alternations, if all its classes are closed. -/
def elements (p : List UInt8) : Option (List Element) := elementsFrom none p

def ClassesClosed (p : List UInt8) : Prop := (elements p).isSome

instance (p : List UInt8) : Decidable (ClassesClosed p) := inferInstanceAs (Decidable (_ = _))

def BraceFree (p : List UInt8) : Prop := 123 ∉ p ∧ 125 ∉ p

instance (p : List UInt8) : Decidable (BraceFree p) := inferInstanceAs (Decidable (_ ∧ _))

/-! ## Languages -/

/-- The character is in one of the ranges. Characters are compared with their sign. -/
def Listed (ranges : List (UInt8 × UInt8)) (c : UInt8) : Prop :=
  ∃ r ∈ ranges, signedChar r.1 ≤ signedChar c ∧ signedChar c ≤ signedChar r.2

def Element.language : Element → Language UInt8
  | .any => {w | ∃ c, w = [c]}
  | .anySequence => {_w | True}
  | .oneOf negated ranges => {w | ∃ c, w = [c] ∧ (Listed ranges c ↔ negated = false)}
  | .char c => {w | w = [c]}

/-- The concatenation of the languages of the elements. -/
def language (es : List Element) : Language UInt8 := (es.map Element.language).prod

/-- The language of a pattern without alternations. -/
def patternLanguage (p : List UInt8) : Language UInt8 := language ((elements p).getD [])

/-! ## Reading a pattern -/

/-- The elements of a pattern, with the bytes they are read from. -/
inductive Reads : List UInt8 → List Element → Prop
  | nil : Reads [] []
  | char {c : UInt8} {p : List UInt8} {es : List Element} (hc : c ≠ 91) (h : Reads p es) :
      Reads (c :: p) (charElement c :: es)
  | oneOf {body p : List UInt8} {es : List Element} (hbody : 93 ∉ body) (h : Reads p es) :
      Reads (91 :: (body ++ 93 :: p)) (classElement body :: es)

variable {p : List UInt8} {es : List Element}

theorem reads_of_elementsFrom :
    (∀ es, elementsFrom none p = some es → Reads p es) ∧
      ∀ body es, 93 ∉ body → elementsFrom (some body) p = some es →
        Reads (91 :: (body ++ p)) es := by
  induction p with
  | nil =>
    refine ⟨fun es h => ?_, fun body es hbody h => by cases h⟩
    cases h
    exact .nil
  | cons c p ih =>
    refine ⟨fun es h => ?_, fun body es hbody h => ?_⟩
    · rw [elementsFrom] at h
      split_ifs at h with hc
      · subst hc
        exact ih.2 [] es (by simp) h
      · obtain ⟨es', hes', rfl⟩ := Option.map_eq_some_iff.1 h
        exact .char hc (ih.1 es' hes')
    · rw [elementsFrom] at h
      split_ifs at h with hc
      · subst hc
        obtain ⟨es', hes', rfl⟩ := Option.map_eq_some_iff.1 h
        exact .oneOf hbody (ih.1 es' hes')
      · have hread := ih.2 (body ++ [c]) es (by simp [hbody, Ne.symm hc]) h
        simpa using hread

theorem reads_of_elements (h : elements p = some es) : Reads p es :=
  reads_of_elementsFrom.1 es h

/-! ## Words of a language -/

section Words

variable {e : Element} {fs : List Element} {w : List UInt8}

@[simp]
theorem mem_language_nil : w ∈ language [] ↔ w = [] := Iff.rfl

@[simp]
theorem mem_language_cons :
    w ∈ language (e :: es) ↔ ∃ u ∈ e.language, ∃ v ∈ language es, u ++ v = w := by
  rw [language, map_cons, prod_cons]
  exact Language.mem_mul

/-- An element other than `*` stands for one character. -/
theorem Element.exists_of_mem_language (he : e ≠ .anySequence) (h : w ∈ e.language) :
    ∃ c, w = [c] := by
  cases e with
  | any => exact h
  | anySequence => exact absurd rfl he
  | oneOf negated ranges =>
    obtain ⟨c, hc, -⟩ := h
    exact ⟨c, hc⟩
  | char c => exact ⟨c, h⟩

theorem mem_language_cons_of_ne (he : e ≠ .anySequence) :
    w ∈ language (e :: es) ↔ ∃ c v, w = c :: v ∧ [c] ∈ e.language ∧ v ∈ language es := by
  rw [mem_language_cons]
  constructor
  · rintro ⟨u, hu, v, hv, rfl⟩
    obtain ⟨c, rfl⟩ := e.exists_of_mem_language he hu
    exact ⟨c, v, rfl, hu, hv⟩
  · rintro ⟨c, v, rfl, hc, hv⟩
    exact ⟨[c], hc, v, hv, rfl⟩

/-- Only a sequence of `*` stands for the empty word. -/
theorem nil_mem_language_iff : [] ∈ language es ↔ ∀ e ∈ es, e = .anySequence := by
  induction es with
  | nil => simp
  | cons e es ih =>
    by_cases he : e = .anySequence
    · subst he
      simp only [mem_language_cons, append_eq_nil_iff, forall_mem_cons, true_and, ← ih]
      constructor
      · rintro ⟨u, -, v, hv, -, rfl⟩
        exact hv
      · exact fun h => ⟨[], trivial, [], h, rfl, rfl⟩
    · rw [mem_language_cons_of_ne he, forall_mem_cons]
      simp [he]

theorem mem_language_anySequence_cons :
    w ∈ language (.anySequence :: es) ↔ ∃ u v, w = u ++ v ∧ v ∈ language es := by
  rw [mem_language_cons]
  constructor
  · rintro ⟨u, -, v, hv, rfl⟩
    exact ⟨u, v, rfl, hv⟩
  · rintro ⟨u, v, rfl, hv⟩
    exact ⟨u, trivial, v, hv, rfl⟩

end Words

variable {c : UInt8} (matched : Bool)

/-! ## Classes -/

variable {d : UInt8}

theorem signedChar_inj : signedChar c = signedChar d ↔ c = d := by
  rw [signedChar, signedChar, BitVec.toInt_inj, UInt8.toBitVec_inj]

theorem listed_nil : ¬Listed [] c := by simp [Listed]

theorem listed_cons {r : UInt8 × UInt8} {ranges : List (UInt8 × UInt8)} :
    Listed (r :: ranges) c ↔
      (signedChar r.1 ≤ signedChar c ∧ signedChar c ≤ signedChar r.2) ∨ Listed ranges c := by
  simp [Listed]

theorem between_self_iff : signedChar c ≤ signedChar d ∧ signedChar d ≤ signedChar c ↔ d = c := by
  rw [← signedChar_inj]
  omega

variable (ch : UInt8)

theorem matchClass_close (p : List UInt8) (matched : Bool) :
    matchClass ch (93 :: p) matched = some (matched, p) := by
  rcases p with _ | ⟨c, _ | ⟨d, p⟩⟩ <;> simp [matchClass]

/-- A character that starts no range is compared. -/
theorem matchClass_char {ch : UInt8} {p : List UInt8} (hc : c ≠ 93)
    (hrange : ∀ d q, p = 45 :: d :: q → d = 93) :
    matchClass ch (c :: p) matched = matchClass ch p (matched || ch == c) := by
  rcases p with _ | ⟨dash, _ | ⟨d, q⟩⟩
  · simp [matchClass, hc]
  · simp [matchClass, hc]
  · have hdash : ¬(dash = 45 ∧ d ≠ 93) := fun ⟨hdash, hd⟩ => hd (hrange d q (by rw [hdash]))
    rw [matchClass, if_neg hc, if_neg hdash]

variable {body : List UInt8}

/-- The loop over a class ends at the first closing bracket, having compared the character
    with what is listed before it. -/
theorem matchClass_eq (p : List UInt8) (matched : Bool)
    (hbody : 93 ∉ body) : ∃ hit, matchClass ch (body ++ 93 :: p) matched = some (hit, p) ∧
      (hit = true ↔ matched = true ∨ Listed (classRanges body) ch) := by
  fun_induction classRanges body generalizing matched with
  | case1 c₁ c₂ body ih =>
    simp only [mem_cons, not_or] at hbody
    obtain ⟨hit, hmatch, hiff⟩ := ih (matched ||
      decide (signedChar c₁ ≤ signedChar ch ∧ signedChar ch ≤ signedChar c₂)) hbody.2.2.2
    refine ⟨hit, ?_, ?_⟩
    · rw [cons_append, cons_append, cons_append, matchClass,
        if_neg (Ne.symm hbody.1), if_pos ⟨rfl, Ne.symm hbody.2.2.1⟩]
      exact hmatch
    · rw [hiff, listed_cons, Bool.or_eq_true, decide_eq_true_eq, or_assoc]
  | case2 c₁ dash c₂ body hdash ih =>
    obtain ⟨hc, hrest⟩ := not_or.1 (mem_cons.not.1 hbody)
    obtain ⟨hit, hmatch, hiff⟩ := ih (matched || ch == c₁) hrest
    refine ⟨hit, ?_, ?_⟩
    · rw [cons_append, matchClass_char _ (Ne.symm hc)]
      · exact hmatch
      · intro d q hq
        exact absurd (cons.inj hq).1 hdash
    · rw [hiff, listed_cons, Bool.or_eq_true, beq_iff_eq, or_assoc, between_self_iff]
  | case3 c body hshort ih =>
    obtain ⟨hc, hrest⟩ := not_or.1 (mem_cons.not.1 hbody)
    obtain ⟨hit, hmatch, hiff⟩ := ih (matched || ch == c) hrest
    refine ⟨hit, ?_, ?_⟩
    · rw [cons_append, matchClass_char _ (Ne.symm hc)]
      · exact hmatch
      · -- The closing bracket follows too soon for a range.
        intro d q hq
        rcases body with _ | ⟨dash, _ | ⟨e, body⟩⟩
        · simp at hq
        · simp only [cons_append, nil_append, cons.injEq] at hq
          exact hq.2.1.symm
        · exact (hshort dash e body rfl).elim
    · rw [hiff, listed_cons, Bool.or_eq_true, beq_iff_eq, or_assoc, between_self_iff]
  | case4 =>
    refine ⟨matched, matchClass_close ch p matched, ?_⟩
    simp [listed_nil]

/-- The character is compared with the class. -/
theorem matchCharClass_eq (p : List UInt8)
    (hbody : 93 ∉ body) : ∃ hit, matchCharClass ch (body ++ 93 :: p) = some (hit, p) ∧
      (hit = true ↔ [ch] ∈ (classElement body).language) := by
  have hmem (negated : Bool) (ranges : List (UInt8 × UInt8)) :
      [ch] ∈ (Element.oneOf negated ranges).language ↔ (Listed ranges ch ↔ negated = false) := by
    refine ⟨fun ⟨c, hc, hlisted⟩ => ?_, fun h => ⟨ch, rfl, h⟩⟩
    rwa [singleton_inj.1 hc]
  rcases body with _ | ⟨c, body⟩
  · refine ⟨false, matchClass_close ch p false, ?_⟩
    simp [classElement, hmem, listed_nil]
  · by_cases hneg : c = 33
    · subst hneg
      obtain ⟨hit, hmatch, hiff⟩ := matchClass_eq ch p false
        (fun h => hbody (mem_cons_of_mem _ h))
      refine ⟨!hit, ?_, ?_⟩
      · rw [cons_append, matchCharClass, hmatch, Option.map_some]
      · rw [classElement, if_pos rfl, hmem]
        simpa using hiff.not
    · obtain ⟨hit, hmatch, hiff⟩ := matchClass_eq ch p false hbody
      refine ⟨hit, ?_, ?_⟩
      · rw [cons_append, matchCharClass, ← hmatch, cons_append]
        intro p' hp'
        exact hneg (cons.inj hp').1
      · rw [classElement, if_neg hneg, hmem]
        simpa using hiff

/-! ## The matcher, element by element -/

section Match

variable {q : List UInt8} (a : List UInt8)

theorem oscPatternMatch_nil : oscPatternMatch [] a = true ↔ a = [] :=
  isEmpty_iff

/-- A character of the pattern other than `*` that opens neither a class nor an
    alternation. -/
theorem oscPatternMatch_char (hclass : c ≠ 91) (hbrace : c ≠ 123) (hstar : c ≠ 42)
    (a : List UInt8) : oscPatternMatch (c :: p) a = true ↔
      ∃ b a', a = b :: a' ∧ [b] ∈ (charElement c).language ∧ oscPatternMatch p a' = true := by
  rw [oscPatternMatch, length_cons, charElement]
  cases a with
  | nil => simp [patternMatchImpl, hclass, hbrace, hstar]
  | cons b a =>
    rw [patternMatchImpl, if_neg hstar, if_neg hstar, if_neg hclass, if_neg hbrace]
    by_cases hany : c = 63
    · have hb : [b] ∈ Element.any.language := ⟨b, rfl⟩
      simp [hany, hb, oscPatternMatch]
    · have hb : [b] ∈ (Element.char c).language ↔ b = c := singleton_inj
      simp [hany, hb, oscPatternMatch]

/-- A class that is closed. -/
theorem oscPatternMatch_class {body : List UInt8} (hbody : 93 ∉ body) (a : List UInt8) :
    oscPatternMatch (91 :: (body ++ 93 :: p)) a = true ↔
      ∃ b a', a = b :: a' ∧ [b] ∈ (classElement body).language ∧ oscPatternMatch p a' = true := by
  rw [oscPatternMatch, length_cons]
  cases a with
  | nil => simp [patternMatchImpl]
  | cons b a =>
    rw [patternMatchImpl, if_neg (by decide), if_neg (by decide), if_pos rfl]
    obtain ⟨hit, hmatch, hiff⟩ := matchCharClass_eq b p hbody
    have hfuel : patternMatchImpl ((body ++ 93 :: p).length + 1) p a = oscPatternMatch p a :=
      patternMatchImpl_eq (by simp; omega) a
    cases hit with
    | true =>
      simp only [hmatch, hfuel]
      simp [hiff.1 rfl]
    | false => simp [hmatch, hiff.not.1 (by decide)]

theorem any_tails_iff {a : List UInt8} {f : List UInt8 → Bool} :
    a.tails.any f = true ↔ ∃ u v, a = u ++ v ∧ f v = true := by
  simp only [any_eq_true, mem_tails]
  constructor
  · rintro ⟨v, ⟨u, rfl⟩, hv⟩
    exact ⟨u, v, rfl, hv⟩
  · rintro ⟨u, v, rfl, hv⟩
    exact ⟨v, ⟨u, rfl⟩, hv⟩

theorem oscPatternMatch_star_eq :
    oscPatternMatch (42 :: p) a = if (p.dropWhile (· == 42)).isEmpty then true else
      a.tails.any fun a' => !a'.isEmpty && oscPatternMatch (p.dropWhile (· == 42)) a' := by
  have hle := length_dropWhile_le (· == 42) p
  have hfuel (a : List UInt8) : patternMatchImpl (p.length + 1) (p.dropWhile (· == 42)) a =
      oscPatternMatch (p.dropWhile (· == 42)) a := patternMatchImpl_eq (by omega) a
  rw [oscPatternMatch, length_cons]
  simp only [patternMatchImpl, hfuel]
  rw [if_neg (by decide), if_pos trivial]

/-- What follows a `*` is tried at every position of the address, but at its end only if it is
    a sequence of `*`. -/
theorem oscPatternMatch_star : oscPatternMatch (42 :: p) a = true ↔
    ∃ u v, a = u ++ v ∧ oscPatternMatch p v = true ∧ ((∃ c ∈ p, c ≠ 42) → v ≠ []) := by
  have hstars (p : List UInt8) (h : ∀ c ∈ p, c = 42) : (p.dropWhile (· == 42)).isEmpty = true := by
    simpa [dropWhile_eq_nil_iff] using h
  by_cases hall : ∀ c ∈ p, c = 42
  · rw [oscPatternMatch_star_eq, if_pos (hstars p hall)]
    refine iff_of_true rfl ⟨a, [], by simp, ?_, fun ⟨c, hc, hne⟩ => absurd (hall c hc) hne⟩
    cases p with
    | nil => rfl
    | cons c p =>
      obtain ⟨rfl, hrest⟩ := forall_mem_cons.1 hall
      rw [oscPatternMatch_star_eq, if_pos (hstars p hrest)]
  have hdrop {p : List UInt8} (h : ¬∀ c ∈ p, c = 42) (a : List UInt8) :
      oscPatternMatch (42 :: p) a = true ↔
        ∃ u v, a = u ++ v ∧ v ≠ [] ∧ oscPatternMatch (p.dropWhile (· == 42)) v = true := by
    rw [oscPatternMatch_star_eq, if_neg (by simpa [dropWhile_eq_nil_iff] using h), any_tails_iff]
    simp
  have hmore : ∃ c ∈ p, c ≠ 42 := by simpa using hall
  rw [hdrop hall]
  cases p with
  | nil => exact absurd (fun _ => nofun) hall
  | cons c p =>
    by_cases hc : c = 42
    · -- Another `*`, which may take a part of the address too.
      subst hc
      have hall' : ¬∀ c ∈ p, c = 42 := fun h => hall (forall_mem_cons.2 ⟨rfl, h⟩)
      rw [dropWhile_cons_of_pos rfl]
      simp only [hdrop hall']
      constructor
      · rintro ⟨u, v, rfl, hv, hmatch⟩
        exact ⟨u, v, rfl, ⟨[], v, rfl, hv, hmatch⟩, fun _ => hv⟩
      · rintro ⟨u, v, rfl, ⟨u', v', rfl, hv', hmatch⟩, -⟩
        exact ⟨u ++ u', v', by simp, hv', hmatch⟩
    · rw [dropWhile_cons_of_neg (by simpa using hc)]
      constructor
      · rintro ⟨u, v, rfl, hv, hmatch⟩
        exact ⟨u, v, rfl, hmatch, fun _ => hv⟩
      · rintro ⟨u, v, rfl, hmatch, hv⟩
        exact ⟨u, v, rfl, hv hmore, hmatch⟩

theorem getLast?_cons_of_ne {x c : UInt8} (hc : c ≠ x) :
    (c :: p).getLast? = some x ↔ p.getLast? = some x := by
  rcases eq_nil_or_concat p with rfl | ⟨p, d, rfl⟩
  · simp [hc]
  · rw [concat_eq_append, ← cons_append, getLast?_concat, getLast?_concat]

theorem classElement_ne (body : List UInt8) : classElement body ≠ .anySequence := by
  cases body with
  | nil => simp [classElement]
  | cons c body =>
    rw [classElement]
    split_ifs <;> simp

theorem charElement_ne (hc : c ≠ 42) : charElement c ≠ .anySequence := by
  rw [charElement, if_neg hc]
  split_ifs <;> simp

theorem classElement_ne_char (body : List UInt8) (c : UInt8) : classElement body ≠ .char c := by
  cases body with
  | nil => simp [classElement]
  | cons d body =>
    rw [classElement]
    split_ifs <;> simp

theorem eq_of_charElement {d : UInt8} (h : charElement c = .char d) : c = d := by
  unfold charElement at h
  split_ifs at h
  exact Element.char.inj h

variable {e : Element}

/-- Only a sequence of `*` stands for the empty word. -/
theorem Reads.stars_of_nil_mem (h : Reads p es) (hnil : [] ∈ language es) : ∀ c ∈ p, c = 42 := by
  rw [nil_mem_language_iff] at hnil
  induction h with
  | nil => nofun
  | oneOf hbody _ _ => exact absurd (hnil _ mem_cons_self) (classElement_ne _)
  | @char c p es hc _ ih =>
    refine forall_mem_cons.2 ⟨?_, ih fun e he => hnil e (mem_cons_of_mem _ he)⟩
    exact not_not.1 fun hne => charElement_ne hne (hnil _ mem_cons_self)

/-- What the matcher does at an element other than `*`, and what follows it. -/
theorem exists_split_cons (he : e ≠ .anySequence) {a : List UInt8} {P : List UInt8 → Prop} :
    (∃ b a', a = b :: a' ∧ [b] ∈ e.language ∧ ∃ u v, a' = u ++ v ∧ u ∈ language es ∧ P v) ↔
      ∃ u v, a = u ++ v ∧ u ∈ language (e :: es) ∧ P v := by
  simp only [mem_language_cons_of_ne he]
  constructor
  · rintro ⟨b, a', rfl, hb, u, v, rfl, hu, hv⟩
    exact ⟨b :: u, v, rfl, ⟨b, u, rfl, hb, hu⟩, hv⟩
  · rintro ⟨u, v, rfl, ⟨b, u', rfl, hb, hu'⟩, hv⟩
    exact ⟨b, u' ++ v, rfl, hb, u', v, rfl, hu', hv⟩

theorem charElement_eq_brace : charElement 123 = .char 123 := by decide

/-- A `*` and the part that follows it: the `*` takes some of the address first. -/
theorem exists_split_star (h : Reads p es) {a : List UInt8} {P : List UInt8 → Prop} :
    (∃ w a', a = w ++ a' ∧ (∃ u v, a' = u ++ v ∧ u ∈ language es ∧ P v ∧
        (p.getLast? = some 42 → (∃ c ∈ q, c ≠ 42) → v ≠ [])) ∧
          ((∃ c ∈ p ++ q, c ≠ 42) → a' ≠ [])) ↔
      ∃ u v, a = u ++ v ∧ u ∈ language (.anySequence :: es) ∧ P v ∧
        ((42 :: p).getLast? = some 42 → (∃ c ∈ q, c ≠ 42) → v ≠ []) := by
  simp only [mem_language_anySequence_cons]
  constructor
  · rintro ⟨w, _, rfl, ⟨u, v, rfl, hu, hv, hlast⟩, hmore⟩
    refine ⟨w ++ u, v, by simp, ⟨w, u, rfl, hu⟩, hv, fun hlast' hq => ?_⟩
    cases p with
    | nil =>
      obtain ⟨c, hc, hne⟩ := hq
      cases h
      rw [mem_language_nil.1 hu] at hmore
      exact hmore ⟨c, hc, hne⟩
    | cons c p => exact hlast (getLast?_cons_cons.symm.trans hlast') hq
  · rintro ⟨_, v, rfl, ⟨w, u, rfl, hu⟩, hv, hlast⟩
    have hlast' : p.getLast? = some 42 → (42 :: p).getLast? = some 42 := by
      cases p with
      | nil => nofun
      | cons c p => exact getLast?_cons_cons.trans
    refine ⟨w, u ++ v, by simp, ⟨u, v, rfl, hu, hv, hlast ∘ hlast'⟩, ?_⟩
    -- Nothing is left of the address only where `*` are all that is left of the part.
    rintro ⟨c, hc, hne⟩ hnil
    obtain ⟨rfl, rfl⟩ := append_eq_nil_iff.1 hnil
    have hstars := h.stars_of_nil_mem hu
    rcases mem_append.1 hc with hc | hc
    · exact hne (hstars c hc)
    · have hstars' : ∀ d ∈ 42 :: p, d = 42 := forall_mem_cons.2 ⟨rfl, hstars⟩
      refine hlast ?_ ⟨c, hc, hne⟩ rfl
      rw [getLast?_eq_some_getLast (cons_ne_nil _ _), hstars' _ (getLast_mem _)]

/-- The matcher goes through a part of the pattern without alternations, and on with what
    follows it. After a `*`, and before more than `*`, something has to be left of the
    address. -/
theorem oscPatternMatch_append (h : Reads p es) (hbrace : .char 123 ∉ es) (q a : List UInt8) :
    oscPatternMatch (p ++ q) a = true ↔
      ∃ u v, a = u ++ v ∧ u ∈ language es ∧ oscPatternMatch q v = true ∧
        (p.getLast? = some 42 → (∃ c ∈ q, c ≠ 42) → v ≠ []) := by
  induction h generalizing a with
  | nil => simp
  | @oneOf body p es hbody _ ih =>
    have hlast : (91 :: (body ++ 93 :: p)).getLast? = some 42 ↔ p.getLast? = some 42 := by
      rw [getLast?_cons_of_ne (by decide), getLast?_append_of_ne_nil _ (by simp),
        getLast?_cons_of_ne (by decide)]
    rw [cons_append, append_assoc, cons_append, oscPatternMatch_class hbody, hlast,
      ← exists_split_cons (classElement_ne body)]
    simp only [ih (fun h => hbrace (mem_cons_of_mem _ h))]
  | @char c p es hclass hread ih =>
    have hp := ih fun h => hbrace (mem_cons_of_mem _ h)
    by_cases hstar : c = 42
    · subst hstar
      rw [cons_append, oscPatternMatch_star]
      simp only [hp]
      exact exists_split_star hread
    · have hopen : c ≠ 123 := fun h => hbrace (by rw [h, charElement_eq_brace]; exact mem_cons_self)
      rw [cons_append, oscPatternMatch_char hclass hopen hstar,
        getLast?_cons_of_ne hstar, ← exists_split_cons (charElement_ne hstar)]
      simp only [hp]

theorem Reads.brace_notMem (h : Reads p es) (hbrace : 123 ∉ p) : .char 123 ∉ es := by
  induction h with
  | nil => nofun
  | @oneOf body p es hbody _ ih =>
    intro hmem
    rcases mem_cons.1 hmem with hclass | hmem
    · exact classElement_ne_char body 123 hclass.symm
    · exact ih (fun h => hbrace (by simp [h])) hmem
  | @char c p es hc _ ih =>
    intro hmem
    rcases mem_cons.1 hmem with hchar | hmem
    · exact hbrace (by simp [eq_of_charElement hchar.symm])
    · exact ih (fun h => hbrace (by simp [h])) hmem

/-- The matcher accepts the language of the elements. -/
theorem oscPatternMatch_iff_of_reads (h : Reads p es) (hbrace : 123 ∉ p) (a : List UInt8) :
    oscPatternMatch p a = true ↔ a ∈ language es := by
  have happend := oscPatternMatch_append h (h.brace_notMem hbrace) [] a
  rw [append_nil] at happend
  rw [happend]
  constructor
  · rintro ⟨u, v, rfl, hu, hv, -⟩
    rwa [(oscPatternMatch_nil v).1 hv, append_nil]
  · exact fun h => ⟨a, [], by simp, h, rfl, by simp⟩

end Match

/-- The matcher accepts the language of a pattern without braces whose classes are closed. -/
theorem oscPatternMatch_iff (pattern address : CStr) (hbraces : BraceFree pattern.bytes)
    (hclosed : ClassesClosed pattern.bytes) :
    oscPatternMatch pattern.bytes address.bytes = true ↔
      address.bytes ∈ patternLanguage pattern.bytes := by
  obtain ⟨es, hes⟩ := Option.isSome_iff_exists.1 hclosed
  rw [patternLanguage, hes, Option.getD_some]
  exact oscPatternMatch_iff_of_reads (reads_of_elements hes) hbraces.1 _

/-- The pattern `/[!a-c]*x?` and the address `/d/xy`. -/
theorem oscPatternMatch_iff_class :
    oscPatternMatch [47, 91, 33, 97, 45, 99, 93, 42, 120, 63] [47, 100, 47, 120, 121] = true ∧
      (oscPatternMatch [47, 91, 33, 97, 45, 99, 93, 42, 120, 63] [47, 100, 47, 120, 121] = true ↔
        [47, 100, 47, 120, 121] ∈ patternLanguage [47, 91, 33, 97, 45, 99, 93, 42, 120, 63]) :=
  ⟨by decide +kernel, oscPatternMatch_iff ⟨[47, 91, 33, 97, 45, 99, 93, 42, 120, 63], by decide⟩
    ⟨[47, 100, 47, 120, 121], by decide⟩ (by decide) (by decide)⟩

end WKOpenVR.Osc
