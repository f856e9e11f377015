import WKOpenVR.Text

/-!
# JSON

The values of JSON, and a reader of texts by recursive descent: it skips white space,
reads one value, and does not look at what follows it. Of an object, all fields are kept, of
which the last one with a name counts (`Value.field?`). The recursion has fuel, of which two
for each character suffice (`parse`).

What has been read is read again if the text goes on (`read_append`), as a value that is not
a number shows its end: a text that was cut off is read to nothing else than the whole text
(`parse_of_prefix`). Texts written without white space are read back (`Writes`); `writes_bool`,
`writes_number`, `writes_string`, `writes_array` and `writes_object` put them together.
-/

namespace WKOpenVR.Json

open Text List Option

inductive Value
  | null
  | bool (b : Bool)
  /-- A number, by its text. -/
  | number (text : List UInt8)
  | string (text : List UInt8)
  | array (items : List Value)
  | object (fields : List (List UInt8 × Value))

/-! ## Characters -/

variable (c : UInt8)

def isWhite : Bool := decide (c = 32 ∨ c = 9 ∨ c = 10 ∨ c = 13)

variable (t : List UInt8)

def skipWs : List UInt8 := t.dropWhile isWhite

/-- What follows a character that is expected next. -/
def expect : Option (List UInt8) :=
  match skipWs t with
  | [] => none
  | d :: t => if d = c then some t else none

/-- What follows a word that is expected next. -/
def expectWord (word t : List UInt8) : Option (List UInt8) :=
  if word.isPrefixOf t then some (t.drop word.length) else none

/-! ## Strings -/

def hexValue : Option ℕ :=
  if isDigit c then some (c.toNat - 48)
  else if 65 ≤ c ∧ c ≤ 70 then some (c.toNat - 55)
  else if 97 ≤ c ∧ c ≤ 102 then some (c.toNat - 87)
  else none

def quadHex : List UInt8 → Option (ℕ × List UInt8)
  | a :: b :: c :: d :: t => do
    let a ← hexValue a
    let b ← hexValue b
    let c ← hexValue c
    let d ← hexValue d
    return (((a * 16 + b) * 16 + c) * 16 + d, t)
  | _ => none

/-- The bytes of an escaped code point, which may be a pair of surrogates. -/
def codepoint : Option (List UInt8 × List UInt8) := do
  let (u, t) ← quadHex t
  if 0xD800 ≤ u ∧ u ≤ 0xDFFF then
    if 0xDC00 ≤ u then none
    else
      let t ← expectWord [92, 117] t
      let (v, t) ← quadHex t
      if 0xDC00 ≤ v ∧ v ≤ 0xDFFF then
        return (utf8 (0x10000 + (u - 0xD800) * 1024 + (v - 0xDC00)), t)
      else none
  else return (utf8 u, t)

/-- What an escape stands for, after its backslash. -/
def escape : List UInt8 → Option (List UInt8 × List UInt8)
  | [] => none
  | c :: t =>
    if c = 34 ∨ c = 92 ∨ c = 47 then some ([c], t)
    else if c = 98 then some ([8], t)
    else if c = 102 then some ([12], t)
    else if c = 110 then some ([10], t)
    else if c = 114 then some ([13], t)
    else if c = 116 then some ([9], t)
    else if c = 117 then codepoint t
    else none

/-- A string, after its opening quote. -/
def readString : ℕ → List UInt8 → Option (List UInt8 × List UInt8)
  | 0, _ => none
  | _ + 1, [] => none
  | fuel + 1, c :: t =>
    if c < 32 then none
    else if c = 34 then some ([], t)
    else if c = 92 then do
      let (bs, t) ← escape t
      let (s, t) ← readString fuel t
      return (bs ++ s, t)
    else do
      let (s, t) ← readString fuel t
      return (c :: s, t)

/-! ## Numbers -/

def isNumberChar : Bool :=
  isDigit c || decide (c = 43 ∨ c = 45 ∨ c = 46 ∨ c = 69 ∨ c = 101)

def dropSign : List UInt8 :=
  match t with
  | [] => []
  | c :: rest => if c = 43 ∨ c = 45 then rest else t

/-- An exponent, or nothing. -/
def isExponent : List UInt8 → Bool
  | [] => true
  | c :: t =>
    decide (c = 69 ∨ c = 101) && !(dropSign t).isEmpty && (dropSign t).all isDigit

/-- The whole text is a number for `strtod`. -/
def isNumber : Bool :=
  let t := dropSign t
  let rest := t.dropWhile isDigit
  match rest with
  | [] => !t.isEmpty
  | c :: fraction =>
    if c = 46 then
      (decide (rest.length < t.length) || !(fraction.takeWhile isDigit).isEmpty) &&
        isExponent (fraction.dropWhile isDigit)
    else decide (rest.length < t.length) && isExponent rest

/-! ## Values -/

mutual

def readValue : ℕ → List UInt8 → Option (Value × List UInt8)
  | 0, _ => none
  | fuel + 1, t =>
    match skipWs t with
    | [] => none
    | c :: t =>
      if c = 110 then (expectWord [117, 108, 108] t).map fun t => (.null, t)
      else if c = 102 then (expectWord [97, 108, 115, 101] t).map fun t => (.bool false, t)
      else if c = 116 then (expectWord [114, 117, 101] t).map fun t => (.bool true, t)
      else if c = 34 then (readString fuel t).map fun r => (.string r.1, r.2)
      else if c = 91 then
        match expect 93 t with
        | some t => some (.array [], t)
        | none => (readItems fuel t).map fun r => (.array r.1, r.2)
      else if c = 123 then
        match expect 125 t with
        | some t => some (.object [], t)
        | none => (readFields fuel t).map fun r => (.object r.1, r.2)
      else if isDigit c || c == 45 then
        if isNumber ((c :: t).takeWhile isNumberChar) then
          some (.number ((c :: t).takeWhile isNumberChar), (c :: t).dropWhile isNumberChar)
        else none
      else none

/-- The items of an array, with its closing bracket. -/
def readItems : ℕ → List UInt8 → Option (List Value × List UInt8)
  | 0, _ => none
  | fuel + 1, t => do
    let (v, t) ← readValue fuel t
    match expect 44 t with
    | some t => do
      let (vs, t) ← readItems fuel t
      return (v :: vs, t)
    | none => do
      let t ← expect 93 t
      return ([v], t)

/-- The fields of an object, with its closing brace. -/
def readFields : ℕ → List UInt8 → Option (List (List UInt8 × Value) × List UInt8)
  | 0, _ => none
  | fuel + 1, t => do
    let t ← expect 34 t
    let (name, t) ← readString fuel t
    let t ← expect 58 t
    let (v, t) ← readValue fuel t
    match expect 44 t with
    | some t => do
      let (fields, t) ← readFields fuel t
      return ((name, v) :: fields, t)
    | none => do
      let t ← expect 125 t
      return ([(name, v)], t)

end

/-- The value at the start of a text. -/
def parse (t : List UInt8) : Option Value := (readValue (2 * t.length + 2) t).map Prod.fst

/-- The field of an object: the last one with the name. -/
def Value.field? (name : List UInt8) : Value → Option Value
  | .object fields => (fields.reverse.find? fun field => field.1 == name).map Prod.snd
  | _ => none

/-! ## A text that goes on -/

section Append

variable {t rest : List UInt8} {c d : UInt8} (u : List UInt8)

theorem skipWs_append (h : skipWs t = c :: rest) : skipWs (t ++ u) = c :: (rest ++ u) := by
  unfold skipWs at h ⊢
  rw [dropWhile_append, h]
  rfl

theorem skipWs_of_expect (h : expect c t = some rest) : skipWs t = c :: rest := by
  unfold expect at h
  split at h
  · cases h
  · rename_i d t₁ hskip
    split_ifs at h with hd
    cases h
    rw [hskip, hd]

theorem expect_append (h : expect c t = some rest) : expect c (t ++ u) = some (rest ++ u) := by
  rw [expect, skipWs_append u (skipWs_of_expect h)]
  exact if_pos rfl

/-- Another character is expected in vain, also if the text goes on. -/
theorem expect_append_none (h : expect c t = some rest) (hd : c ≠ d) :
    expect d (t ++ u) = none := by
  rw [expect, skipWs_append u (skipWs_of_expect h)]
  exact if_neg hd

theorem expect_append_none_of_skipWs (h : expect c t = none) (hd : skipWs t = d :: rest) :
    expect c (t ++ u) = none := by
  rw [expect, hd] at h
  rw [expect, skipWs_append u hd]
  dsimp only at h ⊢
  split_ifs at h ⊢
  rfl

theorem ne_nil_of_expect (h : expect c t = some rest) : t ≠ [] := by
  rintro rfl
  cases h

theorem expectWord_append {word : List UInt8} (h : expectWord word t = some rest) :
    expectWord word (t ++ u) = some (rest ++ u) := by
  unfold expectWord at h ⊢
  split_ifs at h with hword
  cases h
  obtain ⟨t₁, rfl⟩ := isPrefixOf_iff_prefix.1 hword
  simp

theorem quadHex_append {n : ℕ} (h : quadHex t = some (n, rest)) :
    quadHex (t ++ u) = some (n, rest ++ u) := by
  unfold quadHex at h
  split at h
  · rename_i a b c d t₁
    simp only [bind_eq_bind, bind_eq_some_iff, Option.pure_def, Option.some.injEq,
      Prod.mk.injEq] at h
    obtain ⟨a', ha, b', hb, c', hc, d', hd, rfl, rfl⟩ := h
    simp [quadHex, ha, hb, hc, hd]
  · cases h

theorem codepoint_append {bs : List UInt8} (h : codepoint t = some (bs, rest)) :
    codepoint (t ++ u) = some (bs, rest ++ u) := by
  simp only [codepoint, bind_eq_bind, bind_eq_some_iff, Prod.exists] at h
  obtain ⟨n, t₁, hquad, h⟩ := h
  simp only [codepoint, quadHex_append u hquad, bind_eq_bind, bind_some]
  split_ifs at h ⊢
  · simp only [bind_eq_some_iff, Prod.exists] at h
    obtain ⟨t₂, hword, v, t₃, hquad₂, h⟩ := h
    simp only [expectWord_append u hword, quadHex_append u hquad₂, bind_some]
    split_ifs at h ⊢
    simp only [Option.pure_def, Option.some.injEq, Prod.mk.injEq] at h ⊢
    exact ⟨h.1, by rw [h.2]⟩
  · cases h
    rfl

theorem escape_append {bs : List UInt8} (h : escape t = some (bs, rest)) :
    escape (t ++ u) = some (bs, rest ++ u) := by
  cases t with
  | nil => cases h
  | cons c t =>
    simp only [escape, cons_append] at h ⊢
    split_ifs at h ⊢
    all_goals first
      | exact codepoint_append u h
      | cases h; rfl

theorem readString_append {fuel fuel' : ℕ} {s : List UInt8} (hle : fuel ≤ fuel')
    (h : readString fuel t = some (s, rest)) : readString fuel' (t ++ u) = some (s, rest ++ u) := by
  induction fuel generalizing fuel' t s with
  | zero => cases h
  | succ fuel ih =>
    obtain ⟨f, rfl⟩ : ∃ f, fuel' = f + 1 := ⟨fuel' - 1, by omega⟩
    cases t with
    | nil => cases h
    | cons c t =>
      simp only [readString, cons_append, bind_eq_bind, Option.pure_def] at h ⊢
      split_ifs at h ⊢
      · cases h
        rfl
      · simp only [bind_eq_some_iff, Prod.exists, Option.some.injEq, Prod.mk.injEq] at h
        obtain ⟨bs, t₁, hescape, s₁, t₂, hread, rfl, rfl⟩ := h
        simp [escape_append u hescape, ih (Nat.le_of_succ_le_succ hle) hread]
      · simp only [bind_eq_some_iff, Prod.exists, Option.some.injEq, Prod.mk.injEq] at h
        obtain ⟨s₁, t₁, hread, rfl, rfl⟩ := h
        simp [ih (Nat.le_of_succ_le_succ hle) hread]

/-- A number that has been read ends at a character that cannot continue it. -/
theorem takeWhile_append_of_rest {p : UInt8 → Bool} (h : t.dropWhile p ≠ []) :
    (t ++ u).takeWhile p = t.takeWhile p ∧ (t ++ u).dropWhile p = t.dropWhile p ++ u := by
  induction t with
  | nil => exact absurd rfl h
  | cons c t ih =>
    by_cases hc : p c
    · simp only [dropWhile_cons_of_pos hc] at h
      simp [hc, ih h]
    · simp [hc]

/-- A value that has been read need not be the same if the text goes on: a number may have more
digits. -/
def Ends (v : Value) (rest : List UInt8) : Prop := ∀ n, v = .number n → rest ≠ []

theorem ends_of_expect {v : Value} (h : expect c t = some rest) : Ends v t :=
  fun _ _ => ne_nil_of_expect h

/-- The reader `read'` reads what `read` reads from a text also if the text goes on. -/
def Extends {α : Type} (ends : α → List UInt8 → Prop)
    (read read' : List UInt8 → Option (α × List UInt8)) : Prop :=
  ∀ t a rest, read t = some (a, rest) → ends a rest → read' (t ++ u) = some (a, rest ++ u)

section Step

variable {fuel fuel' : ℕ}

theorem readItems_append_step
    (hvalue : Extends u Ends (readValue fuel) (readValue fuel'))
    (hitems : Extends u (fun _ _ => True) (readItems fuel) (readItems fuel')) :
    Extends u (fun _ _ => True) (readItems (fuel + 1)) (readItems (fuel' + 1)) := by
  intro t vs rest h _
  simp only [readItems, bind_eq_bind, bind_eq_some_iff, Prod.exists, Option.pure_def] at h
  obtain ⟨v, t₁, hv, h⟩ := h
  cases hcomma : expect 44 t₁ with
  | some t₂ =>
    simp only [hcomma, bind_eq_some_iff, Prod.exists, Option.some.injEq, Prod.mk.injEq] at h
    obtain ⟨vs, t₃, hvs, rfl, rfl⟩ := h
    simp [readItems, hvalue t v t₁ hv (ends_of_expect hcomma), expect_append u hcomma,
      hitems t₂ vs t₃ hvs trivial]
  | none =>
    simp only [hcomma, bind_eq_some_iff, Option.some.injEq, Prod.mk.injEq] at h
    obtain ⟨t₂, hclose, rfl, rfl⟩ := h
    simp [readItems, hvalue t v t₁ hv (ends_of_expect hclose), expect_append u hclose,
      expect_append_none u hclose (show (93 : UInt8) ≠ 44 by decide)]

theorem readFields_append_step (hle : fuel ≤ fuel')
    (hvalue : Extends u Ends (readValue fuel) (readValue fuel'))
    (hfields : Extends u (fun _ _ => True) (readFields fuel) (readFields fuel')) :
    Extends u (fun _ _ => True) (readFields (fuel + 1)) (readFields (fuel' + 1)) := by
  intro t vs rest h _
  simp only [readFields, bind_eq_bind, bind_eq_some_iff, Prod.exists, Option.pure_def] at h
  obtain ⟨t₁, hquote, name, t₂, hname, t₃, hcolon, v, t₄, hv, h⟩ := h
  cases hcomma : expect 44 t₄ with
  | some t₅ =>
    simp only [hcomma, bind_eq_some_iff, Prod.exists, Option.some.injEq, Prod.mk.injEq] at h
    obtain ⟨fs, t₆, hfs, rfl, rfl⟩ := h
    simp [readFields, expect_append u hquote, readString_append u hle hname,
      expect_append u hcolon, hvalue t₃ v t₄ hv (ends_of_expect hcomma), expect_append u hcomma,
      hfields t₅ fs t₆ hfs trivial]
  | none =>
    simp only [hcomma, bind_eq_some_iff, Option.some.injEq, Prod.mk.injEq] at h
    obtain ⟨t₅, hclose, rfl, rfl⟩ := h
    simp [readFields, expect_append u hquote, readString_append u hle hname,
      expect_append u hcolon, hvalue t₃ v t₄ hv (ends_of_expect hclose), expect_append u hclose,
      expect_append_none u hclose (show (125 : UInt8) ≠ 44 by decide)]

/-- Items start with a value, and not with the bracket that closes the array. -/
theorem skipWs_of_readItems {vs : List Value} (h : readItems fuel t = some (vs, rest)) :
    ∃ c t₁, skipWs t = c :: t₁ ∧ c ≠ 93 := by
  match fuel, hskip : skipWs t with
  | 0, _ => simp [readItems] at h
  | 1, _ => simp [readItems, readValue] at h
  | fuel + 2, [] => simp [readItems, readValue, hskip] at h
  | fuel + 2, c :: t₁ =>
    refine ⟨c, t₁, rfl, ?_⟩
    rintro rfl
    simp [readItems, readValue, hskip, isDigit] at h

/-- Fields start with the quote of a name. -/
theorem expect_of_readFields {fs : List (List UInt8 × Value)}
    (h : readFields fuel t = some (fs, rest)) : ∃ t₁, expect 34 t = some t₁ := by
  cases fuel with
  | zero => simp [readFields] at h
  | succ fuel =>
    simp only [readFields, bind_eq_bind, bind_eq_some_iff] at h
    obtain ⟨t₁, hquote, -⟩ := h
    exact ⟨t₁, hquote⟩

/-- A word that stands for a value. -/
theorem map_expectWord_append {word : List UInt8} {v w : Value}
    (h : (expectWord word t).map (w, ·) = some (v, rest)) :
    (expectWord word (t ++ u)).map (w, ·) = some (v, rest ++ u) := by
  simp only [map_eq_some_iff, Prod.mk.injEq] at h
  obtain ⟨t₂, hword, rfl, rfl⟩ := h
  rw [expectWord_append u hword, map_some]

theorem readValue_append_step (hle : fuel ≤ fuel')
    (hitems : Extends u (fun _ _ => True) (readItems fuel) (readItems fuel'))
    (hfields : Extends u (fun _ _ => True) (readFields fuel) (readFields fuel')) :
    Extends u Ends (readValue (fuel + 1)) (readValue (fuel' + 1)) := by
  intro t v rest h hends
  rw [readValue] at h ⊢
  cases hskip : skipWs t with
  | nil =>
    rw [hskip] at h
    cases h
  | cons c t₁ =>
    rw [hskip] at h
    rw [skipWs_append u hskip]
    dsimp only at h ⊢
    by_cases hnull : c = 110
    · rw [if_pos hnull] at h ⊢
      exact map_expectWord_append u h
    by_cases hfalse : c = 102
    · rw [if_neg hnull, if_pos hfalse] at h ⊢
      exact map_expectWord_append u h
    by_cases htrue : c = 116
    · rw [if_neg hnull, if_neg hfalse, if_pos htrue] at h ⊢
      exact map_expectWord_append u h
    simp only [if_neg hnull, if_neg hfalse, if_neg htrue] at h ⊢
    split_ifs at h with hstring harray hobject hdigit hnumber
    · rw [if_pos hstring]
      simp only [map_eq_some_iff, Prod.exists, Prod.mk.injEq] at h ⊢
      obtain ⟨s, t₂, hread, rfl, rfl⟩ := h
      exact ⟨s, t₂ ++ u, readString_append u hle hread, rfl, rfl⟩
    · rw [if_neg hstring, if_pos harray]
      cases hclose : expect 93 t₁ with
      | some t₂ =>
        rw [hclose] at h
        cases h
        rw [expect_append u hclose]
      | none =>
        -- An item was read, so there is something that is not the closing bracket.
        simp only [hclose, map_eq_some_iff, Prod.exists, Prod.mk.injEq] at h
        obtain ⟨vs, t₂, hread, rfl, rfl⟩ := h
        obtain ⟨d, t₃, hd, -⟩ := skipWs_of_readItems hread
        rw [expect_append_none_of_skipWs u hclose hd]
        simp [hitems t₁ vs t₂ hread trivial]
    · rw [if_neg hstring, if_neg harray, if_pos hobject]
      cases hclose : expect 125 t₁ with
      | some t₂ =>
        rw [hclose] at h
        cases h
        rw [expect_append u hclose]
      | none =>
        simp only [hclose, map_eq_some_iff, Prod.exists, Prod.mk.injEq] at h
        obtain ⟨fs, t₂, hread, rfl, rfl⟩ := h
        obtain ⟨t₃, hquote⟩ := expect_of_readFields hread
        rw [expect_append_none u hquote (show (34 : UInt8) ≠ 125 by decide)]
        simp [hfields t₁ fs t₂ hread trivial]
    · -- A number goes on as far as it can, and what follows it may not continue it.
      rw [if_neg hstring, if_neg harray, if_neg hobject, if_pos hdigit]
      cases h
      obtain ⟨htake, hdrop⟩ := takeWhile_append_of_rest u (hends _ rfl)
      rw [← cons_append, htake, hdrop, if_pos hnumber]

end Step

/-- What has been read is read with more fuel too, also if the text goes on. -/
theorem read_append {fuel fuel' : ℕ} (hle : fuel ≤ fuel') :
    Extends u Ends (readValue fuel) (readValue fuel') ∧
      Extends u (fun _ _ => True) (readItems fuel) (readItems fuel') ∧
        Extends u (fun _ _ => True) (readFields fuel) (readFields fuel') := by
  induction fuel generalizing fuel' with
  | zero =>
    refine ⟨?_, ?_, ?_⟩
    · intro t v rest h
      simp [readValue] at h
    · intro t vs rest h
      simp [readItems] at h
    · intro t fs rest h
      simp [readFields] at h
  | succ fuel ih =>
    obtain ⟨f, rfl⟩ : ∃ f, fuel' = f + 1 := ⟨fuel' - 1, by omega⟩
    have hle' := Nat.le_of_succ_le_succ hle
    obtain ⟨hvalue, hitems, hfields⟩ := ih hle'
    exact ⟨readValue_append_step u hle' hitems hfields, readItems_append_step u hvalue hitems,
      readFields_append_step u hle' hvalue hfields⟩

/-- A value at the start of a text is the value of every longer text, if it is no number. -/
theorem parse_of_prefix {t t' : List UInt8} {v : Value} (hstart : t <+: t') (h : parse t = some v)
    (hnumber : ∀ n, v ≠ .number n) : parse t' = some v := by
  obtain ⟨u, rfl⟩ := hstart
  obtain ⟨⟨v, rest⟩, hread, rfl⟩ := map_eq_some_iff.1 h
  have hle : 2 * t.length + 2 ≤ 2 * (t ++ u).length + 2 := by
    rw [length_append]
    omega
  have hends : Ends v rest := fun n hn => absurd hn (hnumber n)
  rw [parse, (read_append u hle).1 t v rest hread hends]
  rfl

end Append

/-! ## Texts that are written -/

/-- The text is the value, whatever follows it, if that cannot continue a number. -/
def Writes (v : Value) (t : List UInt8) : Prop :=
  ∀ fuel u, t.length ≤ fuel → u.takeWhile isNumberChar = [] → readValue fuel (t ++ u) = some (v, u)

/-- The text is the string, up to its closing quote. -/
def WritesString (s t : List UInt8) : Prop :=
  ∀ fuel u, t.length < fuel → readString fuel (t ++ 34 :: u) = some (s, u)

/-- The text is the items, with the bracket that closes the array. -/
def WritesItems (vs : List Value) (t : List UInt8) : Prop :=
  ∀ fuel u, t.length ≤ fuel → readItems fuel (t ++ u) = some (vs, u)

/-- The text is the fields, with the brace that closes the object. -/
def WritesFields (fields : List (List UInt8 × Value)) (t : List UInt8) : Prop :=
  ∀ fuel u, t.length ≤ fuel → readFields fuel (t ++ u) = some (fields, u)

section Writes

variable {s t ts name : List UInt8} {v : Value} {vs : List Value}
  {fields : List (List UInt8 × Value)} {c : UInt8}

/-- Fuel for a text that is not empty is enough for a step. -/
theorem exists_fuel {n fuel : ℕ} (h : n ≤ fuel) (hn : n ≠ 0) : ∃ f, fuel = f + 1 :=
  Nat.exists_eq_add_one.2 (lt_of_lt_of_le (Nat.pos_of_ne_zero hn) h)

theorem expect_cons (hc : isWhite c = false) (t : List UInt8) : expect c (c :: t) = some t := by
  simp [expect, skipWs, hc]

theorem expect_cons_none {d : UInt8} (hd : isWhite d = false) (hne : d ≠ c) (t : List UInt8) :
    expect c (d :: t) = none := by
  simp [expect, skipWs, hd, hne]

theorem writes_bool (b : Bool) : Writes (.bool b) (ascii (if b then "true" else "false")) := by
  intro fuel u hfuel _
  cases b
  all_goals
    obtain ⟨f, rfl⟩ := exists_fuel hfuel (by simp [ascii])
    rfl

theorem isNumberChar_of_isDigit (hc : isDigit c = true) : isNumberChar c = true := by
  simp [isNumberChar, hc]

theorem isWhite_of_isDigit (hc : isDigit c = true) : isWhite c = false := by
  obtain ⟨hspace, -, -⟩ := of_isDigit hc
  simp only [isSpace, decide_eq_false_iff_not, not_or] at hspace
  simp only [isWhite, decide_eq_false_iff_not]
  rintro (rfl | rfl | rfl | rfl)
  · exact hspace.1 rfl
  all_goals exact hspace.2 (by decide)

/-- A digit starts no value but a number. -/
theorem ne_of_isDigit (hc : isDigit c = true) :
    c ≠ 110 ∧ c ≠ 102 ∧ c ≠ 116 ∧ c ≠ 34 ∧ c ≠ 91 ∧ c ≠ 123 := by
  refine ⟨?_, ?_, ?_, ?_, ?_, ?_⟩
  all_goals
    rintro rfl
    revert hc
    decide

/-- Digits are a number. -/
theorem isNumber_digits (hc : isDigit c = true) (hs : ∀ d ∈ s, isDigit d = true) :
    isNumber (c :: s) = true := by
  obtain ⟨-, hminus, hplus⟩ := of_isDigit hc
  have hall : (c :: s).dropWhile isDigit = [] := by
    exact dropWhile_eq_nil_iff.2 (forall_mem_cons.2 ⟨hc, hs⟩)
  simp [isNumber, dropSign, hminus, hplus, hall]

theorem writes_number (hc : isDigit c = true) (hs : ∀ d ∈ s, isDigit d = true) :
    Writes (.number (c :: s)) (c :: s) := by
  intro fuel u hfuel hu
  obtain ⟨f, rfl⟩ := exists_fuel hfuel (by simp)
  have hchars : ∀ d ∈ c :: s, isNumberChar d = true := by
    exact forall_mem_cons.2
      ⟨isNumberChar_of_isDigit hc, fun d hd => isNumberChar_of_isDigit (hs d hd)⟩
  obtain ⟨htake, hdrop⟩ := split_append hchars hu
  have hwhite : isWhite c = false := isWhite_of_isDigit hc
  obtain ⟨hn, hf, ht, hquote, hbracket, hbrace⟩ := ne_of_isDigit hc
  have hskip : skipWs (c :: (s ++ u)) = c :: (s ++ u) := by simp [skipWs, hwhite]
  rw [cons_append] at htake hdrop
  simp [readValue, hskip, hn, hf, ht, hquote, hbracket, hbrace, hc, htake, hdrop,
    isNumber_digits hc hs]

/-- A character that stands for itself in a string. -/
def isPlain (c : UInt8) : Bool := 32 ≤ c && c != 34 && c != 92

/-- A string without escapes is written as it is. -/
theorem writesString_plain (hs : s.all isPlain = true) : WritesString s s := by
  intro fuel u hfuel
  induction s generalizing fuel with
  | nil =>
    obtain ⟨f, rfl⟩ := exists_fuel hfuel (by simp)
    rfl
  | cons c s ih =>
    obtain ⟨f, rfl⟩ := exists_fuel hfuel (by simp)
    rw [all_cons, Bool.and_eq_true] at hs
    obtain ⟨⟨hlow, hquote⟩, hslash⟩ : (32 ≤ c ∧ c ≠ 34) ∧ c ≠ 92 := by
      simpa [isPlain] using hs.1
    have hread := ih hs.2 f (by simpa using hfuel)
    simp [readString, UInt8.not_lt.2 hlow, hquote, hslash, hread]

theorem writes_string (h : WritesString s t) : Writes (.string s) (34 :: t ++ [34]) := by
  intro fuel u hfuel _
  obtain ⟨f, rfl⟩ := exists_fuel hfuel (by simp)
  have hread := h f u (by simp at hfuel; omega)
  simp [readValue, skipWs, isWhite, hread]

theorem writesItems_last (h : Writes v t) : WritesItems [v] (t ++ [93]) := by
  intro fuel u hfuel
  obtain ⟨f, rfl⟩ := exists_fuel hfuel (by simp)
  have hread := h f (93 :: u) (by simpa using hfuel) rfl
  simp [readItems, hread, expect_cons, expect_cons_none, isWhite]

theorem writesFields_last (hname : WritesString s name) (h : Writes v t) :
    WritesFields [(s, v)] (34 :: name ++ 34 :: 58 :: t ++ [125]) := by
  intro fuel u hfuel
  obtain ⟨f, rfl⟩ := exists_fuel hfuel (by simp)
  have hreadName := hname f (58 :: (t ++ 125 :: u)) (by simp at hfuel; omega)
  have hread := h f (125 :: u) (by simp at hfuel; omega) rfl
  simp [readFields, hreadName, hread, expect_cons, expect_cons_none, isWhite]

theorem writesFields_cons (hname : WritesString s name) (h : Writes v t)
    (hs : WritesFields fields ts) :
    WritesFields ((s, v) :: fields) (34 :: name ++ 34 :: 58 :: t ++ 44 :: ts) := by
  intro fuel u hfuel
  obtain ⟨f, rfl⟩ := exists_fuel hfuel (by simp)
  have hreadName := hname f (58 :: (t ++ 44 :: (ts ++ u))) (by simp at hfuel; omega)
  have hread := h f (44 :: (ts ++ u)) (by simp at hfuel; omega) rfl
  have hrest := hs f u (by simp at hfuel; omega)
  simp [readFields, hreadName, hread, hrest, expect_cons, isWhite]

/-- A character is expected in vain before another one. -/
theorem expect_none_of_skipWs {d : UInt8} (h : skipWs t = d :: s) (hne : d ≠ c) :
    expect c t = none := by
  rw [expect, h]
  exact if_neg hne

theorem writes_array (h : WritesItems vs t) : Writes (.array vs) (91 :: t) := by
  intro fuel u hfuel _
  obtain ⟨f, rfl⟩ := exists_fuel hfuel (by simp)
  have hread := h f u (by simpa using hfuel)
  obtain ⟨c, t₁, hskip, hne⟩ := skipWs_of_readItems hread
  simp [readValue, skipWs, isWhite, expect_none_of_skipWs hskip hne, hread]

theorem writes_object (h : WritesFields fields t) : Writes (.object fields) (123 :: t) := by
  intro fuel u hfuel _
  obtain ⟨f, rfl⟩ := exists_fuel hfuel (by simp)
  have hread := h f u (by simpa using hfuel)
  obtain ⟨t₁, hquote⟩ := expect_of_readFields hread
  have hnone := expect_none_of_skipWs (skipWs_of_expect hquote) (show (34 : UInt8) ≠ 125 by decide)
  simp [readValue, skipWs, isWhite, hnone, hread]

theorem parse_of_writes (h : Writes v t) {u : List UInt8} (hu : u.takeWhile isNumberChar = []) :
    parse (t ++ u) = some v := by
  have hle : t.length ≤ 2 * (t ++ u).length + 2 := by
    rw [length_append]
    omega
  rw [parse, h _ u hle hu]
  rfl

end Writes

end WKOpenVR.Json
