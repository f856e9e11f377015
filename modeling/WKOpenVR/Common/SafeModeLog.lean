import WKOpenVR.Text
import WKOpenVR.Search

/-!
# The log of the safe mode

SteamVR writes a line to its log for each driver that it does not load in the safe mode, and
`ParseVrServerSafeModeBlock` reads the names of the drivers from these lines. It searches for
the begin of such a line, and from there for its end, in the text as a whole.

A line that has the begin and not the end is thus *unfinished*: the search for the end goes on
in the lines after it, and the next end is taken for its own, and dropped with it. If that end
is the one of another driver, the line of that driver is *swallowed*. `lineRead` says what is
read of a line, whether or not there is an unfinished one before it, and `scanFrom_eq` that this
is what the code does.

A driver whose line is swallowed may be read from another line. The names are the expected ones,
in the expected order, exactly if this is so for each of them, at once
(`parseVrServerSafeModeBlock_iff`), and if no line has two ends.
-/

namespace WKOpenVR.Common.SafeModeLog

open Text Search List

def kPrefix : List UInt8 := ascii "Not loading driver "

def kSuffix : List UInt8 := ascii " because it was blocked by a previous safe mode event"

def kSafeModeMarker : List UInt8 := ascii "Using safe mode"

/-- The characters that end a line. -/
def isBreak (c : UInt8) : Bool := c = 10 || c = 13

/-- A name is added if it is on one line, and new. -/
def addName (blocked : List (List UInt8)) (name : List UInt8) : List (List UInt8) :=
  if name = [] ∨ 10 ∈ name ∨ 13 ∈ name then blocked
  else if blocked.contains name then blocked
  else blocked ++ [name]

/-- The loop of `ParseVrServerSafeModeBlock`, over what is left of the text. A round consumes the
    begin of a line. -/
def scanLoop : ℕ → List UInt8 → List (List UInt8) → List (List UInt8)
  | 0, _, blocked => blocked
  | fuel + 1, text, blocked =>
    match splitFirst kPrefix text with
    | none => blocked
    | some (_, rest) =>
      match splitFirst kSuffix rest with
      | none => scanLoop fuel rest blocked
      | some (name, rest) => scanLoop fuel rest (addName blocked name)

def parseVrServerSafeModeBlock (logText : List UInt8) : Bool × List (List UInt8) :=
  if (splitFirst kSafeModeMarker logText).isNone then (false, [])
  else
    let blocked := scanLoop logText.length logText []
    (!blocked.isEmpty, blocked)

/-! ## What is expected -/

variable (text : List UInt8)

def lines : List (List UInt8) := text.splitOnP isBreak

/-- The names of a line, one for each end after the begin. -/
def namesOfLine (line : List UInt8) : List (List UInt8) :=
  match splitFirst kPrefix line with
  | none => []
  | some (_, rest) => (cuts kSuffix rest).filter fun name => decide (name ≠ [])

/-- The distinct names in the lines of a text, in the order of their first appearance. -/
def blockedNames : List (List UInt8) :=
  distinct [] ((lines text).flatMap namesOfLine)

/-! ## Line by line -/

/-- The text has the begin of a line, and no end after it. -/
def opens : Bool :=
  match splitFirst kPrefix text with
  | none => false
  | some (_, rest) => (splitFirst kSuffix rest).isNone

variable (unfinished : Bool)

/-- Whether a line is unfinished after this one. The next end is the one of the unfinished line. -/
def unfinishedAfter (line : List UInt8) : Bool :=
  if unfinished then
    match splitFirst kSuffix line with
    | none => true
    | some (_, rest) => opens rest
  else opens line

/-- The line is in the search for the end of an unfinished one: it does not begin after that. -/
def swallowed (line : List UInt8) : Bool :=
  unfinished &&
    match splitFirst kSuffix line with
    | none => true
    | some (_, rest) => (splitFirst kPrefix rest).isNone

/-- The names of the lines, each with whether its line is not swallowed. -/
def marks : Bool → List (List UInt8) → List (List UInt8 × Bool)
  | _, [] => []
  | unfinished, line :: lines =>
    (namesOfLine line).map (fun name => (name, !swallowed unfinished line)) ++
      marks (unfinishedAfter unfinished line) lines

section Keys

theorem kPrefix_ne_nil : kPrefix ≠ [] := by decide

theorem kSuffix_ne_nil : kSuffix ≠ [] := by decide

theorem not_mem_of_isBreak {b : UInt8} (hb : isBreak b = true) : b ∉ kPrefix ∧ b ∉ kSuffix := by
  have hcases : b = 10 ∨ b = 13 := by simpa [isBreak] using hb
  rcases hcases with rfl | rfl
  · decide
  · decide

end Keys

/-! ## The loop -/

section Loop

variable {text} {blocked : List (List UInt8)}

/-- The loop, with as many rounds as the text can take. -/
def scan (text : List UInt8) (blocked : List (List UInt8)) : List (List UInt8) :=
  scanLoop text.length text blocked

theorem length_lt_of_splitFirst {key before after : List UInt8} (hkey : key ≠ [])
    (h : splitFirst key text = some (before, after)) : after.length < text.length := by
  have hpos := length_pos_iff.2 hkey
  rw [eq_of_splitFirst h]
  simp only [length_append]
  omega

theorem scanLoop_eq {fuel fuel' : ℕ} (h : text.length ≤ fuel) (h' : text.length ≤ fuel')
    (blocked : List (List UInt8)) : scanLoop fuel text blocked = scanLoop fuel' text blocked := by
  induction fuel generalizing text fuel' blocked with
  | zero =>
    obtain rfl := eq_nil_of_length_eq_zero (Nat.le_zero.1 h)
    cases fuel' with
    | zero => rfl
    | succ fuel' => simp [scanLoop, splitFirst, kPrefix_ne_nil]
  | succ fuel ih =>
    cases fuel' with
    | zero =>
      obtain rfl := eq_nil_of_length_eq_zero (Nat.le_zero.1 h')
      simp [scanLoop, splitFirst, kPrefix_ne_nil]
    | succ fuel' =>
      rw [scanLoop, scanLoop]
      cases hbegin : splitFirst kPrefix text with
      | none => rfl
      | some r =>
        obtain ⟨before, rest⟩ := r
        have hrest := length_lt_of_splitFirst kPrefix_ne_nil hbegin
        cases hsuffix : splitFirst kSuffix rest with
        | none =>
          simp only [hsuffix]
          exact ih (by omega) (by omega) _
        | some r =>
          obtain ⟨name, rest'⟩ := r
          have hrest' := length_lt_of_splitFirst kSuffix_ne_nil hsuffix
          simp only [hsuffix]
          exact ih (by omega) (by omega) _

theorem scan_eq_match (text : List UInt8) (blocked : List (List UInt8)) :
    scan text blocked =
      match splitFirst kPrefix text with
      | none => blocked
      | some (_, rest) =>
        match splitFirst kSuffix rest with
        | none => scan rest blocked
        | some (name, rest) => scan rest (addName blocked name) := by
  have hfuel : scan text blocked = scanLoop (text.length + 1) text blocked :=
    scanLoop_eq le_rfl (Nat.le_succ _) blocked
  rw [hfuel, scanLoop]
  cases hbegin : splitFirst kPrefix text with
  | none => rfl
  | some r =>
    obtain ⟨before, rest⟩ := r
    have hrest := length_lt_of_splitFirst kPrefix_ne_nil hbegin
    cases hsuffix : splitFirst kSuffix rest with
    | none =>
      simp only [hsuffix]
      exact scanLoop_eq hrest.le le_rfl blocked
    | some r =>
      obtain ⟨name, rest'⟩ := r
      have hrest' := length_lt_of_splitFirst kSuffix_ne_nil hsuffix
      simp only [hsuffix]
      exact scanLoop_eq (hrest'.le.trans hrest.le) le_rfl _

/-- Without an end nothing is read. -/
theorem scan_of_no_suffix (h : ¬kSuffix <:+: text) : scan text blocked = blocked := by
  induction hn : text.length using Nat.strong_induction_on generalizing text with
  | _ n ih =>
    rw [scan_eq_match]
    cases hbegin : splitFirst kPrefix text with
    | none => rfl
    | some r =>
      obtain ⟨before, rest⟩ := r
      have hrest := length_lt_of_splitFirst kPrefix_ne_nil hbegin
      have hno : ¬kSuffix <:+: rest := by
        intro hin
        refine h (hin.trans ?_)
        rw [eq_of_splitFirst hbegin, ← append_assoc]
        exact (suffix_append _ _).isInfix
      have hsuffix := (splitFirst_eq_none_iff kSuffix_ne_nil).2 hno
      simp only [hsuffix]
      exact ih _ (hn ▸ hrest) hno rfl

/-- The loop from an unfinished line on: the next end is dropped. -/
def scanFrom (unfinished : Bool) (text : List UInt8) (blocked : List (List UInt8)) :
    List (List UInt8) :=
  if unfinished then
    match splitFirst kSuffix text with
    | none => blocked
    | some (_, rest) => scan rest blocked
  else scan text blocked

variable {b : UInt8}

theorem addName_of_isBreak (hb : isBreak b = true) {name : List UInt8}
    (hmem : b ∈ name) : addName blocked name = blocked := by
  have hcases : b = 10 ∨ b = 13 := by simpa [isBreak] using hb
  refine if_pos (.inr ?_)
  rcases hcases with rfl | rfl
  · exact .inl hmem
  · exact .inr hmem

/-- A part without a begin is passed over. -/
theorem scan_append_cons_of_no_begin (hb : isBreak b = true) {line : List UInt8}
    (h : splitFirst kPrefix line = none) (rest : List UInt8) :
    scan (line ++ b :: rest) blocked = scan rest blocked := by
  rw [scan_eq_match, scan_eq_match rest,
    splitFirst_append_cons kPrefix_ne_nil (not_mem_of_isBreak hb).1, h]
  cases splitFirst kPrefix rest with
  | none => rfl
  | some r => rfl

end Loop

/-! ## What is read of a line -/

section Line

variable {line : List UInt8} {unfinished} {blocked : List (List UInt8)} {before rest : List UInt8}

/-- The name that is read of a line: the one before the first end. -/
def lineName (line : List UInt8) : Option (List UInt8) :=
  match splitFirst kPrefix line with
  | none => none
  | some (_, rest) => (splitFirst kSuffix rest).map Prod.fst

def lineRead (unfinished : Bool) (line : List UInt8) : Option (List UInt8) :=
  if swallowed unfinished line then none else lineName line

def readLines : Bool → List (List UInt8) → List (List UInt8)
  | _, [] => []
  | unfinished, line :: lines =>
    (lineRead unfinished line).toList ++ readLines (unfinishedAfter unfinished line) lines

theorem lineName_of_splitFirst (h : splitFirst kPrefix line = some (before, rest)) :
    lineName line = (splitFirst kSuffix rest).map Prod.fst := by
  simp [lineName, h]

theorem splitFirst_kPrefix_of_once (h : Once kPrefix line)
    (heq : line = before ++ (kPrefix ++ rest)) : splitFirst kPrefix line = some (before, rest) := by
  cases hsplit : splitFirst kPrefix line with
  | none =>
    refine absurd ?_ ((splitFirst_eq_none_iff kPrefix_ne_nil).1 hsplit)
    exact ⟨before, rest, by rw [heq, append_assoc]⟩
  | some r =>
    obtain ⟨before', rest'⟩ := r
    have heq' := eq_of_splitFirst hsplit
    obtain rfl := h before rest before' rest' heq heq'
    have hrest := append_cancel_left (append_cancel_left (heq.symm.trans heq'))
    rw [hrest]

/-- After the end of a line there is no second begin. -/
theorem splitFirst_kPrefix_after_suffix (h : Once kPrefix line) {after name after' : List UInt8}
    (hbegin : splitFirst kPrefix line = some (before, after))
    (hsuffix : splitFirst kSuffix after = some (name, after')) :
    splitFirst kPrefix after' = none := by
  rw [splitFirst_eq_none_iff kPrefix_ne_nil]
  rintro ⟨u, v, huv⟩
  have hline := eq_of_splitFirst hbegin
  have hsecond : line = (before ++ (kPrefix ++ (name ++ (kSuffix ++ u)))) ++ (kPrefix ++ v) := by
    rw [hline, eq_of_splitFirst hsuffix, ← huv]
    simp only [append_assoc]
  have hlen := congrArg List.length (h _ _ _ _ hline hsecond)
  have hpos := length_pos_iff.2 kPrefix_ne_nil
  simp only [length_append] at hlen
  omega

/-- Without a second begin, a line after the end of an unfinished one is read as if it were
    alone. -/
theorem lineRead_of_suffix (h : Once kPrefix line)
    (hsuffix : splitFirst kSuffix line = some (before, rest)) :
    lineRead true line = lineName rest := by
  have hline := eq_of_splitFirst hsuffix
  rw [lineRead, swallowed, Bool.true_and, hsuffix]
  cases hbegin : splitFirst kPrefix rest with
  | none => simp [lineName, hbegin]
  | some r =>
    obtain ⟨before', rest'⟩ := r
    have heq : line = (before ++ (kSuffix ++ before')) ++ (kPrefix ++ rest') := by
      rw [hline, eq_of_splitFirst hbegin]
      simp only [append_assoc]
    rw [lineName_of_splitFirst (splitFirst_kPrefix_of_once h heq), lineName_of_splitFirst hbegin]
    simp [hbegin]

theorem lineRead_of_no_suffix (hsuffix : splitFirst kSuffix line = none) :
    lineRead true line = none := by
  rw [lineRead, swallowed, Bool.true_and, hsuffix]
  rfl

variable {b : UInt8}

/-- The loop over the first line of a text, none being unfinished. -/
theorem scan_append_cons (hb : isBreak b = true) (h : Once kPrefix line) (rest : List UInt8) :
    scan (line ++ b :: rest) blocked =
      scanFrom (opens line) rest ((lineName line).toList.foldl addName blocked) := by
  have hkeys := not_mem_of_isBreak hb
  cases hbegin : splitFirst kPrefix line with
  | none =>
    rw [scan_append_cons_of_no_begin hb hbegin]
    simp [opens, lineName, hbegin, scanFrom]
  | some r =>
    obtain ⟨before, after⟩ := r
    rw [scan_eq_match, splitFirst_append_cons kPrefix_ne_nil hkeys.1, hbegin]
    simp only
    rw [splitFirst_append_cons kSuffix_ne_nil hkeys.2]
    cases hsuffix : splitFirst kSuffix after with
    | some r =>
      obtain ⟨name, after'⟩ := r
      have hnone := splitFirst_kPrefix_after_suffix h hbegin hsuffix
      simp only [scan_append_cons_of_no_begin hb hnone]
      simp [opens, lineName, hbegin, hsuffix, scanFrom]
    | none =>
      have hopens : opens line = true := by simp [opens, hbegin, hsuffix]
      have hname : lineName line = none := by simp [lineName, hbegin, hsuffix]
      rw [hopens, hname, scanFrom, if_pos rfl]
      cases hrest : splitFirst kSuffix rest with
      | none =>
        -- No end is left: the search goes on, and finds none.
        refine scan_of_no_suffix ?_
        rw [← splitFirst_eq_none_iff kSuffix_ne_nil, splitFirst_append_cons kSuffix_ne_nil hkeys.2,
          hsuffix, hrest]
        rfl
      | some r =>
        -- The end is in another line: what is before it is not a name.
        simp only [Option.map_some]
        rw [addName_of_isBreak hb (mem_append_right _ mem_cons_self)]
        rfl

/-- The loop over the last line, none being unfinished. -/
theorem scan_of_once (h : Once kPrefix line) :
    scan line blocked = (lineName line).toList.foldl addName blocked := by
  rw [scan_eq_match]
  cases hbegin : splitFirst kPrefix line with
  | none => simp [lineName, hbegin]
  | some r =>
    obtain ⟨before, after⟩ := r
    rw [lineName_of_splitFirst hbegin]
    cases hsuffix : splitFirst kSuffix after with
    | none =>
      simp only [hsuffix]
      exact scan_of_no_suffix ((splitFirst_eq_none_iff kSuffix_ne_nil).1 hsuffix)
    | some r =>
      obtain ⟨name, after'⟩ := r
      simp only [hsuffix]
      rw [scan_eq_match, splitFirst_kPrefix_after_suffix h hbegin hsuffix]
      rfl

theorem once_of_splitFirst (h : Once kPrefix line) {after : List UInt8}
    (hsuffix : splitFirst kSuffix line = some (before, after)) : Once kPrefix after := by
  have hline := eq_of_splitFirst hsuffix
  rw [← append_assoc] at hline
  exact (hline ▸ h).right

/-- The loop over the last line of a text. -/
theorem scanFrom_of_once (h : Once kPrefix line) :
    scanFrom unfinished line blocked = (lineRead unfinished line).toList.foldl addName blocked := by
  cases unfinished with
  | false => exact scan_of_once h
  | true =>
    rw [scanFrom, if_pos rfl]
    cases hsuffix : splitFirst kSuffix line with
    | none =>
      rw [lineRead_of_no_suffix hsuffix]
      rfl
    | some r =>
      obtain ⟨before, after⟩ := r
      rw [lineRead_of_suffix h hsuffix]
      exact scan_of_once (once_of_splitFirst h hsuffix)

/-- The loop over the first line of a text. -/
theorem scanFrom_append_cons (hb : isBreak b = true) (h : Once kPrefix line) (rest : List UInt8) :
    scanFrom unfinished (line ++ b :: rest) blocked =
      scanFrom (unfinishedAfter unfinished line) rest
        ((lineRead unfinished line).toList.foldl addName blocked) := by
  cases unfinished with
  | false => exact scan_append_cons hb h rest
  | true =>
    rw [scanFrom, if_pos rfl, splitFirst_append_cons kSuffix_ne_nil (not_mem_of_isBreak hb).2]
    cases hsuffix : splitFirst kSuffix line with
    | some r =>
      obtain ⟨before, after⟩ := r
      rw [lineRead_of_suffix h hsuffix, unfinishedAfter, if_pos rfl, hsuffix]
      exact scan_append_cons hb (once_of_splitFirst h hsuffix) rest
    | none =>
      rw [lineRead_of_no_suffix hsuffix, unfinishedAfter, if_pos rfl, hsuffix, scanFrom, if_pos rfl]
      cases splitFirst kSuffix rest with
      | none => rfl
      | some r => rfl

end Line

/-! ## The text as a whole -/

section Lines

variable {text unfinished} {blocked : List (List UInt8)} {line : List UInt8}

/-- A text is a line, or a line, a break and a text. -/
theorem lines_induction {motive : List UInt8 → Prop}
    (line : ∀ line, (∀ c ∈ line, isBreak c = false) → motive line)
    (append : ∀ line b rest, (∀ c ∈ line, isBreak c = false) → isBreak b = true → motive rest →
      motive (line ++ b :: rest)) (text : List UInt8) : motive text := by
  induction hn : text.length using Nat.strong_induction_on generalizing text with
  | _ n ih =>
    have hbefore : ∀ c ∈ text.takeWhile fun c => !isBreak c, isBreak c = false := by
      intro c hc
      simpa using mem_takeWhile_imp hc
    have heq := @List.takeWhile_append_dropWhile _ (fun c => !isBreak c) text
    cases hdrop : text.dropWhile fun c => !isBreak c with
    | nil =>
      rw [hdrop, append_nil] at heq
      exact line text (heq ▸ hbefore)
    | cons b rest =>
      have hb : isBreak b = true := by
        have hhead := List.head?_dropWhile_not (fun c => !isBreak c) text
        rw [hdrop] at hhead
        simpa using hhead
      rw [hdrop] at heq
      have hlen := congrArg List.length heq
      rw [length_append, length_cons] at hlen
      rw [← heq]
      exact append _ b rest hbefore hb (ih rest.length (by omega) rest rfl)

theorem lines_of_forall (h : ∀ c ∈ line, isBreak c = false) : lines line = [line] :=
  splitOnP_eq_singleton h

theorem lines_append_cons {rest : List UInt8} {b : UInt8} (h : ∀ c ∈ line, isBreak c = false)
    (hb : isBreak b = true) : lines (line ++ b :: rest) = line :: lines rest :=
  splitOnP_append_cons_of_forall_mem h b hb rest

theorem isBreak_eq_false_of_mem_lines (hline : line ∈ lines text) :
    ∀ c ∈ line, isBreak c = false := by
  induction text using lines_induction with
  | line l hl =>
    rw [lines_of_forall hl, mem_singleton] at hline
    exact hline ▸ hl
  | append l b rest hl hb ih =>
    rw [lines_append_cons hl hb, mem_cons] at hline
    rcases hline with rfl | hline
    · exact hl
    · exact ih hline

/-- The loop reads the text line by line. -/
theorem scanFrom_eq (h : ∀ line ∈ lines text, Once kPrefix line) :
    scanFrom unfinished text blocked =
      (readLines unfinished (lines text)).foldl addName blocked := by
  induction text using lines_induction generalizing unfinished blocked with
  | line l hl =>
    rw [lines_of_forall hl] at h ⊢
    rw [scanFrom_of_once (h l (mem_singleton_self l)), readLines, readLines, append_nil]
  | append l b rest hl hb ih =>
    rw [lines_append_cons hl hb] at h ⊢
    rw [scanFrom_append_cons hb (h l mem_cons_self), readLines, foldl_append]
    exact ih fun line hline => h line (mem_cons_of_mem l hline)

/-- Names on one line are added if they are new. -/
theorem foldl_addName {names : List (List UInt8)}
    (h : ∀ name ∈ names, ∀ c ∈ name, isBreak c = false) :
    names.foldl addName blocked =
      blocked ++ distinct blocked (names.filter fun name => decide (name ≠ [])) := by
  induction names generalizing blocked with
  | nil => simp [distinct]
  | cons name names ih =>
    have hname := h name mem_cons_self
    have hnames := fun n hn => h n (mem_cons_of_mem name hn)
    rw [foldl_cons, ih hnames]
    by_cases hnil : name = []
    · rw [addName, if_pos (.inl hnil), filter_cons_of_neg (by simpa using hnil)]
    · have h10 : (10 : UInt8) ∉ name := fun hmem => absurd (hname 10 hmem) (by decide)
      have h13 : (13 : UInt8) ∉ name := fun hmem => absurd (hname 13 hmem) (by decide)
      rw [addName, if_neg (by simp [hnil, h10, h13]), filter_cons_of_pos (by simpa using hnil),
        distinct]
      simp only [contains_iff_mem]
      split_ifs with hmem
      · rfl
      · have hcongr : ∀ b, b ∈ blocked ++ [name] ↔ b ∈ name :: blocked := by simp [or_comm]
        rw [distinct_congr hcongr, append_assoc]
        rfl

variable {name : List UInt8}

/-- A name that is read is before the first end of some text within a line. -/
theorem exists_splitFirst_of_lineName (h : lineName line = some name) :
    ∃ before rest after, line = before ++ (kPrefix ++ rest) ∧
      splitFirst kSuffix rest = some (name, after) := by
  cases hbegin : splitFirst kPrefix line with
  | none => simp [lineName, hbegin] at h
  | some r =>
    obtain ⟨before, rest⟩ := r
    rw [lineName_of_splitFirst hbegin] at h
    obtain ⟨⟨name', after⟩, hsuffix, rfl⟩ := Option.map_eq_some_iff.1 h
    exact ⟨before, rest, after, eq_of_splitFirst hbegin, hsuffix⟩

theorem exists_lineName_of_mem_readLines {ls : List (List UInt8)}
    (h : name ∈ readLines unfinished ls) : ∃ line ∈ ls, lineName line = some name := by
  induction ls generalizing unfinished with
  | nil => cases h
  | cons l ls ih =>
    rw [readLines, mem_append, Option.mem_toList] at h
    rcases h with h | h
    · rw [lineRead] at h
      split_ifs at h
      exact ⟨l, mem_cons_self, h⟩
    · obtain ⟨line, hmem, hline⟩ := ih h
      exact ⟨line, mem_cons_of_mem l hmem, hline⟩

/-- The names of the lines that are read, in the order in which they are read. -/
theorem scan_eq_distinct (h : ∀ line ∈ lines text, Once kPrefix line) :
    scan text [] =
      distinct [] ((readLines false (lines text)).filter fun name => decide (name ≠ [])) := by
  have hscan : scan text [] = (readLines false (lines text)).foldl addName [] :=
    @scanFrom_eq text false [] h
  rw [hscan, foldl_addName, nil_append]
  intro name hname c hc
  obtain ⟨line, hline, hread⟩ := exists_lineName_of_mem_readLines hname
  obtain ⟨before, rest, after, rfl, hsuffix⟩ := exists_splitFirst_of_lineName hread
  refine isBreak_eq_false_of_mem_lines hline c ?_
  rw [eq_of_splitFirst hsuffix]
  simp [hc]

end Lines

/-! ## When the names are the expected ones -/

section Expected

variable {text unfinished} (ls : List (List UInt8))

/-- No line has two ends. -/
def OneEnd : Prop :=
  ∀ line ∈ ls, ∀ before rest, line = before ++ (kPrefix ++ rest) → Once kSuffix rest

variable {line name : List UInt8}

theorem mem_namesOfLine_iff (h : Once kPrefix line) :
    name ∈ namesOfLine line ↔ name ≠ [] ∧ kPrefix ++ (name ++ kSuffix) <:+: line := by
  constructor
  · intro hname
    cases hbegin : splitFirst kPrefix line with
    | none => simp [namesOfLine, hbegin] at hname
    | some r =>
      obtain ⟨before, rest⟩ := r
      obtain ⟨hcuts, hnil⟩ : name ∈ cuts kSuffix rest ∧ name ≠ [] := by
        simpa [namesOfLine, hbegin] using hname
      obtain ⟨after, rfl⟩ := mem_cuts_iff.1 hcuts
      exact ⟨hnil, before, after, by rw [eq_of_splitFirst hbegin]; simp⟩
  · rintro ⟨hnil, before, after, hline⟩
    have heq : line = before ++ (kPrefix ++ (name ++ kSuffix ++ after)) := by
      rw [← hline]
      simp
    have hcuts : name ∈ cuts kSuffix (name ++ kSuffix ++ after) :=
      mem_cuts_iff.2 (prefix_append _ _)
    rw [namesOfLine, splitFirst_kPrefix_of_once h heq]
    exact mem_filter.2 ⟨hcuts, decide_eq_true hnil⟩

/-- The names are those that stand in some line between the begin and the end of such a line. -/
theorem mem_blockedNames_iff (h : ∀ line ∈ lines text, Once kPrefix line) :
    name ∈ blockedNames text ↔
      name ≠ [] ∧ ∃ line ∈ lines text, kPrefix ++ (name ++ kSuffix) <:+: line := by
  rw [blockedNames, mem_distinct_iff, mem_flatMap]
  constructor
  · rintro ⟨⟨line, hline, hname⟩, -⟩
    obtain ⟨hnil, hin⟩ := (mem_namesOfLine_iff (h line hline)).1 hname
    exact ⟨hnil, line, hline, hin⟩
  · rintro ⟨hnil, line, hline, hin⟩
    exact ⟨⟨line, hline, (mem_namesOfLine_iff (h line hline)).2 ⟨hnil, hin⟩⟩, not_mem_nil⟩

theorem map_fst_marks : (marks unfinished ls).map Prod.fst = ls.flatMap namesOfLine := by
  induction ls generalizing unfinished with
  | nil => rfl
  | cons l ls ih =>
    rw [marks, map_append, ih, map_map, flatMap_cons]
    congr 1
    exact map_id _

/-- A line with one end has at most one name, the one that is read. -/
theorem namesOfLine_eq (h : ∀ before rest, line = before ++ (kPrefix ++ rest) → Once kSuffix rest) :
    namesOfLine line = (lineName line).toList.filter fun name => decide (name ≠ []) := by
  cases hbegin : splitFirst kPrefix line with
  | none => simp [namesOfLine, lineName, hbegin]
  | some r =>
    obtain ⟨before, rest⟩ := r
    have honce := h before rest (eq_of_splitFirst hbegin)
    rw [lineName_of_splitFirst hbegin, ← cuts_eq_of_once kSuffix_ne_nil honce, namesOfLine, hbegin]

/-- The names that are read are those of the lines that are not swallowed. -/
theorem left_marks {ls : List (List UInt8)} (h : OneEnd ls) :
    left (marks unfinished ls) =
      (readLines unfinished ls).filter fun name => decide (name ≠ []) := by
  induction ls generalizing unfinished with
  | nil => rfl
  | cons l ls ih =>
    have hl := namesOfLine_eq (h l mem_cons_self)
    have hls := @ih (unfinishedAfter unfinished l) fun line hline =>
      h line (mem_cons_of_mem l hline)
    rw [marks, readLines, left_append, left_map, hls, filter_append, lineRead, hl]
    cases swallowed unfinished l with
    | true => rfl
    | false => rfl

/-- If a line has two ends, the name before the second one is not read. -/
theorem oneEnd_of_scan_eq (h : ∀ line ∈ lines text, Once kPrefix line)
    (heq : scan text [] = blockedNames text) : OneEnd (lines text) := by
  intro line hline before rest hrest
  -- A name with an end before its own is not read.
  have hfirst : ∀ {u v u' v'}, rest = u ++ (kSuffix ++ v) → rest = u' ++ (kSuffix ++ v') →
      u'.length ≤ u.length := by
    intro u v u' v' hu hu'
    by_contra hlt
    have hnil : u' ≠ [] := by
      rintro rfl
      exact hlt (Nat.zero_le _)
    have hblocked : u' ∈ blockedNames text := by
      refine (mem_blockedNames_iff h).2 ⟨hnil, line, hline, before, v', ?_⟩
      rw [hrest, hu']
      simp
    rw [← heq, scan_eq_distinct h, mem_distinct_iff, mem_filter] at hblocked
    obtain ⟨line', -, hread⟩ := exists_lineName_of_mem_readLines hblocked.1.1
    obtain ⟨-, rest', after, -, hsuffix⟩ := exists_splitFirst_of_lineName hread
    have hpre : u ++ kSuffix <+: u' ++ kSuffix := by
      have hleft : u ++ kSuffix <+: rest := ⟨v, by rw [hu, append_assoc]⟩
      have hright : u' ++ kSuffix <+: rest := ⟨v', by rw [hu', append_assoc]⟩
      refine prefix_of_prefix_length_le hleft hright ?_
      simp only [length_append]
      omega
    obtain ⟨w, hw⟩ := hpre
    have hrest' : rest' = u ++ (kSuffix ++ (w ++ after)) := by
      rw [eq_of_splitFirst hsuffix, ← append_assoc, ← hw]
      simp
    exact hlt ((splitFirst_spec hsuffix).2 _ _ hrest')
  intro u v u' v' hu hu'
  have hlen : u.length = u'.length := le_antisymm (hfirst hu' hu) (hfirst hu hu')
  exact (append_inj (hu.symm.trans hu') hlen).1

/-- The drivers that are read are those of the lines of the safe mode exactly if no line has two
    ends, and each driver whose first lines are swallowed is read before any new one. -/
theorem parseVrServerSafeModeBlock_iff (text : List UInt8) (hmarker : kSafeModeMarker <:+: text)
    (honce : ∀ line ∈ lines text, Once kPrefix line) :
    (parseVrServerSafeModeBlock text).2 = blockedNames text ↔
      OneEnd (lines text) ∧ Kept [] (marks false (lines text)) := by
  have hmarked : (splitFirst kSafeModeMarker text).isNone = false := by
    rw [Option.isNone_eq_false_iff, Option.isSome_iff_ne_none, Ne,
      splitFirst_eq_none_iff (by decide), not_not]
    exact hmarker
  have hparse : (parseVrServerSafeModeBlock text).2 = scan text [] := by
    rw [parseVrServerSafeModeBlock, hmarked]
    rfl
  have hkept (hend : OneEnd (lines text)) :
      scan text [] = blockedNames text ↔ Kept [] (marks false (lines text)) := by
    rw [scan_eq_distinct honce, ← left_marks hend, blockedNames, ← map_fst_marks]
    exact distinct_left_iff
  rw [hparse]
  constructor
  · intro heq
    have hend := oneEnd_of_scan_eq honce heq
    exact ⟨hend, (hkept hend).1 heq⟩
  · rintro ⟨hend, hmarks⟩
    exact (hkept hend).2 hmarks

/-- A driver that is not loaded for another reason, before one that is blocked. -/
def disabledAndBlocked : List UInt8 :=
  kSafeModeMarker ++ ascii "\n" ++
    (kPrefix ++ ascii "foo: disabled in settings\n") ++
    (kPrefix ++ ascii "01wkopenvr" ++ kSuffix ++ ascii "\n")

theorem parseVrServerSafeModeBlock_iff_disabledAndBlocked :
    (parseVrServerSafeModeBlock disabledAndBlocked).2 = blockedNames disabledAndBlocked ↔
      OneEnd (lines disabledAndBlocked) ∧ Kept [] (marks false (lines disabledAndBlocked)) :=
  parseVrServerSafeModeBlock_iff disabledAndBlocked
    ⟨[], disabledAndBlocked.drop kSafeModeMarker.length, by decide +kernel⟩ (by decide +kernel)

/-- The line of the blocked driver is swallowed by the one before it. -/
theorem parseVrServerSafeModeBlock_disabledAndBlocked :
    (splitFirst kSafeModeMarker disabledAndBlocked).isSome ∧
      (∀ line ∈ lines disabledAndBlocked, Once kPrefix line) ∧
      blockedNames disabledAndBlocked = [ascii "01wkopenvr"] ∧
      parseVrServerSafeModeBlock disabledAndBlocked = (false, []) := by
  decide +kernel

end Expected

end WKOpenVR.Common.SafeModeLog
