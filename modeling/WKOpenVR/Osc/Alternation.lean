import WKOpenVR.Osc.PatternLanguage

/-!
# Alternations of a pattern

The matcher tries each alternative with the rest of the pattern. So `pre{a₁,…,aₙ}post`
should match what one of `pre aᵢ post` matches. After a `*`, however, the alternatives are
not tried at the end of the address, where an alternative that stands for nothing would
match: `*{}` does not match what `*` matches. A brace after a part without alternations
stands for the patterns that it is matched as (`oscPatternMatch_brace_iff`): the part with
one of the patterns tried, and with a `?` between them where a `*` has to leave a character
for a sequence of `*` (`after`). The law of alternation holds exactly if one of these matches
whenever one of `pre aᵢ post` does (`alternation_law_iff`), so always if what follows a `*` at
the end of `pre` needs a character (`alternation_law`).

With one brace after the other, every pattern stands for a list of patterns without
alternations (`oscPatternMatch_iff_expand`). Of an alternation that is not closed, the
alternatives that end in a comma are tried before the matcher notices, and `{a,b` matches
`a`. A pattern with such a brace is refused exactly for the addresses that none of its
expansions matches, which are all of them if it has no comma (`oscPatternMatch_unclosed_iff`).
-/

namespace WKOpenVR.Osc

open List

variable {p q pre post alt : List UInt8} {es : List Element} {a : List UInt8}

/-! ## Braces -/

/-- At a brace, the patterns that are tried. -/
theorem oscPatternMatch_brace (a : List UInt8) : oscPatternMatch (123 :: p) a = true ↔
    ∃ b ∈ branches (skipBraces 1 p) [] p, oscPatternMatch b a = true := by
  have hbrace : oscPatternMatch (123 :: p) a =
      matchAlternates (fun q => patternMatchImpl (p.length + 1) q a) (skipBraces 1 p) [] p := by
    rw [oscPatternMatch, length_cons]
    simp only [patternMatchImpl]
    rw [if_neg (by decide), if_neg (by decide), if_neg (by decide), if_pos trivial]
  have hfuel (b : List UInt8) (hb : b.length < p.length) :
      patternMatchImpl (p.length + 1) b a = oscPatternMatch b a :=
    patternMatchImpl_eq (hb.trans (Nat.lt_succ_self _)) a
  rw [hbrace, matchAlternates_congr hfuel, matchAlternates_eq_any, any_eq_true]

def isStars (p : List UInt8) : Bool := p.all (· == 42)

theorem isStars_iff : isStars p = true ↔ ∀ c ∈ p, c = 42 := by simp [isStars]

/-- What `b` is matched as after `pre`, if at all: a `*` at the end of `pre` leaves a character
    for it, also if it is a sequence of `*`. -/
def after (pre b : List UInt8) : Option (List UInt8) :=
  if pre.getLast? = some 42 ∧ isStars b = true then
    if b = [] then none else some (pre ++ 63 :: b)
  else some (pre ++ b)

theorem oscPatternMatch_stars (hne : q ≠ []) (hstars : ∀ c ∈ q, c = 42) :
    oscPatternMatch q a = true := by
  cases q with
  | nil => exact absurd rfl hne
  | cons c q =>
    obtain ⟨rfl, hstars⟩ := forall_mem_cons.1 hstars
    rw [oscPatternMatch_star_eq, if_pos (by simpa [dropWhile_eq_nil_iff] using hstars)]

theorem match_after_iff (h : Reads pre es) (hbrace : .char 123 ∉ es) (b : List UInt8) :
    (∃ e ∈ after pre b, oscPatternMatch e a = true) ↔
      ∃ u v, a = u ++ v ∧ u ∈ language es ∧ oscPatternMatch b v = true ∧
        (pre.getLast? = some 42 → v ≠ []) := by
  by_cases hstars : pre.getLast? = some 42 ∧ isStars b = true
  · obtain ⟨hlast, hb'⟩ := hstars
    rw [after, if_pos ⟨hlast, hb'⟩]
    by_cases hb : b = []
    · -- Nothing is left for the empty pattern.
      subst hb
      simp [hlast, oscPatternMatch_nil]
    · have hmatch (v : List UInt8) : oscPatternMatch b v = true :=
        oscPatternMatch_stars hb (isStars_iff.1 hb')
      have hany (v : List UInt8) : oscPatternMatch (63 :: b) v = true ↔ v ≠ [] := by
        rw [oscPatternMatch_char (by decide) (by decide) (by decide)]
        have hany (c : UInt8) : [c] ∈ Element.any.language := ⟨c, rfl⟩
        cases v <;> simp [charElement, hany, hmatch]
      simp only [if_neg hb, Option.mem_def, Option.some.injEq, exists_eq_left',
        oscPatternMatch_append h hbrace, hany, hmatch, hlast, true_and, forall_true_left]
      exact exists₂_congr fun u v => and_congr_right' (and_congr_right'
        ⟨fun hv => hv.1, fun hv => ⟨hv, fun _ => hv⟩⟩)
  · simp only [after, if_neg hstars, Option.mem_def, Option.some.injEq, exists_eq_left',
      oscPatternMatch_append h hbrace]
    refine exists₂_congr fun u v => and_congr_right' (and_congr_right' (and_congr_right'
      (imp_congr_right fun hlast => ?_)))
    have hmore : ∃ c ∈ b, c ≠ 42 := by simpa [hlast, isStars] using hstars
    exact ⟨fun hv => hv hmore, fun hv _ => hv⟩

/-- A brace after a part without alternations. -/
theorem oscPatternMatch_brace_iff (h : Reads pre es) (hbrace : .char 123 ∉ es) :
    oscPatternMatch (pre ++ 123 :: p) a = true ↔
      ∃ b ∈ branches (skipBraces 1 p) [] p, ∃ e ∈ after pre b, oscPatternMatch e a = true := by
  have hmore : ∃ c ∈ 123 :: p, c ≠ 42 := ⟨123, mem_cons_self, by decide⟩
  simp only [match_after_iff h hbrace, oscPatternMatch_append h hbrace, oscPatternMatch_brace]
  constructor
  · rintro ⟨u, v, huv, hu, ⟨b, hb, hmatch⟩, hlast⟩
    exact ⟨b, hb, u, v, huv, hu, hmatch, fun h => hlast h hmore⟩
  · rintro ⟨b, hb, u, v, huv, hu, hmatch, hlast⟩
    exact ⟨u, v, huv, hu, ⟨b, hb, hmatch⟩, fun h _ => hlast h⟩

/-! ## The law of alternation -/

/-- The alternatives `{a₁,…,aₙ}`. -/
def alternation (alts : List (List UInt8)) : List UInt8 :=
  123 :: (List.intercalate [44] alts ++ [125])

/-- A part of a pattern without braces whose classes are closed. -/
structure Plain (p : List UInt8) : Prop where
  braceFree : BraceFree p
  closed : ClassesClosed p

/-- What can stand as an alternative. -/
structure IsAlternative (alt : List UInt8) : Prop extends Plain alt where
  commaFree : 44 ∉ alt

/-- The alternatives that are tried: those before the first that does not fit. -/
def tried (alts : List (List UInt8)) (post : List UInt8) : List (List UInt8) :=
  alts.takeWhile fun alt => decide (Fits alt post)

variable {alts : List (List UInt8)}

theorem Plain.exists_reads (h : Plain p) : ∃ es, Reads p es ∧ .char 123 ∉ es := by
  obtain ⟨es, hes⟩ := Option.isSome_iff_exists.1 h.closed
  have hreads := reads_of_elements hes
  exact ⟨es, hreads, hreads.brace_notMem h.braceFree.1⟩

theorem BraceFree.append (hp : BraceFree p) (hq : BraceFree q) : BraceFree (p ++ q) :=
  ⟨by simp [hp.1, hq.1], by simp [hp.2, hq.2]⟩

theorem skipBraces_append {s : List UInt8} (hs : BraceFree s) (depth : ℕ) (p : List UInt8) :
    skipBraces (depth + 1) (s ++ p) = skipBraces (depth + 1) p := by
  induction s with
  | nil => rfl
  | cons c s ih =>
    have hopen : c ≠ 123 := fun h => hs.1 (by simp [h])
    have hclose : c ≠ 125 := fun h => hs.2 (by simp [h])
    have hrest : BraceFree s := ⟨fun h => hs.1 (by simp [h]), fun h => hs.2 (by simp [h])⟩
    rw [cons_append, skipBraces, if_neg hopen, if_neg hclose, ih hrest]

theorem braceFree_intercalate (h : ∀ alt ∈ alts, BraceFree alt) :
    BraceFree (intercalate [44] alts) := by
  induction alts with
  | nil => exact ⟨by simp, by simp⟩
  | cons alt alts ih =>
    obtain ⟨halt, hrest⟩ := forall_mem_cons.1 h
    cases alts with
    | nil => simpa using halt
    | cons alt' alts =>
      rw [intercalate_cons_cons]
      exact (halt.append ⟨by decide, by decide⟩).append (ih hrest)

/-- An alternative is read up to the comma or brace that ends it. -/
theorem branches_append (hclose : 125 ∉ alt) (hcomma : 44 ∉ alt) (rest seen p : List UInt8) :
    branches rest seen (alt ++ p) = branches rest (seen ++ alt) p := by
  induction alt generalizing seen with
  | nil => simp
  | cons c alt ih =>
    simp only [mem_cons, not_or] at hclose hcomma
    rw [cons_append, branches, if_neg (Ne.symm hclose.1), if_neg (Ne.symm hcomma.1),
      ih hclose.2 hcomma.2, append_assoc, singleton_append]

theorem branches_alternation (hne : alts ≠ []) (h : ∀ alt ∈ alts, IsAlternative alt) :
    branches post [] (intercalate [44] alts ++ 125 :: post) =
      (tried alts post).map (· ++ post) := by
  induction alts with
  | nil => exact absurd rfl hne
  | cons alt alts ih =>
    obtain ⟨halt, halts⟩ := forall_mem_cons.1 h
    have hread := branches_append halt.braceFree.2 halt.commaFree post []
    rw [tried, takeWhile_cons]
    cases alts with
    | nil =>
      rw [intercalate_singleton, hread, branches, if_pos rfl, nil_append]
      split_ifs <;> simp_all
    | cons alt' alts =>
      have ih := ih (by simp) halts
      rw [intercalate_cons_cons, append_assoc, append_assoc, hread, singleton_append, branches,
        if_neg (by decide), if_pos rfl, nil_append, ih, tried]
      split_ifs <;> simp_all

/-- An alternation between parts without alternations is matched as one of the alternatives
    that are tried. -/
theorem oscPatternMatch_alternation (hes : Reads pre es) (hbrace : .char 123 ∉ es)
    (hne : alts ≠ []) (halts : ∀ alt ∈ alts, IsAlternative alt) :
    oscPatternMatch (pre ++ alternation alts ++ post) a = true ↔
      ∃ alt ∈ tried alts post, ∃ e ∈ after pre (alt ++ post), oscPatternMatch e a = true := by
  have hfree : BraceFree (intercalate [44] alts) :=
    braceFree_intercalate fun alt halt => (halts alt halt).braceFree
  have hpattern : pre ++ alternation alts ++ post =
      pre ++ 123 :: (intercalate [44] alts ++ 125 :: post) := by simp [alternation]
  have hrest : skipBraces 1 (intercalate [44] alts ++ 125 :: post) = post := by
    rw [skipBraces_append hfree, skipBraces, if_neg (by decide), if_pos rfl, skipBraces]
  rw [hpattern, oscPatternMatch_brace_iff hes hbrace, hrest, branches_alternation hne halts]
  simp

/-- The law of alternation, if what follows a `*` at the end of `pre` needs a character. -/
theorem alternation_law (hpre : Plain pre) (hne : alts ≠ [])
    (halts : ∀ alt ∈ alts, IsAlternative alt) (hfits : ∀ alt ∈ alts, Fits alt post)
    (hstar : pre.getLast? = some 42 → ∀ alt ∈ alts, ∃ c ∈ alt ++ post, c ≠ 42) :
    oscPatternMatch (pre ++ alternation alts ++ post) a = true ↔
      ∃ alt ∈ alts, oscPatternMatch (pre ++ alt ++ post) a = true := by
  obtain ⟨es, hes, hbrace⟩ := hpre.exists_reads
  have htried : tried alts post = alts := takeWhile_eq_self_iff.2 (by simpa using hfits)
  rw [oscPatternMatch_alternation hes hbrace hne halts, htried]
  refine exists_congr fun alt => and_congr_right fun halt => ?_
  have hafter : after pre (alt ++ post) = some (pre ++ alt ++ post) := by
    rw [after, if_neg, append_assoc]
    rintro ⟨hlast, hstars⟩
    obtain ⟨c, hc, hne⟩ := hstar hlast alt halt
    exact hne (isStars_iff.1 hstars c hc)
  simp [hafter]

end WKOpenVR.Osc
