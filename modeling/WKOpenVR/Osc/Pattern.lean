import WKOpenVR.Osc.Wire

/-!
# OSC address patterns

The matcher of addresses against patterns (`OscPatternMatch`): `?` stands for a
character, `*` for any characters, `[…]` for a character of a class, and `{…,…}` for one
of several alternatives.

The matcher reads the pattern from left to right. It calls itself at a `*`, on what
follows it, and at alternatives, on a copy of each of them with the rest of the pattern.
In each case the pattern gets shorter, so that its length bounds the depth of the calls,
and more fuel does not change the result (`patternMatchImpl_eq`). The copy is made in a
buffer of 256 bytes: alternatives that do not fit do not match. What is tried at a brace is
a list of patterns (`branches`), whatever the address is.
-/

namespace WKOpenVR.Osc

open List

/-- A character as the matcher compares it: `char` is signed. -/
def signedChar (c : UInt8) : ℤ := c.toBitVec.toInt

/-- The loop of `MatchCharClass`: whether `ch` is among the characters and ranges before
    the closing bracket, and what follows it, if there is one. -/
def matchClass (ch : UInt8) : List UInt8 → Bool → Option (Bool × List UInt8)
  | [], _ => none
  | c₁ :: dash :: c₂ :: p, matched =>
    if c₁ = 93 then some (matched, dash :: c₂ :: p)
    else if dash = 45 ∧ c₂ ≠ 93 then
      matchClass ch p
        (matched || decide (signedChar c₁ ≤ signedChar ch ∧ signedChar ch ≤ signedChar c₂))
    else matchClass ch (dash :: c₂ :: p) (matched || ch == c₁)
  | c₁ :: p, matched =>
    if c₁ = 93 then some (matched, p) else matchClass ch p (matched || ch == c₁)

/-- `MatchCharClass`, after the opening bracket. -/
def matchCharClass (ch : UInt8) (p : List UInt8) : Option (Bool × List UInt8) :=
  match p with
  | 33 :: p' => (matchClass ch p' false).map fun (matched, rest) => (!matched, rest)
  | _ => matchClass ch p false

/-- What follows the brace that closes `depth` open ones, if there is one. -/
def skipBraces : ℕ → List UInt8 → List UInt8
  | 0, p => p
  | _, [] => []
  | depth + 1, c :: p =>
    skipBraces (if c = 123 then depth + 2 else if c = 125 then depth else depth + 1) p

/-- The size of the buffer for an alternative with the rest of the pattern. -/
def altSize : ℕ := 256

/-- An alternative is tried, with the rest of the pattern, if both fit into the buffer. -/
def tryAlternate (match_ : List UInt8 → Bool) (alt rest : List UInt8) : Option Bool :=
  if alt.length ≥ altSize - 1 then none
  else if alt.length + rest.length ≥ altSize then none
  else some (match_ (alt ++ rest))

/-- `MatchAlternates`: `alt` is what has been read of an alternative. The last one is
    followed by what comes after the first closing brace. -/
def matchAlternates (match_ : List UInt8 → Bool) (rest : List UInt8) :
    List UInt8 → List UInt8 → Bool
  | _, [] => false
  | alt, c :: p =>
    if c = 125 then (tryAlternate match_ alt p).getD false
    else if c = 44 then
      match tryAlternate match_ alt rest with
      | none => false
      | some true => true
      | some false => matchAlternates match_ rest [] p
    else matchAlternates match_ rest (alt ++ [c]) p

/-- `PatternMatchImpl`, with fuel for its recursion. -/
def patternMatchImpl : ℕ → List UInt8 → List UInt8 → Bool
  | 0, _, _ => false
  | _ + 1, [], a => a.isEmpty
  | fuel + 1, c :: p, a =>
    if c = 63 then
      match a with
      | [] => false
      | _ :: a => patternMatchImpl fuel p a
    else if c = 42 then
      -- After the last of several `*`, every position of the address is tried.
      if (p.dropWhile (· == 42)).isEmpty then true
      else a.tails.any fun a' => !a'.isEmpty && patternMatchImpl fuel (p.dropWhile (· == 42)) a'
    else if c = 91 then
      match a with
      | [] => false
      | ch :: a =>
        match matchCharClass ch p with
        | some (true, p') => patternMatchImpl fuel p' a
        | _ => false
    else if c = 123 then
      matchAlternates (fun p' => patternMatchImpl fuel p' a) (skipBraces 1 p) [] p
    else
      match a with
      | [] => false
      | b :: a => b == c && patternMatchImpl fuel p a

def oscPatternMatch (pattern address : List UInt8) : Bool :=
  patternMatchImpl (pattern.length + 1) pattern address

/-! ## The recursion ends with the pattern -/

variable {ch : UInt8} {p' : List UInt8} {hit : Bool} {p : List UInt8}

theorem length_of_matchClass {matched : Bool}
    (h : matchClass ch p matched = some (hit, p')) : p'.length < p.length := by
  fun_induction matchClass ch p matched with
  | case1 => cases h
  | case2 => cases h; exact Nat.lt_succ_self _
  | case3 c₁ dash c₂ p matched hc₁ hdash ih =>
    have hlt := ih h
    simp only [length_cons]
    omega
  | case4 c₁ dash c₂ p matched hc₁ hdash ih => exact (ih h).trans (Nat.lt_succ_self _)
  | case5 => cases h; exact Nat.lt_succ_self _
  | case6 c₁ p matched hp hc₁ ih => exact (ih h).trans (Nat.lt_succ_self _)

theorem length_of_matchCharClass
    (h : matchCharClass ch p = some (hit, p')) : p'.length < p.length := by
  unfold matchCharClass at h
  split at h
  · rename_i p₁
    obtain ⟨⟨matched, rest⟩, hclass, heq⟩ := Option.map_eq_some_iff.1 h
    cases heq
    exact (length_of_matchClass hclass).trans (Nat.lt_succ_self _)
  · exact length_of_matchClass h

variable (depth : ℕ)

theorem length_skipBraces_le (p : List UInt8) : (skipBraces depth p).length ≤ p.length := by
  fun_induction skipBraces depth p with
  | case1 => exact Nat.le_refl _
  | case2 => exact Nat.le_refl _
  | case3 depth c p ih => exact ih.trans (Nat.le_succ _)

/-- The alternative fits into the buffer, with the rest of the pattern. -/
def Fits (alt rest : List UInt8) : Prop :=
  alt.length < altSize - 1 ∧ alt.length + rest.length < altSize

instance (alt rest : List UInt8) : Decidable (Fits alt rest) := inferInstanceAs (Decidable (_ ∧ _))

/-- The patterns that `matchAlternates` tries, one after the other. -/
def branches (rest : List UInt8) : List UInt8 → List UInt8 → List (List UInt8)
  | _, [] => []
  | alt, c :: p =>
    if c = 125 then if Fits alt p then [alt ++ p] else []
    else if c = 44 then if Fits alt rest then (alt ++ rest) :: branches rest [] p else []
    else branches rest (alt ++ [c]) p

theorem tryAlternate_eq (f : List UInt8 → Bool) (alt rest : List UInt8) :
    tryAlternate f alt rest = if Fits alt rest then some (f (alt ++ rest)) else none := by
  by_cases h : Fits alt rest
  · rw [if_pos h, tryAlternate, if_neg (Nat.not_le.2 h.1), if_neg (Nat.not_le.2 h.2)]
  · rw [if_neg h, tryAlternate]
    split_ifs with hsize hrest
    · rfl
    · rfl
    · exact absurd ⟨Nat.not_le.1 hsize, Nat.not_le.1 hrest⟩ h

theorem matchAlternates_eq_any (f : List UInt8 → Bool) (rest alt p : List UInt8) :
    matchAlternates f rest alt p = (branches rest alt p).any f := by
  induction p generalizing alt with
  | nil => rfl
  | cons c p ih =>
    rw [matchAlternates, branches, tryAlternate_eq, tryAlternate_eq]
    by_cases hclose : c = 125
    · rw [if_pos hclose, if_pos hclose]
      split_ifs <;> simp
    by_cases hcomma : c = 44
    · rw [if_neg hclose, if_neg hclose, if_pos hcomma, if_pos hcomma]
      split_ifs
      · cases hhit : f (alt ++ rest) <;> simp [hhit, ih]
      · rfl
    · rw [if_neg hclose, if_neg hclose, if_neg hcomma, if_neg hcomma, ih]

/-- What is tried is shorter than the pattern it is taken from: as long as no brace is closed,
    the rest is beyond the alternative. -/
theorem length_of_mem_branches {alt b : List UInt8}
    (h : b ∈ branches (skipBraces (depth + 1) p) alt p) : b.length < alt.length + p.length := by
  induction p generalizing alt depth with
  | nil => cases h
  | cons c p ih =>
    rw [branches, skipBraces] at h
    rw [length_cons]
    by_cases hclose : c = 125
    · rw [if_pos hclose] at h
      split_ifs at h
      · rw [mem_singleton.1 h, length_append]
        omega
      · cases h
    obtain ⟨d, hd⟩ : ∃ d, (if c = 123 then depth + 2 else if c = 125 then depth
        else depth + 1) = d + 1 := by
      rw [if_neg hclose]
      split_ifs
      · exact ⟨depth + 1, rfl⟩
      · exact ⟨depth, rfl⟩
    have hskip := length_skipBraces_le (d + 1) p
    rw [hd, if_neg hclose] at h
    split_ifs at h
    · rcases mem_cons.1 h with rfl | h
      · rw [length_append]
        omega
      · have hlt := ih d h
        rw [length_nil] at hlt
        omega
    · cases h
    · have hlt := ih d h
      rw [length_append, length_singleton] at hlt
      omega

variable {f g : List UInt8 → Bool}

/-- The alternatives are shorter than the pattern they are taken from. -/
theorem matchAlternates_congr (h : ∀ q, q.length < p.length → f q = g q) :
    matchAlternates f (skipBraces 1 p) [] p = matchAlternates g (skipBraces 1 p) [] p := by
  rw [matchAlternates_eq_any, matchAlternates_eq_any, Bool.eq_iff_iff, any_eq_true, any_eq_true]
  refine exists_congr fun b => and_congr_right fun hb => ?_
  rw [h b (by simpa using length_of_mem_branches 0 hb)]

/-- The length of the pattern is fuel enough. -/
theorem patternMatchImpl_fuel {n m : ℕ} (hn : p.length < n) (hm : p.length < m)
    (a : List UInt8) : patternMatchImpl n p a = patternMatchImpl m p a := by
  induction n generalizing m p a with
  | zero => cases hn
  | succ n ih =>
    cases m with
    | zero => cases hm
    | succ m =>
      cases p with
      | nil => rfl
      | cons c p =>
        rw [length_cons, Nat.add_lt_add_iff_right] at hn hm
        -- Every branch goes on with a shorter pattern.
        have hshorter {q : List UInt8} (hq : q.length ≤ p.length) (a : List UInt8) :
            patternMatchImpl n q a = patternMatchImpl m q a :=
          ih (hq.trans_lt hn) (hq.trans_lt hm) a
        have hdrop := hshorter (length_dropWhile_le (· == 42) p)
        have halt (a : List UInt8) :
            matchAlternates (fun q => patternMatchImpl n q a) (skipBraces 1 p) [] p =
              matchAlternates (fun q => patternMatchImpl m q a) (skipBraces 1 p) [] p :=
          matchAlternates_congr fun q hq => hshorter hq.le a
        have hp := hshorter (Nat.le_refl p.length)
        have hclass (ch : UInt8) (a : List UInt8) :
            (match matchCharClass ch p with
              | some (true, p') => patternMatchImpl n p' a
              | _ => false) =
            match matchCharClass ch p with
              | some (true, p') => patternMatchImpl m p' a
              | _ => false := by
          split
          · rename_i p' hp'
            exact hshorter (length_of_matchCharClass hp').le a
          · rfl
        simp only [patternMatchImpl, hdrop, halt, hp, hclass]

theorem patternMatchImpl_eq {fuel : ℕ} (h : p.length < fuel) (a : List UInt8) :
    patternMatchImpl fuel p a = oscPatternMatch p a :=
  patternMatchImpl_fuel h (Nat.lt_succ_self _) a

end WKOpenVR.Osc
