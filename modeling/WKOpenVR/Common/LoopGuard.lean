import Mathlib.Data.UInt
import WKOpenVR.Machine
import WKOpenVR.Text

/-!
# The guard of the recovery loop

The overlay relaunches SteamVR out of safe mode, and a guard bounds how often
(`EvaluateLoopGuard`). The guard counts the attempts of a window, which begins with the first
attempt after the last window has elapsed, and which is kept in a file from one launch to the
next (`WriteLoopGuardState`, `ReadLoopGuardState`).

A window has at most `maxAttempts` attempts, and windows begin at least `windowSeconds` apart.
An interval as long as a window meets at most two of them, and of the earlier one it misses the
first attempt, so that there are at most `2 * maxAttempts - 1` attempts in it
(`countP_allowed_le`). `Within` follows the attempts of the interval through a run.
-/

namespace WKOpenVR.Common.LoopGuard

open Text List

structure LoopGuardState where
  count : UInt32 := 0
  windowStartEpoch : ℤ := 0
  deriving DecidableEq

structure LoopGuardDecision where
  allowed : Bool
  next : LoopGuardState
  deriving DecidableEq

def evaluateLoopGuard (prev : LoopGuardState) (nowEpoch : ℤ) (maxAttempts : UInt32)
    (windowSeconds : ℤ) : LoopGuardDecision :=
  if prev.windowStartEpoch = 0 ∨ nowEpoch - prev.windowStartEpoch ≥ windowSeconds ∨
      nowEpoch < prev.windowStartEpoch then
    ⟨true, 1, nowEpoch⟩
  else if prev.count < maxAttempts then ⟨true, prev.count + 1, prev.windowStartEpoch⟩
  else ⟨false, prev⟩

/-! ## The file -/

/-- The text of a number (`ostream <<`). -/
def putInt (n : ℤ) : List UInt8 := if n < 0 then 45 :: decimal n.natAbs else decimal n.natAbs

/-- The next number of a text, and what follows it (`istream >>` for a `long long`). -/
def getInt (text : List UInt8) : Option (ℤ × List UInt8) :=
  let (negative, ds) := splitSign (text.dropWhile isSpace)
  if (ds.takeWhile isDigit).isEmpty then none
  else
    let value : ℤ :=
      if negative then -digitsValue (ds.takeWhile isDigit) else digitsValue (ds.takeWhile isDigit)
    if -9223372036854775808 ≤ value ∧ value < 9223372036854775808 then
      some (value, ds.dropWhile isDigit)
    else none

variable (file : Option (List UInt8))

/-- What is read from the file, if there is one. -/
def readLoopGuardState : Bool × LoopGuardState :=
  match file with
  | none => (false, {})
  | some body =>
    match getInt body with
    | none => (false, {})
    | some (count, rest) =>
      match getInt rest with
      | none => (false, {})
      | some (window, _) => (true, ⟨if count < 0 then 0 else .ofNat count.toNat, window⟩)

/-- The text that is written to the file. -/
def writeLoopGuardState (state : LoopGuardState) : List UInt8 :=
  decimal state.count.toNat ++ 32 :: (putInt state.windowStartEpoch ++ [10])

/-- A point in time, in seconds. -/
abbrev Epoch := {e : ℤ // 0 < e ∧ e < 9223372036854775808}

variable (maxAttempts : UInt32) (windowSeconds : ℤ)

/-- An attempt to recover: the state is read from the file, and written if the attempt is
    allowed. -/
def attempt (file : Option (List UInt8)) (now : Epoch) : Bool × Option (List UInt8) :=
  let guard := evaluateLoopGuard (readLoopGuardState file).2 now.1 maxAttempts windowSeconds
  if guard.allowed then (true, some (writeLoopGuardState guard.next)) else (false, file)

theorem getInt_decimal {n : ℕ} (hn : n < 9223372036854775808) (blanks rest : List UInt8)
    (hblanks : ∀ c ∈ blanks, isSpace c = true) (hrest : rest.takeWhile isDigit = []) :
    getInt (blanks ++ (decimal n ++ rest)) = some ((n : ℤ), rest) := by
  obtain ⟨htake, hdrop⟩ := split_append (fun c hc => isDigit_of_mem_decimal (n := n) hc) hrest
  have hrange : -9223372036854775808 ≤ (n : ℤ) ∧ (n : ℤ) < 9223372036854775808 := by omega
  simp only [getInt, dropWhile_append_of_pos hblanks, splitSign_decimal, htake, hdrop,
    digitsValue_decimal, List.isEmpty_iff, decimal_ne_nil, if_false, Bool.false_eq_true, hrange,
    and_self, if_true]

/-- A state is read as it has been written. -/
theorem readLoopGuardState_write {s : LoopGuardState} (hpos : 0 < s.windowStartEpoch)
    (hlt : s.windowStartEpoch < 9223372036854775808) :
    readLoopGuardState (some (writeLoopGuardState s)) = (true, s) := by
  have hcount := s.count.toNat_lt
  have hput : putInt s.windowStartEpoch = decimal s.windowStartEpoch.natAbs :=
    if_neg (by omega)
  have hfirst := getInt_decimal (n := s.count.toNat) (by omega) []
    (32 :: (putInt s.windowStartEpoch ++ [10])) (by simp) rfl
  have hsecond := getInt_decimal (n := s.windowStartEpoch.natAbs) (by omega) [32] [10]
    (forall_mem_singleton.2 rfl) rfl
  rw [nil_append] at hfirst
  have hcast : ((s.windowStartEpoch.natAbs : ℕ) : ℤ) = s.windowStartEpoch := by omega
  rw [hcast, ← hput] at hsecond
  simp only [readLoopGuardState, writeLoopGuardState, hfirst]
  rw [← singleton_append, hsecond]
  have hneg : ¬(s.count.toNat : ℤ) < 0 := by omega
  simp only [hneg, if_false, Int.toNat_natCast, UInt32.ofNat_toNat]

/-- An attempt, with the state itself in place of the file. -/
def attemptFrom (prev : LoopGuardState) (now : Epoch) : Bool × LoopGuardState :=
  let guard := evaluateLoopGuard prev now.1 maxAttempts windowSeconds
  (guard.allowed, guard.next)

variable (s : LoopGuardState)

/-- The file has the state, if an attempt has been made. -/
def Stores : Prop :=
  file = none ∧ s = {} ∨
    file = some (writeLoopGuardState s) ∧ 0 < s.windowStartEpoch ∧
      s.windowStartEpoch < 9223372036854775808

theorem Stores.read {file : Option (List UInt8)} {s : LoopGuardState} (h : Stores file s) :
    (readLoopGuardState file).2 = s := by
  rcases h with ⟨rfl, rfl⟩ | ⟨rfl, hpos, hlt⟩
  · rfl
  · rw [readLoopGuardState_write hpos hlt]

/-- The three outcomes of an attempt. -/
theorem evaluateLoopGuard_cases (now : ℤ) (maxAttempts : UInt32) (windowSeconds : ℤ) :
    (s.windowStartEpoch = 0 ∨ windowSeconds ≤ now - s.windowStartEpoch ∨ now < s.windowStartEpoch) ∧
        evaluateLoopGuard s now maxAttempts windowSeconds = ⟨true, 1, now⟩ ∨
      s.windowStartEpoch ≠ 0 ∧ s.count.toNat < maxAttempts.toNat ∧
        evaluateLoopGuard s now maxAttempts windowSeconds =
          ⟨true, s.count + 1, s.windowStartEpoch⟩ ∨
      s.windowStartEpoch ≠ 0 ∧
        evaluateLoopGuard s now maxAttempts windowSeconds = ⟨false, s⟩ := by
  unfold evaluateLoopGuard
  split_ifs with helapsed hcount
  · exact .inl ⟨helapsed, rfl⟩
  · exact .inr (.inl ⟨fun hzero => helapsed (.inl hzero), UInt32.lt_iff_toNat_lt.1 hcount, rfl⟩)
  · exact .inr (.inr ⟨fun hzero => helapsed (.inl hzero), rfl⟩)

/-- An attempt reads what the last one has written. -/
theorem attempt_simulates (file : Option (List UInt8))
    (s : LoopGuardState) (now : Epoch) (h : Stores file s) :
    (attempt maxAttempts windowSeconds file now).1 =
        (attemptFrom maxAttempts windowSeconds s now).1 ∧
      Stores (attempt maxAttempts windowSeconds file now).2
        (attemptFrom maxAttempts windowSeconds s now).2 := by
  unfold attempt attemptFrom
  rw [h.read]
  rcases evaluateLoopGuard_cases s now.1 maxAttempts windowSeconds with
    ⟨-, heval⟩ | ⟨hne, -, heval⟩ | ⟨-, heval⟩
  · rw [heval]
    exact ⟨rfl, .inr ⟨rfl, now.2⟩⟩
  · rw [heval]
    rcases h with ⟨-, rfl⟩ | ⟨-, hrange⟩
    · exact absurd rfl hne
    · exact ⟨rfl, .inr ⟨rfl, hrange⟩⟩
  · rw [heval]
    exact ⟨rfl, h⟩

/-! ## The attempts of an interval -/

section Interval

variable (a : ℤ)

/-- Whether an attempt is allowed, and falls into the interval from `a` on. -/
def inInterval (p : Epoch × Bool) : Bool := p.2 && decide (a ≤ p.1.1 ∧ p.1.1 < a + windowSeconds)

/-- The state `s` after attempts up to a time, `n` of which fall into the interval. -/
structure Within (s : LoopGuardState) (last : ℤ) (n : ℕ) : Prop where
  le : n + 1 ≤ 2 * maxAttempts.toNat
  start_nonneg : 0 ≤ s.windowStartEpoch
  start_le : s.windowStartEpoch ≤ last
  count_le : s.windowStartEpoch ≠ 0 → 1 ≤ s.count.toNat ∧ s.count.toNat ≤ maxAttempts.toNat
  /-- The interval has not begun. -/
  before : last < a → n = 0
  /-- There is no window. -/
  no_window : s.windowStartEpoch = 0 → n = 0
  /-- The window began before the interval, with an attempt that is not in the interval. -/
  window_before : s.windowStartEpoch ≠ 0 → s.windowStartEpoch < a → n + 1 ≤ s.count.toNat
  /-- The window began in the interval: the one before it began before the interval. -/
  window_in : a ≤ s.windowStartEpoch → s.windowStartEpoch < a + windowSeconds →
    n + 1 ≤ maxAttempts.toNat + s.count.toNat

variable {maxAttempts windowSeconds a s} {last : ℤ} {n : ℕ}

theorem Within.start (hmax : 1 ≤ maxAttempts.toNat) :
    Within maxAttempts windowSeconds a {} 0 0 where
  le := by omega
  start_nonneg := le_rfl
  start_le := le_rfl
  count_le := fun h => absurd rfl h
  before := fun _ => rfl
  no_window := fun _ => rfl
  window_before := fun h => absurd rfl h
  window_in := fun _ _ => by omega

/-- An attempt that opens a window. -/
theorem Within.open_window (h : Within maxAttempts windowSeconds a s last n)
    (hmax : 1 ≤ maxAttempts.toNat) {now : ℤ} (hpos : 0 < now) (hlast : last ≤ now)
    (helapsed : s.windowStartEpoch = 0 ∨ windowSeconds ≤ now - s.windowStartEpoch) {k : ℕ}
    (hk : k = if a ≤ now ∧ now < a + windowSeconds then 1 else 0) :
    Within maxAttempts windowSeconds a ⟨1, now⟩ now (n + k) := by
  obtain ⟨hle, hnonneg, hstart, hcount, hbefore, hno, hwbefore, hwin⟩ := h
  have hone : (1 : UInt32).toNat = 1 := rfl
  -- A window that began in the interval is over after it, so none of this attempt is in it.
  have hwindow : s.windowStartEpoch = 0 ∧ n = 0 ∨
      s.windowStartEpoch ≠ 0 ∧ s.windowStartEpoch < a ∧ n + 1 ≤ maxAttempts.toNat ∨
      a + windowSeconds ≤ now := by
    by_cases hzero : s.windowStartEpoch = 0
    · exact .inl ⟨hzero, hno hzero⟩
    · have hcounts := hcount hzero
      by_cases hlt : s.windowStartEpoch < a
      · have hn := hwbefore hzero hlt
        exact .inr (.inl ⟨hzero, hlt, by omega⟩)
      · exact .inr (.inr (by omega))
  constructor
  · show n + k + 1 ≤ 2 * maxAttempts.toNat
    split_ifs at hk with hin
    · omega
    · omega
  · exact hpos.le
  · exact le_rfl
  · intro _
    simp only [hone]
    omega
  · intro hnow
    have hn := hbefore (by omega)
    rw [if_neg (by omega)] at hk
    omega
  · intro hzero
    exact absurd hzero hpos.ne'
  · intro _ (hnow : now < a)
    have hn := hbefore (lt_of_le_of_lt hlast hnow)
    rw [if_neg (by omega)] at hk
    simp only [hone]
    omega
  · intro (hge : a ≤ now) (hlt : now < a + windowSeconds)
    rw [if_pos ⟨hge, hlt⟩] at hk
    simp only [hone]
    omega

/-- An attempt in the current window. -/
theorem Within.count_attempt (h : Within maxAttempts windowSeconds a s last n)
    (hne : s.windowStartEpoch ≠ 0) (hcount : s.count.toNat < maxAttempts.toNat) {now : ℤ}
    (hlast : last ≤ now) {k : ℕ} (hk : k = if a ≤ now ∧ now < a + windowSeconds then 1 else 0) :
    Within maxAttempts windowSeconds a ⟨s.count + 1, s.windowStartEpoch⟩ now (n + k) := by
  obtain ⟨hle, hnonneg, hstart, hcounts, hbefore, hno, hwbefore, hwin⟩ := h
  have hlt := maxAttempts.toNat_lt
  have hsucc : (s.count + 1).toNat = s.count.toNat + 1 := by
    rw [UInt32.toNat_add, UInt32.toNat_one]
    omega
  have hcounts := hcounts hne
  constructor
  · -- The window began before the interval, in it, or after it.
    by_cases hbegin : s.windowStartEpoch < a
    · have hn := hwbefore hne hbegin
      split_ifs at hk <;> omega
    · by_cases hend : s.windowStartEpoch < a + windowSeconds
      · have hn := hwin (not_lt.1 hbegin) hend
        split_ifs at hk <;> omega
      · rw [if_neg (by omega)] at hk
        omega
  · exact hnonneg
  · exact hstart.trans hlast
  · intro _
    simp only [hsucc]
    omega
  · intro hnow
    rw [if_neg (by omega)] at hk
    have hn := hbefore (by omega)
    omega
  · exact fun hzero => absurd hzero hne
  · intro _ hbegin
    have hn := hwbefore hne hbegin
    simp only [hsucc]
    split_ifs at hk <;> omega
  · intro hge hlt
    have hn := hwin hge hlt
    simp only [hsucc]
    split_ifs at hk <;> omega

/-- The bound holds after one more attempt. -/
theorem Within.attemptFrom (h : Within maxAttempts windowSeconds a s last n)
    (hmax : 1 ≤ maxAttempts.toNat) {now : Epoch} (hlast : last ≤ now.1) :
    Within maxAttempts windowSeconds a (attemptFrom maxAttempts windowSeconds s now).2 now.1
      (n + if inInterval windowSeconds a (now, (attemptFrom maxAttempts windowSeconds s now).1)
        then 1 else 0) := by
  have hstart := h.start_le
  unfold LoopGuard.attemptFrom inInterval
  rcases evaluateLoopGuard_cases s now.1 maxAttempts windowSeconds with
    ⟨helapsed, heval⟩ | ⟨hne, hcount, heval⟩ | ⟨-, heval⟩
  · simp only [heval]
    exact h.open_window hmax now.2.1 hlast (by omega) (by simp)
  · simp only [heval]
    exact h.count_attempt hne hcount hlast (by simp)
  · simp only [heval]
    exact { h with
      start_le := hstart.trans hlast
      before := fun hnow => h.before (hlast.trans_lt hnow) }

/-- The attempts of a run that fall into the interval. -/
theorem Within.countP_le (h : Within maxAttempts windowSeconds a s last n)
    (hmax : 1 ≤ maxAttempts.toNat) (epochs : List Epoch) (hlast : ∀ e ∈ epochs, last ≤ e.1)
    (hsorted : epochs.Pairwise fun e e' => e.1 ≤ e'.1) :
    n + (epochs.zip (answers (LoopGuard.attemptFrom maxAttempts windowSeconds) s
      epochs).1).countP (inInterval windowSeconds a) + 1 ≤ 2 * maxAttempts.toNat := by
  induction epochs generalizing s last n with
  | nil => simpa using h.le
  | cons now epochs ih =>
    obtain ⟨hfirst, hsorted⟩ := pairwise_cons.1 hsorted
    have hcount := ih (h.attemptFrom hmax (hlast now mem_cons_self)) hfirst hsorted
    rw [answers, zip_cons_cons, countP_cons]
    omega

end Interval

/-- Any interval of the length of a window has at most `2 * maxAttempts - 1` attempts that are
    allowed, however the attempts are spread. -/
theorem countP_allowed_le {maxAttempts : UInt32} (hmax : 1 ≤ maxAttempts) (windowSeconds : ℤ)
    (epochs : List Epoch) (hsorted : epochs.Pairwise fun e e' => e.1 ≤ e'.1) (a : ℤ) :
    (epochs.zip (answers (attempt maxAttempts windowSeconds) none epochs).1).countP
      (inInterval windowSeconds a) ≤ 2 * maxAttempts.toNat - 1 := by
  have hmax' : 1 ≤ maxAttempts.toNat := UInt32.le_iff_toNat_le.1 hmax
  have hanswers := (answers_simulation (attempt_simulates maxAttempts windowSeconds)
    (.inl ⟨rfl, rfl⟩ : Stores none {}) epochs).1
  have hstart : Within maxAttempts windowSeconds a {} 0 0 := Within.start hmax'
  have hcount := hstart.countP_le hmax' epochs (fun e _ => e.2.1.le) hsorted
  rw [hanswers]
  omega

/-- Attempts in two windows, of which the interval misses the first one. -/
theorem countP_allowed_le_window :
    ([⟨100, by decide⟩, ⟨190, by decide⟩, ⟨205, by decide⟩].zip (answers (attempt 2 100) none
        [⟨100, by decide⟩, ⟨190, by decide⟩, ⟨205, by decide⟩]).1).countP (inInterval 100 150) ≤
          3 :=
  countP_allowed_le (by decide) 100 _ (by simp) 150

end WKOpenVR.Common.LoopGuard
