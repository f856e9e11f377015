import WKOpenVR.Machine
import Mathlib.Algebra.Order.Field.Basic
import Mathlib.Tactic.Linarith

/-!
# The guard of the saved calibration

While the calibration runs continuously, a candidate is accepted several times a second,
and the profile is saved now and then (`Calibration.cpp`). A translation far from the saved
one is not saved at once: it has to prove itself, by candidates that agree, or by lasting
(`ContinuousPersistDecision.h`). Three functions save the profile: the tick that accepts a
candidate (`tickCandidateAcceptAndPersist`), the end of the continuous mode
(`endContinuousCalibration`), and the flush when the overlay shuts down
(`flushPendingContinuousSave`).

Every translation that is saved is near the one saved before, or has proven itself
(`Proven`), as long as the end of the continuous mode saves a translation that would pass
the guard, and nothing happens after it saved one that the guard does not know of
(`saved_proven`). Neither is so in the code: the end asks no guard, and does not note the
translation it saves (`end_skips_guard`).
-/

namespace WKOpenVR.Calibration.PersistGuard

/-- Translations `V` with their distance, in centimetres, in the numbers `K`: the vectors of
    the space with the length of their difference, or those of a line. -/
class TranslationSpace (V : Type*) (K : outParam (Type*)) where
  /-- `(a - b).norm()`. -/
  dist : V → V → K

open TranslationSpace

/-- What is kept of the profile in a snapshot. -/
structure Snapshot (V : Type*) where
  validProfile : Bool
  calibratedTranslation : V

structure Context (V K : Type*) where
  /-- The calibration is in the state `Continuous`. -/
  continuous : Bool
  calibratedTranslation : V
  validProfile : Bool
  continuousStartSnapshot : Option (Snapshot V)
  lastAcceptedContinuousSnapshot : Option (Snapshot V)
  lastContinuousSaveTime : K
  lastPersistedContinuousTranslation : V
  /-- The start of the streak of oversized candidates, or 0. -/
  anomalousPersistFirstSeen : K
  anomalousPersistAgreeCount : ℕ
  anomalousPersistLastAttempt : V
  continuousSaveDirty : Bool

variable {V K : Type*} [Field K] [LinearOrder K]

def shouldPersistContinuous (nowSec lastSaveSec offsetDeltaCm : K) (isFirstCandidate : Bool) :
    Bool :=
  isFirstCandidate || decide (1 < offsetDeltaCm) || decide (2 ≤ nowSec - lastSaveSec)

def shouldDeferAnomalousPersist (deltaCm dwellSec : K) (agreeingAttempts : ℕ) : Bool :=
  if deltaCm ≤ 100 then false
  else if 10 ≤ dwellSec then false
  else if 3 ≤ agreeingAttempts then false
  else true

namespace Context

variable (ctx : Context V K)

def captureProfileSnapshot : Snapshot V :=
  ⟨ctx.validProfile, ctx.calibratedTranslation⟩

def startContinuousCalibration : Context V K :=
  { ctx with
    continuousStartSnapshot := some ctx.captureProfileSnapshot
    lastAcceptedContinuousSnapshot := none
    continuous := true }

/-- The snapshot that the end of the continuous mode restores. -/
def selected : Option (Snapshot V) :=
  ctx.lastAcceptedContinuousSnapshot <|> ctx.continuousStartSnapshot

/-- The snapshot is restored, and saved if it is valid. -/
def endContinuousCalibration : Context V K × Option V :=
  let ended := { ctx with
    continuous := false
    continuousStartSnapshot := none
    lastAcceptedContinuousSnapshot := none
    continuousSaveDirty := false }
  match ctx.selected with
  | some snap =>
    ({ ended with
        validProfile := snap.validProfile
        calibratedTranslation := snap.calibratedTranslation },
     if snap.validProfile then some snap.calibratedTranslation else none)
  | none => (ended, none)

variable [TranslationSpace V K]

/-- The guard, asked for a translation outside of a tick. -/
def deferred (ctx : Context V K) (time : K) (translation : V) : Bool :=
  shouldDeferAnomalousPersist (dist translation ctx.lastPersistedContinuousTranslation)
    (if 0 < ctx.anomalousPersistFirstSeen then time - ctx.anomalousPersistFirstSeen else 0)
    ctx.anomalousPersistAgreeCount

/-- The translation is saved when the overlay shuts down, if it was not yet, and the guard
    lets it pass. -/
def flushPendingContinuousSave (ctx : Context V K) (time currentTime : K) :
    Context V K × Option V :=
  if !ctx.continuousSaveDirty then (ctx, none)
  else if !ctx.validProfile || ctx.deferred time ctx.calibratedTranslation then
    ({ ctx with continuousSaveDirty := false }, none)
  else
    ({ ctx with
        lastContinuousSaveTime := currentTime
        lastPersistedContinuousTranslation := ctx.calibratedTranslation
        continuousSaveDirty := false },
     some ctx.calibratedTranslation)

/-- The streak of oversized candidates after the candidate that was just accepted, and
    whether its saving is deferred. -/
def guardCandidate (ctx : Context V K) (time : K) : Context V K × Bool :=
  let offsetDeltaCm := dist ctx.calibratedTranslation ctx.lastPersistedContinuousTranslation
  if 100 < offsetDeltaCm then
    if 0 < ctx.anomalousPersistFirstSeen ∧
        dist ctx.calibratedTranslation ctx.anomalousPersistLastAttempt ≤ 5 then
      ({ ctx with
          anomalousPersistAgreeCount := ctx.anomalousPersistAgreeCount + 1
          anomalousPersistLastAttempt := ctx.calibratedTranslation },
       shouldDeferAnomalousPersist offsetDeltaCm (time - ctx.anomalousPersistFirstSeen)
        (ctx.anomalousPersistAgreeCount + 1))
    else
      ({ ctx with
          anomalousPersistFirstSeen := time
          anomalousPersistAgreeCount := 1
          anomalousPersistLastAttempt := ctx.calibratedTranslation },
       shouldDeferAnomalousPersist offsetDeltaCm (time - time) 1)
  else if 0 < ctx.anomalousPersistFirstSeen then
    ({ ctx with anomalousPersistFirstSeen := 0, anomalousPersistAgreeCount := 0 }, false)
  else (ctx, false)

/-- The profile is saved if the guard does not defer it and it is time to. -/
def persistCandidate (currentTime offsetDeltaCm : K) (defer first : Bool) :
    Context V K × Option V :=
  if !defer && shouldPersistContinuous currentTime ctx.lastContinuousSaveTime offsetDeltaCm first
  then
    ({ ctx with
        lastContinuousSaveTime := currentTime
        lastPersistedContinuousTranslation := ctx.calibratedTranslation
        continuousSaveDirty := false
        anomalousPersistFirstSeen := 0
        anomalousPersistAgreeCount := 0 },
     some ctx.calibratedTranslation)
  else ({ ctx with continuousSaveDirty := true }, none)

/-- A candidate is accepted. Outside of the continuous mode it is saved at once. -/
def tickCandidateAcceptAndPersist (ctx : Context V K) (time currentTime : K) (candidate : V) :
    Context V K × Option V :=
  let accepted := { ctx with calibratedTranslation := candidate, validProfile := true }
  if ctx.continuous then
    let (guarded, defer) := accepted.guardCandidate time
    let (persisted, saved) := guarded.persistCandidate currentTime
      (dist candidate ctx.lastPersistedContinuousTranslation) defer
      ctx.lastAcceptedContinuousSnapshot.isNone
    ({ persisted with lastAcceptedContinuousSnapshot := some persisted.captureProfileSnapshot },
     saved)
  else ({ accepted with continuousSaveDirty := false }, some candidate)

def loaded (translation : V) (validProfile : Bool) : Context V K where
  continuous := false
  calibratedTranslation := translation
  validProfile := validProfile
  continuousStartSnapshot := none
  lastAcceptedContinuousSnapshot := none
  lastContinuousSaveTime := -1000000000
  lastPersistedContinuousTranslation := translation
  anomalousPersistFirstSeen := 0
  anomalousPersistAgreeCount := 0
  anomalousPersistLastAttempt := translation
  continuousSaveDirty := false

end Context

/-! ## Sessions -/

/-- A candidate that was accepted. -/
structure Attempt (V K : Type*) where
  time : K
  translation : V
  deriving DecidableEq

/-- The context, with what happened so far. -/
structure Session (V K : Type*) where
  ctx : Context V K
  now : K
  /-- The translation that was saved last, or loaded. -/
  saved : V
  /-- The accepted candidates, the newest first. -/
  accepted : List (Attempt V K)

inductive Action (V K : Type*)
  | startContinuous (time : K)
  | candidate (time currentTime : K) (translation : V)
  | endContinuous (time : K)
  | flush (time currentTime : K)

def Action.time : Action V K → K
  | .startContinuous time => time
  | .candidate time _ _ => time
  | .endContinuous time => time
  | .flush time _ => time

namespace Session

variable [TranslationSpace V K]

/-- The context after a call, and the translation that it saves. -/
def call (s : Session V K) : Action V K → Context V K × Option V
  | .startContinuous _ => (s.ctx.startContinuousCalibration, none)
  | .candidate time currentTime translation =>
    s.ctx.tickCandidateAcceptAndPersist time currentTime translation
  | .endContinuous _ => s.ctx.endContinuousCalibration
  | .flush time currentTime => s.ctx.flushPendingContinuousSave time currentTime

variable (s : Session V K)

def acceptedAfter : Action V K → List (Attempt V K)
  | .candidate time _ translation => ⟨time, translation⟩ :: s.accepted
  | _ => s.accepted

variable (a : Action V K)

def after : Session V K where
  ctx := (s.call a).1
  now := a.time
  saved := (s.call a).2.getD s.saved
  accepted := s.acceptedAfter a

/-- Candidates are accepted in the continuous mode. -/
def Enabled : Prop :=
  s.now ≤ a.time ∧ match a with
    | .candidate .. => s.ctx.continuous = true
    | _ => True

instance (s : Session V K) : DecidablePred s.Enabled
  | .startContinuous _ => inferInstanceAs (Decidable (_ ∧ True))
  | .candidate .. => inferInstanceAs (Decidable (_ ∧ _ = true))
  | .endContinuous _ => inferInstanceAs (Decidable (_ ∧ True))
  | .flush .. => inferInstanceAs (Decidable (_ ∧ True))

end Session

variable [TranslationSpace V K]

def machine (V K : Type*) [Field K] [LinearOrder K] [TranslationSpace V K] :
    Machine (Session V K) (Action V K) where
  init := {s | ∃ translation validProfile now,
    s = ⟨.loaded translation validProfile, now, translation, []⟩}
  step s a := if s.Enabled a then some (s.after a) else none

/-- The newest `n` of the accepted candidates agree, each with the one before it: the newest
    is `translation`, and the oldest was accepted at the time `first`. -/
inductive Streak : List (Attempt V K) → V → K → ℕ → Prop
  | one (time : K) (x : V) (accepted : List (Attempt V K)) : Streak (⟨time, x⟩ :: accepted) x time 1
  | next {accepted : List (Attempt V K)} {y : V} {first : K} {n : ℕ} (time : K) (x : V) :
      Streak accepted y first n → dist x y ≤ 5 → Streak (⟨time, x⟩ :: accepted) x first (n + 1)

/-- A translation may be saved at the time `now`: it is near the one saved before, or the
    last of three candidates that agree, or of a streak of them that is ten seconds old. -/
def Proven (saved : V) (accepted : List (Attempt V K)) (now : K) (translation : V) : Prop :=
  dist translation saved ≤ 100 ∨
    ∃ first n, Streak accepted translation first n ∧ (3 ≤ n ∨ 10 ≤ now - first)

variable (s : Session V K)

/-- The guard measures from the translation that was saved last. -/
def Session.Synced : Prop := s.ctx.lastPersistedContinuousTranslation = s.saved

/-- What the guard needs of a call: that it measures from the right translation, and that a
    translation that the end of the continuous mode saves would pass it. -/
def Session.Guarded : Action V K → Prop
  | .startContinuous _ => True
  | .candidate .. => s.Synced
  | .endContinuous time => s.Synced ∧ ∀ snap ∈ s.ctx.selected,
      snap.validProfile = true → s.ctx.deferred time snap.calibratedTranslation = false
  | .flush .. => s.Synced

instance [DecidableEq V] : DecidableRel (Session.Guarded : Session V K → Action V K → Prop)
  | _, .startContinuous _ => inferInstanceAs (Decidable True)
  | _, .candidate .. => inferInstanceAs (Decidable (_ = _))
  | s, .endContinuous time => inferInstanceAs (Decidable (_ = _ ∧ ∀ snap ∈ s.ctx.selected,
      snap.validProfile = true → s.ctx.deferred time snap.calibratedTranslation = false))
  | _, .flush .. => inferInstanceAs (Decidable (_ = _))

/-! ## The invariant -/

/-- There is no streak, or it is the one of the newest candidates. -/
def Tracked (ctx : Context V K) (accepted : List (Attempt V K)) : Prop :=
  ctx.anomalousPersistFirstSeen ≤ 0 ∧ ctx.anomalousPersistAgreeCount ≤ 1 ∨
    0 < ctx.anomalousPersistFirstSeen ∧
      Streak accepted ctx.anomalousPersistLastAttempt ctx.anomalousPersistFirstSeen
        ctx.anomalousPersistAgreeCount

structure Inv (ctx : Context V K) (accepted : List (Attempt V K)) : Prop where
  tracked : Tracked ctx accepted
  attempt : 0 < ctx.anomalousPersistFirstSeen →
    ctx.anomalousPersistLastAttempt = ctx.calibratedTranslation
  selected : ∀ snap, ctx.selected = some snap →
    snap.calibratedTranslation = ctx.calibratedTranslation

theorem not_deferred {deltaCm dwellSec : K} {agreeingAttempts : ℕ}
    (h : shouldDeferAnomalousPersist deltaCm dwellSec agreeingAttempts = false) :
    deltaCm ≤ 100 ∨ 10 ≤ dwellSec ∨ 3 ≤ agreeingAttempts := by
  unfold shouldDeferAnomalousPersist at h
  split_ifs at h with hdelta hdwell hagree
  · exact .inl hdelta
  · exact .inr (.inl hdwell)
  · exact .inr (.inr hagree)

section

variable {ctx : Context V K} {accepted : List (Attempt V K)}

/-- A translation that the guard lets pass outside of a tick has proven itself. -/
theorem Inv.proven [IsStrictOrderedRing K] (h : Inv ctx accepted) {time : K}
    (hpass : ctx.deferred time ctx.calibratedTranslation = false) :
    Proven ctx.lastPersistedContinuousTranslation accepted time ctx.calibratedTranslation := by
  rcases not_deferred hpass with hdelta | hproof
  · exact .inl hdelta
  rcases h.tracked with ⟨hfirst, hcount⟩ | ⟨hfirst, hstreak⟩
  · -- Without a streak, nothing passes for its age or its length.
    rw [if_neg (not_lt.2 hfirst)] at hproof
    rcases hproof with hdwell | hagree
    · linarith
    · omega
  · rw [if_pos hfirst] at hproof
    rw [h.attempt hfirst] at hstreak
    exact .inr ⟨_, _, hstreak, hproof.symm⟩

/-- The guard of a tick follows the streak, and lets pass what has proven itself. -/
structure GuardSpec (ctx : Context V K) (accepted : List (Attempt V K)) (time : K)
    (r : Context V K × Bool) : Prop where
  tracked : Tracked r.1 (⟨time, ctx.calibratedTranslation⟩ :: accepted)
  attempt : 0 < r.1.anomalousPersistFirstSeen →
    r.1.anomalousPersistLastAttempt = ctx.calibratedTranslation
  calibratedTranslation : r.1.calibratedTranslation = ctx.calibratedTranslation
  proven : r.2 = false → Proven ctx.lastPersistedContinuousTranslation
    (⟨time, ctx.calibratedTranslation⟩ :: accepted) time ctx.calibratedTranslation

theorem guardCandidate_spec (h : Tracked ctx accepted) (time : K) :
    GuardSpec ctx accepted time (ctx.guardCandidate time) := by
  -- A streak that goes on, or starts, proves what passes for its age or its length.
  have hproven {first : K} {n : ℕ}
      (hstreak : Streak (⟨time, ctx.calibratedTranslation⟩ :: accepted)
        ctx.calibratedTranslation first n)
      (hpass : shouldDeferAnomalousPersist
        (dist ctx.calibratedTranslation ctx.lastPersistedContinuousTranslation) (time - first) n =
          false) :
      Proven ctx.lastPersistedContinuousTranslation
        (⟨time, ctx.calibratedTranslation⟩ :: accepted) time ctx.calibratedTranslation := by
    rcases not_deferred hpass with hdelta | hproof
    · exact .inl hdelta
    · exact .inr ⟨_, _, hstreak, hproof.symm⟩
  refine iteInduction (motive := GuardSpec ctx accepted time) (fun _ => ?_) fun hnear => ?_
  · refine iteInduction (motive := GuardSpec ctx accepted time) (fun hagrees => ?_) fun _ => ?_
    · rcases h with ⟨hfirst, -⟩ | ⟨hfirst, hstreak⟩
      · exact absurd hagrees.1 (not_lt.2 hfirst)
      · have hnext := Streak.next time ctx.calibratedTranslation hstreak hagrees.2
        exact ⟨.inr ⟨hfirst, hnext⟩, fun _ => rfl, rfl, hproven hnext⟩
    · have hone := Streak.one time ctx.calibratedTranslation accepted
      refine ⟨?_, fun _ => rfl, rfl, hproven hone⟩
      rcases le_or_gt time 0 with htime | htime
      · exact .inl ⟨htime, le_rfl⟩
      · exact .inr ⟨htime, hone⟩
  · refine iteInduction (motive := GuardSpec ctx accepted time) (fun _ => ?_) fun hfirst => ?_
    · exact ⟨.inl ⟨le_rfl, Nat.zero_le 1⟩, fun h => absurd h (lt_irrefl _), rfl,
        fun _ => .inl (not_lt.1 hnear)⟩
    · refine ⟨?_, fun h => absurd h hfirst, rfl, fun _ => .inl (not_lt.1 hnear)⟩
      rcases h with hnone | ⟨hfirst', -⟩
      · exact .inl hnone
      · exact absurd hfirst' hfirst

/-- What a call does: it keeps the invariant, and what it saves has proven itself, seen from
    the translation that the guard knows of. -/
structure CallSpec (ctx : Context V K) (accepted : List (Attempt V K)) (time : K)
    (r : Context V K × Option V) : Prop where
  inv : Inv r.1 accepted
  proven : ∀ t, r.2 = some t → Proven ctx.lastPersistedContinuousTranslation accepted time t

theorem persistCandidate_spec {lastPersisted : V} {time : K} (htracked : Tracked ctx accepted)
    (hattempt : 0 < ctx.anomalousPersistFirstSeen →
      ctx.anomalousPersistLastAttempt = ctx.calibratedTranslation) {defer : Bool}
    (hproven : defer = false → Proven lastPersisted accepted time ctx.calibratedTranslation)
    (currentTime offsetDeltaCm : K) (first : Bool) :
    let r := ctx.persistCandidate currentTime offsetDeltaCm defer first
    Tracked r.1 accepted ∧ r.1.calibratedTranslation = ctx.calibratedTranslation ∧
      (0 < r.1.anomalousPersistFirstSeen →
        r.1.anomalousPersistLastAttempt = ctx.calibratedTranslation) ∧
      ∀ t, r.2 = some t → Proven lastPersisted accepted time t := by
  unfold Context.persistCandidate
  dsimp only
  split
  case isTrue hsave =>
    refine ⟨.inl ⟨le_rfl, Nat.zero_le 1⟩, rfl, fun h => absurd h (lt_irrefl _), ?_⟩
    rintro _ ⟨⟩
    exact hproven (by simpa using (Bool.and_eq_true_iff.1 hsave).1)
  case isFalse => exact ⟨htracked, rfl, hattempt, nofun⟩

theorem tickCandidateAcceptAndPersist_spec (h : Inv ctx accepted) (hctx : ctx.continuous = true)
    (time currentTime : K) (candidate : V) :
    CallSpec ctx (⟨time, candidate⟩ :: accepted) time
      (ctx.tickCandidateAcceptAndPersist time currentTime candidate) := by
  let updated := { ctx with calibratedTranslation := candidate, validProfile := true }
  have htracked : Tracked updated accepted := h.tracked
  have hguard := guardCandidate_spec htracked time
  have hpass (hdefer : (updated.guardCandidate time).2 = false) :
      Proven ctx.lastPersistedContinuousTranslation (⟨time, candidate⟩ :: accepted) time
        (updated.guardCandidate time).1.calibratedTranslation := by
    rw [hguard.calibratedTranslation]
    exact hguard.proven hdefer
  unfold Context.tickCandidateAcceptAndPersist
  rw [if_pos hctx]
  obtain ⟨htracked, htranslation, hattempt, hproven⟩ :=
    persistCandidate_spec hguard.tracked
      (fun h => (hguard.attempt h).trans hguard.calibratedTranslation.symm) hpass currentTime
      (dist candidate ctx.lastPersistedContinuousTranslation)
      ctx.lastAcceptedContinuousSnapshot.isNone
  refine ⟨⟨htracked, fun h => (hattempt h).trans htranslation.symm, ?_⟩, hproven⟩
  rintro _ ⟨⟩
  rfl

theorem flushPendingContinuousSave_spec [IsStrictOrderedRing K] (h : Inv ctx accepted)
    (time currentTime : K) :
    CallSpec ctx accepted time (ctx.flushPendingContinuousSave time currentTime) := by
  refine iteInduction (motive := CallSpec ctx accepted time) (fun _ => ⟨h, nofun⟩) fun _ =>
    iteInduction (motive := CallSpec ctx accepted time) (fun _ => ⟨⟨h.tracked, h.attempt,
      h.selected⟩, nofun⟩) fun hpass => ⟨⟨h.tracked, h.attempt, h.selected⟩, ?_⟩
  rintro _ ⟨⟩
  simp only [Bool.or_eq_true, not_or, Bool.not_eq_true] at hpass
  exact h.proven hpass.2

theorem endContinuousCalibration_spec [IsStrictOrderedRing K] (h : Inv ctx accepted) {time : K}
    (hpass : ∀ snap ∈ ctx.selected, snap.validProfile = true →
      ctx.deferred time snap.calibratedTranslation = false) :
    CallSpec ctx accepted time ctx.endContinuousCalibration := by
  unfold Context.endContinuousCalibration
  cases hselected : ctx.selected with
  | none => exact ⟨⟨h.tracked, h.attempt, nofun⟩, nofun⟩
  | some snap =>
    have htranslation := h.selected snap hselected
    refine ⟨⟨h.tracked, fun hfirst => (h.attempt hfirst).trans htranslation.symm, nofun⟩, ?_⟩
    intro t ht
    obtain ⟨hvalid, rfl⟩ := Option.ite_some_none_eq_some.1 ht
    have hdeferred := hpass snap hselected hvalid
    rw [htranslation] at hdeferred ⊢
    exact h.proven hdeferred

end

section

variable [IsStrictOrderedRing K] {s s' : Session V K} {a : Action V K}

theorem call_spec (h : Inv s.ctx s.accepted) (henabled : s.Enabled a) (hguarded : s.Guarded a) :
    CallSpec s.ctx (s.acceptedAfter a) a.time (s.call a) := by
  cases a with
  | startContinuous time =>
    refine ⟨⟨h.tracked, h.attempt, ?_⟩, nofun⟩
    rintro _ ⟨⟩
    rfl
  | candidate time currentTime translation =>
    exact tickCandidateAcceptAndPersist_spec h henabled.2 time currentTime translation
  | endContinuous time => exact endContinuousCalibration_spec h hguarded.2
  | flush time currentTime => exact flushPendingContinuousSave_spec h time currentTime

variable {as : List (Action V K)}

theorem inv_of_run (hrun : (machine V K).RunIf Session.Guarded as s) : Inv s.ctx s.accepted := by
  refine hrun.invariant (I := fun s => Inv s.ctx s.accepted) ?_ ?_
  · rintro _ ⟨translation, validProfile, now, rfl⟩
    exact ⟨.inl ⟨le_rfl, Nat.zero_le 1⟩, fun h => absurd h (lt_irrefl _), nofun⟩
  · intro s a s' h hguarded hs
    obtain ⟨henabled, rfl⟩ := Option.ite_some_none_eq_some.1 hs
    exact (call_spec h henabled hguarded).inv

/-- In a run of guarded calls, what is saved is near the translation saved before, or has
    proven itself. -/
theorem saved_proven (hrun : (machine V K).RunIf Session.Guarded as s)
    (hguarded : s.Guarded a) (hstep : (machine V K).step s a = some s') {translation : V}
    (hsaved : (s.call a).2 = some translation) :
    Proven s.saved s'.accepted s'.now translation := by
  obtain ⟨henabled, rfl⟩ := Option.ite_some_none_eq_some.1 hstep
  have hproven := (call_spec (inv_of_run hrun) henabled hguarded).proven translation hsaved
  have hsynced : s.Synced := by
    cases a with
    | startContinuous time => cases hsaved
    | candidate time currentTime translation => exact hguarded
    | endContinuous time => exact hguarded.1
    | flush time currentTime => exact hguarded
  rwa [hsynced] at hproven

end

/-! ## Translations on a line -/

instance : TranslationSpace ℚ ℚ where
  dist a b := |a - b|

variable (translation : ℚ)

def session : Session ℚ ℚ := ⟨.loaded translation true, 0, translation, []⟩

theorem session_mem_init : session translation ∈ (machine ℚ ℚ).init :=
  ⟨translation, true, 0, rfl⟩

/-- The third of three candidates that agree is saved. -/
theorem saved_proven_agreeing :
    ∃ s s', (machine ℚ ℚ).RunIf Session.Guarded
        [.startContinuous 1, .candidate 2 2 250, .candidate 3 3 252] s ∧
      (machine ℚ ℚ).step s (.candidate 4 4 254) = some s' ∧
      (s.call (.candidate 4 4 254)).2 = some 254 ∧ Proven s.saved s'.accepted s'.now 254 := by
  obtain ⟨s, hrun, henabled, hguarded, hsaved⟩ : ∃ s, (machine ℚ ℚ).RunIf Session.Guarded
      [.startContinuous 1, .candidate 2 2 250, .candidate 3 3 252] s ∧
      s.Enabled (.candidate 4 4 254) ∧ s.Guarded (.candidate 4 4 254) ∧
        (s.call (.candidate 4 4 254)).2 = some 254 :=
    (machine ℚ ℚ).exists_runIf _ (session_mem_init 0) (by decide +kernel)
  have hstep : (machine ℚ ℚ).step s (.candidate 4 4 254) = some (s.after (.candidate 4 4 254)) :=
    if_pos henabled
  exact ⟨s, _, hrun, hstep, hsaved, saved_proven hrun hguarded hstep hsaved⟩

variable {accepted : List (Attempt V K)}

/-- A candidate that does not agree with the one before it is a streak of its own. -/
theorem Streak.eq_one {time : K} {x z : V} {first : K} {n : ℕ}
    (h : Streak (⟨time, x⟩ :: accepted) z first n)
    (hnew : ∀ b ∈ accepted.head?, 5 < dist x b.translation) : first = time ∧ n = 1 := by
  cases h with
  | one => exact ⟨rfl, rfl⟩
  | next _ _ hstreak hagrees =>
    cases hstreak with
    | one | next => exact absurd hagrees (not_le.2 (hnew _ rfl))

/-- A candidate far from the saved translation, that does not agree with the one before it,
    is not proven when it is accepted, or soon after. -/
theorem not_proven {saved x : V} {time now : K}
    (hfar : 100 < dist x saved) (hnew : ∀ b ∈ accepted.head?, 5 < dist x b.translation)
    (hnow : now - time < 10) : ¬ Proven saved (⟨time, x⟩ :: accepted) now x := by
  rintro (hnear | ⟨first, n, hstreak, hproof⟩)
  · exact absurd hnear (not_le.2 hfar)
  · obtain ⟨rfl, rfl⟩ := hstreak.eq_one hnew
    rcases hproof with hagree | hdwell
    · omega
    · exact absurd hdwell (not_le.2 hnow)

/-- The end of the continuous mode saves the only candidate, far from the loaded
    translation. And it saves a small change without noting it, so that the guard lets pass
    a candidate that is too far from it. -/
theorem end_skips_guard :
    (∃ s, (machine ℚ ℚ).Run [.startContinuous 1, .candidate 2 2 250] s ∧
      s.Enabled (.endContinuous 3) ∧ (s.call (.endContinuous 3)).2 = some 250 ∧
      ¬ Proven s.saved (s.after (.endContinuous 3)).accepted 3 250) ∧
    ∃ s, (machine ℚ ℚ).Run
        [.startContinuous 1, .candidate 2 2 0, .candidate 3 3 0.9, .endContinuous 4,
          .startContinuous 5] s ∧
      s.Enabled (.candidate 6 6 (-99.5)) ∧ (s.call (.candidate 6 6 (-99.5))).2 = some (-99.5) ∧
      ¬ Proven s.saved (s.after (.candidate 6 6 (-99.5))).accepted 6 (-99.5) := by
  constructor
  · refine (machine ℚ ℚ).exists_runIf_of (P := fun s => s.Enabled (.endContinuous 3) ∧
      (s.call (.endContinuous 3)).2 = some 250 ∧ s.saved = 0 ∧
      (s.after (.endContinuous 3)).accepted = [⟨2, 250⟩]) _ (session_mem_init 0)
      (by decide +kernel) ?_
    rintro s - ⟨henabled, hcall, hsaved, haccepted⟩
    refine ⟨henabled, hcall, ?_⟩
    rw [hsaved, haccepted]
    exact not_proven (by decide +kernel) nofun (by decide +kernel)
  · refine (machine ℚ ℚ).exists_runIf_of (P := fun s => s.Enabled (.candidate 6 6 (-99.5)) ∧
      (s.call (.candidate 6 6 (-99.5))).2 = some (-99.5) ∧ s.saved = 0.9 ∧
      (s.after (.candidate 6 6 (-99.5))).accepted = [⟨6, -99.5⟩, ⟨3, 0.9⟩, ⟨2, 0⟩]) _
      (session_mem_init 0) (by decide +kernel) ?_
    rintro s - ⟨henabled, hcall, hsaved, haccepted⟩
    refine ⟨henabled, hcall, ?_⟩
    rw [hsaved, haccepted]
    refine not_proven (by decide +kernel) ?_ (by decide +kernel)
    rintro _ ⟨⟩
    decide +kernel

end WKOpenVR.Calibration.PersistGuard
