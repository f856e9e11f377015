import WKOpenVR.Driver.SourceBlend

/-!
# How long the headset pose stays with a source

`StepSourceBlend` moves back to the tracker only once the tracker has been there for a while, and
then takes a while to blend to it. A step can enter two phases, one after the other: if the blend
takes no time, the step that begins it also ends it. So the phases that a step enters are listed
here in order (`entered`), and with the times those of a whole run (`history`). The state has the
last of them (`follows_step`).

* When the blend to the tracker begins, the tracker has been there at every step from some step
  on that is at least `stableBeforeSynthMs` ago.
* The tracker is shown as it is from the first step on, or after it was lost and came back in
  time, or after the blend to it has run for `blendToSynthMs`.

Both are in `synth_dwell`. Several steps may have the same time, and then the tracker may have
been lost at a step of the very time from which on it is there (`blends_after_lost_step`).
-/

namespace WKOpenVR.Driver.SourceBlend

open List

variable {K : Type*}

/-! ## The phases a step enters -/

variable (s : State K)

/-- What `SetPhase` enters. -/
def State.enters (phase : Phase) : List Phase :=
  if s.phase = phase then [] else [phase]

variable (i : Input K)

def State.enteredFirst : List Phase :=
  match i.synth with
  | some _ => s.enters .synthStable
  | none => s.enters .fallbackStable

def State.enteredWait : List Phase :=
  if s.phase = .blendingToFallback then
    if 1 ≤ durationAlpha s.phaseStartedAt i.now i.config.clamp.blendToFallbackMs then
      s.enters .fallbackStable
    else []
  else s.enters .waitingForStableSynth

def State.enteredBlend : List Phase :=
  if 1 ≤ durationAlpha s.phaseStartedAt i.now i.config.clamp.blendToSynthMs then
    s.enters .synthStable
  else []

def State.enteredSynth (synthPose : DriverPose K) : List Phase :=
  if s.phase = .synthStable ∨ s.phase = .graceHold then s.enters .synthStable
  else
    let t := s.withSynth synthPose i.now
    let stableAlpha := durationAlpha t.stableSynthSince i.now i.config.clamp.stableBeforeSynthMs
    if stableAlpha < 1 ∧ s.phase ≠ .blendingToSynth then t.enteredWait i
    else t.enters .blendingToSynth ++ (t.beginBlend i).enteredBlend i

def State.enteredLose : List Phase :=
  if s.phase = .synthStable then s.enters .graceHold else []

def State.enteredHold : List Phase :=
  let t := s.loseSynth i.now
  s.enteredLose ++
    if t.phase = .graceHold ∧ t.graceAlpha i < 1 then [] else t.enters .fallbackStable

def State.enteredBeginFallback : List Phase :=
  if s.phase = .graceHold then s.enters .blendingToFallback
  else if s.phase = .blendingToSynth ∨ s.phase = .waitingForStableSynth then
    s.enters .blendingToFallback
  else []

def State.enteredFallback : List Phase :=
  let t := s.loseSynth i.now
  s.enteredLose ++
    if t.phase = .graceHold ∧ t.graceAlpha i < 1 then []
    else
      let u := t.beginFallback i.now
      t.enteredBeginFallback ++
        if u.phase = .blendingToFallback then
          if 1 ≤ durationAlpha u.phaseStartedAt i.now i.config.clamp.blendToFallbackMs then
            u.enters .fallbackStable
          else []
        else u.enters .fallbackStable

/-- The phases a step enters, in order: one for each call of `SetPhase` that changes the phase. -/
def entered : List Phase :=
  if s.hasCurrentPose then
    match i.synth with
    | some synthPose => s.enteredSynth i synthPose
    | none => if i.allowFallback then s.enteredFallback i else s.enteredHold i
  else s.enteredFirst i

/-- The phases that the steps `ins` enter from the state `s` on, with their times. -/
def State.history (mix : ℚ → K → K → K) : State K → List (Input K) → List (Phase × ℤ)
  | _, [] => []
  | s, i :: ins =>
    (entered s i).map (·, i.now) ++ State.history mix (stepSourceBlend mix s i).state ins

/-- The phases of a run, with the times at which they are entered. -/
def history [Inhabited K] (mix : ℚ → K → K → K) (ins : List (Input K)) : List (Phase × ℤ) :=
  State.history mix .fresh ins

/-! ## What a step does to the phase -/

section Step

variable {s} {t u : State K} {ps qs : List Phase} {now : ℤ} {i}

/-- The state `t` has the last of the phases `ps`, entered from the state `s`. -/
structure Follows (s : State K) (ps : List Phase) (now : ℤ) (t : State K) : Prop where
  phase : t.phase = ps.getLast?.getD s.phase
  phaseStartedAt : t.phaseStartedAt = if ps = [] then s.phaseStartedAt else now

theorem Follows.refl (hphase : t.phase = s.phase) (hstarted : t.phaseStartedAt = s.phaseStartedAt) :
    Follows s [] now t :=
  ⟨hphase, hstarted⟩

theorem Follows.trans (hst : Follows s ps now t) (htu : Follows t qs now u) :
    Follows s (ps ++ qs) now u := by
  obtain ⟨hphase, hstarted⟩ := htu
  constructor
  · rw [hphase, hst.phase, List.getLast?_append]
    cases qs.getLast? with
    | none => rfl
    | some p => rfl
  · rw [hstarted, hst.phaseStartedAt]
    by_cases hqs : qs = []
    · simp [hqs]
    · simp [hqs]

/-- A state with the same phase enters the same phases. -/
theorem Follows.congr (h : Follows s ps now t) {s' : State K} (hphase : s.phase = s'.phase)
    (hstarted : s.phaseStartedAt = s'.phaseStartedAt) : Follows s' ps now t :=
  ⟨by rw [h.phase, hphase], by rw [h.phaseStartedAt, hstarted]⟩

theorem Follows.finish (h : Follows s ps now t) (previous : Phase) (out : DriverPose K)
    (alpha : ℚ) :
    Follows s ps now (t.finish previous out alpha).state :=
  ⟨h.phase, h.phaseStartedAt⟩

theorem follows_setPhase (hphase : t.phase = s.phase)
    (hstarted : t.phaseStartedAt = s.phaseStartedAt)
    (phase : Phase) (now : ℤ) : Follows s (s.enters phase) now (t.setPhase phase now) := by
  rw [State.enters, State.setPhase, hphase]
  split_ifs
  · exact .refl hphase hstarted
  · exact ⟨rfl, rfl⟩

variable (mix : ℚ → K → K → K) (s) (i) (previous : Phase) (stableAlpha : ℚ)
  (synthPose : DriverPose K) (now)

theorem follows_stepFirst : Follows s (s.enteredFirst i) i.now (s.stepFirst i).state := by
  rw [State.enteredFirst, State.stepFirst]
  cases i.synth with
  | _ => exact (follows_setPhase (by rfl) (by rfl) _ _).finish ..

theorem follows_stepWait :
    Follows s (s.enteredWait i) i.now (s.stepWait mix i previous stableAlpha).state := by
  rw [State.enteredWait, State.stepWait]
  dsimp only
  split_ifs
  · exact (follows_setPhase (by rfl) (by rfl) _ _).finish ..
  · exact (Follows.refl rfl rfl).finish ..
  · exact (follows_setPhase (by rfl) (by rfl) _ _).finish ..

theorem follows_beginBlend : Follows s (s.enters .blendingToSynth) i.now (s.beginBlend i) := by
  rw [State.beginBlend]
  by_cases hphase : s.phase = .blendingToSynth
  · rw [if_pos hphase, State.enters, if_pos hphase]
    exact .refl rfl rfl
  · rw [if_neg hphase]
    exact follows_setPhase (by rfl) (by rfl) _ _

theorem follows_stepBlend :
    Follows s (s.enteredBlend i) i.now (s.stepBlend mix i previous synthPose).state := by
  rw [State.enteredBlend, State.stepBlend]
  split_ifs
  · exact (follows_setPhase (by rfl) (by rfl) _ _).finish ..
  · exact (Follows.refl rfl rfl).finish ..

theorem follows_stepSynth :
    Follows s (s.enteredSynth i synthPose) i.now (s.stepSynth mix i synthPose).state := by
  rw [State.enteredSynth, State.stepSynth]
  dsimp only
  split_ifs
  · exact (follows_setPhase (by rfl) (by rfl) _ _).finish ..
  · exact (follows_stepWait ..).congr rfl rfl
  · exact ((follows_beginBlend _ _).trans (follows_stepBlend ..)).congr rfl rfl

theorem follows_loseSynth : Follows s s.enteredLose now (s.loseSynth now) := by
  rw [State.enteredLose, State.loseSynth]
  dsimp only
  split_ifs
  · exact follows_setPhase (by rfl) (by rfl) _ _
  · exact .refl rfl rfl

theorem follows_stepHold : Follows s (s.enteredHold i) i.now (s.stepHold i).state := by
  rw [State.enteredHold, State.stepHold]
  refine (follows_loseSynth s i.now).trans ?_
  split_ifs
  · exact (Follows.refl rfl rfl).finish ..
  · exact (follows_setPhase (by rfl) (by rfl) _ _).finish ..

theorem follows_beginFallback : Follows s s.enteredBeginFallback now (s.beginFallback now) := by
  rw [State.enteredBeginFallback, State.beginFallback]
  split_ifs
  · exact follows_setPhase (by rfl) (by rfl) _ _
  · exact follows_setPhase (by rfl) (by rfl) _ _
  · exact .refl rfl rfl

theorem follows_stepFallback :
    Follows s (s.enteredFallback i) i.now (s.stepFallback mix i).state := by
  rw [State.enteredFallback, State.stepFallback]
  refine (follows_loseSynth s i.now).trans ?_
  dsimp only
  split_ifs with hgrace
  · exact (Follows.refl rfl rfl).finish ..
  all_goals refine (follows_beginFallback _ i.now).trans ?_
  · exact (follows_setPhase (by rfl) (by rfl) _ _).finish ..
  · exact (Follows.refl rfl rfl).finish ..
  · exact (follows_setPhase (by rfl) (by rfl) _ _).finish ..

/-- After a step, the state has the last of the phases that it entered. -/
theorem follows_step : Follows s (entered s i) i.now (stepSourceBlend mix s i).state := by
  rw [entered, stepSourceBlend]
  by_cases hcurrent : s.hasCurrentPose = true
  · rw [if_pos hcurrent, if_pos hcurrent]
    cases i.synth with
    | some synthPose => exact follows_stepSynth ..
    | none =>
      cases i.allowFallback with
      | true => exact follows_stepFallback ..
      | false => exact follows_stepHold ..
  · rw [if_neg hcurrent, if_neg hcurrent]
    exact follows_stepFirst ..

end Step

/-! ## What a step does to the clock of the tracker -/

section Clock

variable (mix : ℚ → K → K → K) (s : State K) (i : Input K) (previous : Phase) (out : DriverPose K)
  (alpha stableAlpha : ℚ) (synthPose : DriverPose K) (now : ℤ)

/-- The time since which the tracker has been there, if it is. -/
def State.clock (s : State K) : Option ℤ :=
  if s.hasStableSynthSince then some s.stableSynthSince else none

@[simp]
theorem clock_finish : (s.finish previous out alpha).state.clock = s.clock :=
  rfl

@[simp]
theorem clock_setPhase (phase : Phase) : (s.setPhase phase now).clock = s.clock := by
  rw [setPhase_eq]
  rfl

theorem stableSince_eq : s.stableSince now = s.clock.getD now := by
  rw [State.stableSince, State.clock]
  split_ifs <;> rfl

theorem clock_withSynth : (s.withSynth synthPose now).clock = some (s.clock.getD now) :=
  congrArg some (stableSince_eq s now)

theorem clock_stepWait : (s.stepWait mix i previous stableAlpha).state.clock = s.clock := by
  rw [State.stepWait]
  dsimp only
  split_ifs <;> simp

theorem clock_beginBlend : (s.beginBlend i).clock = s.clock := by
  rw [State.beginBlend]
  by_cases hphase : s.phase = .blendingToSynth
  · rw [if_pos hphase]
  · rw [if_neg hphase, clock_setPhase]
    rfl

theorem clock_stepBlend : (s.stepBlend mix i previous synthPose).state.clock = s.clock := by
  rw [State.stepBlend]
  split_ifs <;> simp

theorem clock_loseSynth : (s.loseSynth now).clock = none := by
  rw [State.loseSynth]
  dsimp only
  split_ifs
  · rw [clock_setPhase]
    rfl
  · rfl

theorem clock_beginFallback : (s.beginFallback now).clock = s.clock := by
  rw [State.beginFallback]
  split_ifs
  · rw [clock_setPhase]
  · rw [clock_setPhase]
    rfl
  · rfl

/-- With the tracker, its clock is set, or goes on. -/
theorem clock_step_of_synth (h : i.synth = some synthPose) :
    (stepSourceBlend mix s i).state.clock = some i.now ∨
      (stepSourceBlend mix s i).state.clock = some (s.clock.getD i.now) := by
  by_cases hcurrent : s.hasCurrentPose = true
  · have hstep : stepSourceBlend mix s i = s.stepSynth mix i synthPose := by
      rw [stepSourceBlend, if_pos hcurrent, h]
    rw [hstep, State.stepSynth]
    dsimp only
    split_ifs
    · rw [clock_finish, clock_setPhase]
      exact .inl rfl
    · rw [clock_stepWait, clock_withSynth]
      exact .inr rfl
    · rw [clock_stepBlend, clock_beginBlend, clock_withSynth]
      exact .inr rfl
  · rw [stepSourceBlend, if_neg hcurrent]
    simp only [State.stepFirst, h, clock_finish, clock_setPhase]
    exact .inl rfl

/-- Without the tracker, its clock is cleared. -/
theorem clock_step_of_lost (h : i.synth = none) : (stepSourceBlend mix s i).state.clock = none := by
  simp only [stepSourceBlend, h]
  split_ifs
  · simp only [State.stepFallback]
    split_ifs <;> simp [clock_loseSynth, clock_beginFallback]
  · simp only [State.stepHold]
    split_ifs <;> simp [clock_loseSynth]
  · simp only [State.stepFirst, h, clock_finish, clock_setPhase]
    rfl

end Clock

theorem hasCurrentPose_step (mix : ℚ → K → K → K) (s : State K) (i : Input K) :
    (stepSourceBlend mix s i).state.hasCurrentPose = true := by
  have hfinish (t : State K) (previous : Phase) (out : DriverPose K) (alpha : ℚ) :
      (t.finish previous out alpha).state.hasCurrentPose = true := rfl
  cases hsynth : i.synth with
  | some synthPose =>
    simp only [stepSourceBlend, State.stepFirst, State.stepSynth, State.stepWait, State.stepBlend,
      hsynth, apply_ite Outcome.state, apply_ite State.hasCurrentPose, hfinish, ite_self]
  | none =>
    simp only [stepSourceBlend, State.stepFirst, State.stepFallback, State.stepHold,
      hsynth, apply_ite Outcome.state, apply_ite State.hasCurrentPose, hfinish, ite_self]

/-! ## What is entered -/

section Entered

variable {s i} {p : Phase}

theorem mem_enters_iff {phase : Phase} : p ∈ s.enters phase ↔ p = phase ∧ s.phase ≠ phase := by
  rw [State.enters]
  split_ifs with hphase <;> simp [hphase]

/-- Without the tracker, a step enters neither the blend to it nor the phase that shows it. -/
theorem not_mem_entered_of_lost (h : i.synth = none) {p : Phase} (hp : p ∈ entered s i) :
    p ≠ .blendingToSynth ∧ p ≠ .synthStable := by
  constructor <;> rintro rfl
  all_goals
    simp only [entered, h, State.enteredFirst, State.enteredFallback, State.enteredHold,
      State.enteredLose, State.enteredBeginFallback] at hp
    split_ifs at hp <;> simp [mem_enters_iff] at hp

variable {synthPose : DriverPose K}

theorem entered_of_synth (h : i.synth = some synthPose)
    (hcurrent : s.hasCurrentPose = true) : entered s i = s.enteredSynth i synthPose := by
  rw [entered, if_pos hcurrent, h]

theorem not_mem_enteredWait (hp : p ∈ s.enteredWait i) :
    p ≠ .blendingToSynth ∧ p ≠ .synthStable := by
  rw [State.enteredWait] at hp
  constructor <;> rintro rfl
  all_goals split_ifs at hp <;> simp [mem_enters_iff] at hp

theorem phase_beginBlend (s : State K) (i : Input K) :
    (s.beginBlend i).phase = .blendingToSynth := by
  rw [State.beginBlend]
  by_cases hphase : s.phase = .blendingToSynth
  · rw [if_pos hphase, hphase]
  · rw [if_neg hphase, setPhase_eq]

theorem phaseStartedAt_beginBlend (s : State K) (i : Input K) :
    (s.beginBlend i).phaseStartedAt = s.blendSince i.now := by
  rw [State.beginBlend, State.blendSince]
  by_cases hphase : s.phase = .blendingToSynth
  · rw [if_pos hphase, if_pos hphase]
  · rw [if_neg hphase, if_neg hphase, setPhase_eq]
    exact if_neg hphase

/-- What is entered by a step that blends to the tracker. -/
theorem entered_of_not_waits (h : i.synth = some synthPose)
    (hcurrent : s.hasCurrentPose = true) (hphase : ¬(s.phase = .synthStable ∨ s.phase = .graceHold))
    (hwaits : ¬s.waits i.now i.config) :
    entered s i = s.enters .blendingToSynth ++
      if durationAlpha (s.blendSince i.now) i.now i.config.clamp.blendToSynthMs < 1 then []
      else [.synthStable] := by
  have hblend : ¬(durationAlpha (s.stableSince i.now) i.now i.config.clamp.stableBeforeSynthMs < 1 ∧
      s.phase ≠ .blendingToSynth) :=
    fun hlt => hwaits ⟨hlt.2, durationAlpha_lt_one_iff.1 hlt.1⟩
  have hsynth : (State.beginBlend (s.withSynth synthPose i.now) i).enters .synthStable =
      [.synthStable] := by
    rw [State.enters, phase_beginBlend]
    rfl
  have hsame : (s.withSynth synthPose i.now).blendSince i.now = s.blendSince i.now := rfl
  rw [entered_of_synth h hcurrent, State.enteredSynth, if_neg hphase]
  refine (if_neg hblend).trans ?_
  rw [State.enteredBlend, phaseStartedAt_beginBlend, hsynth, hsame]
  simp only [← not_lt, ite_not]
  rfl

/-- A later step with the tracker shows it at once, waits for it, or blends to it. -/
theorem entered_cases (h : i.synth = some synthPose) (hcurrent : s.hasCurrentPose = true) :
    entered s i = s.enters .synthStable ∧ (s.phase = .synthStable ∨ s.phase = .graceHold) ∨
      (∃ t : State K, entered s i = t.enteredWait i) ∨
      ¬(s.phase = .synthStable ∨ s.phase = .graceHold) ∧ ¬s.waits i.now i.config := by
  by_cases hphase : s.phase = .synthStable ∨ s.phase = .graceHold
  · left
    rw [entered_of_synth h hcurrent, State.enteredSynth, if_pos hphase]
    exact ⟨rfl, hphase⟩
  · by_cases hwaits : s.waits i.now i.config
    · right; left
      refine ⟨s.withSynth synthPose i.now, ?_⟩
      rw [entered_of_synth h hcurrent, State.enteredSynth, if_neg hphase]
      exact if_pos ⟨durationAlpha_lt_one_iff.2 hwaits.2, hwaits.1⟩
    · exact .inr (.inr ⟨hphase, hwaits⟩)

theorem exists_synth_of_mem_entered (hp : p = .blendingToSynth ∨ p = .synthStable)
    (h : p ∈ entered s i) : ∃ synthPose, i.synth = some synthPose := by
  refine Option.ne_none_iff_exists'.1 fun hnone => ?_
  have hne := not_mem_entered_of_lost hnone h
  exact hp.elim hne.1 hne.2

/-- A step enters the blend to the tracker if the tracker has been there for long enough. -/
theorem of_blendingToSynth_mem_entered (h : .blendingToSynth ∈ entered s i) :
    i.synth.isSome = true ∧
      ¬NotYet (s.stableSince i.now) i.now i.config.clamp.stableBeforeSynthMs := by
  obtain ⟨synthPose, hsynth⟩ := exists_synth_of_mem_entered (.inl rfl) h
  refine ⟨by rw [hsynth]; rfl, ?_⟩
  by_cases hcurrent : s.hasCurrentPose = true
  · rcases entered_cases hsynth hcurrent with ⟨heq, -⟩ | ⟨t, heq⟩ | ⟨hphase, hwaits⟩
    · rw [heq, mem_enters_iff] at h
      cases h.1
    · exact absurd rfl (not_mem_enteredWait (heq ▸ h)).1
    · -- Otherwise the blend would go on, and not be entered.
      have hother : s.phase ≠ .blendingToSynth := by
        rw [entered_of_not_waits hsynth hcurrent hphase hwaits, mem_append] at h
        rcases h with h | h
        · exact (mem_enters_iff.1 h).2
        · split_ifs at h <;> simp at h
      exact fun hnot => hwaits ⟨hother, hnot⟩
  · rw [entered, if_neg hcurrent, State.enteredFirst, hsynth, mem_enters_iff] at h
    cases h.1

/-- A later step shows the tracker as it is if the tracker was lost and is back, or if the blend
    to it is over. -/
theorem of_synthStable_mem_entered (h : .synthStable ∈ entered s i)
    (hcurrent : s.hasCurrentPose = true) :
    s.phase = .graceHold ∧ entered s i = [.synthStable] ∨
      entered s i = s.enters .blendingToSynth ++ [.synthStable] ∧
        ¬NotYet (s.blendSince i.now) i.now i.config.clamp.blendToSynthMs := by
  obtain ⟨synthPose, hsynth⟩ := exists_synth_of_mem_entered (.inr rfl) h
  rcases entered_cases hsynth hcurrent with ⟨heq, hphase⟩ | ⟨t, heq⟩ | ⟨hphase, hwaits⟩
  · left
    have hne := (mem_enters_iff.1 (heq ▸ h)).2
    rw [heq, State.enters, if_neg hne]
    exact ⟨hphase.resolve_left hne, rfl⟩
  · exact absurd rfl (not_mem_enteredWait (heq ▸ h)).2
  · right
    have heq := entered_of_not_waits hsynth hcurrent hphase hwaits
    rw [← durationAlpha_lt_one_iff]
    by_cases halpha : durationAlpha (s.blendSince i.now) i.now i.config.clamp.blendToSynthMs < 1
    · rw [if_pos halpha, append_nil] at heq
      rw [heq, mem_enters_iff] at h
      cases h.1
    · rw [if_neg halpha] at heq
      exact ⟨heq, halpha⟩

end Entered

/-! ## Runs -/

section Runs

variable [Inhabited K] {mix : ℚ → K → K → K} {ins : List (Input K)} {i}

theorem history_concat (mix : ℚ → K → K → K) (ins : List (Input K)) (i : Input K) :
    history mix (ins ++ [i]) = history mix ins ++ (entered (run mix ins) i).map (·, i.now) := by
  have hfrom (s : State K) : s.history mix (ins ++ [i]) = s.history mix ins ++
      (entered (ins.foldl (fun s i => (stepSourceBlend mix s i).state) s) i).map (·, i.now) := by
    induction ins generalizing s with
    | nil => simp [State.history]
    | cons j ins ih =>
      rw [cons_append, State.history, State.history, ih, append_assoc]
      rfl
  exact hfrom .fresh

theorem entered_fresh_ne_nil (i : Input K) : entered (run mix []) i ≠ [] := by
  have hfirst : entered (run mix []) i = State.enteredFirst .fresh i := rfl
  rw [hfirst, State.enteredFirst]
  cases i.synth with
  | some synthPose => exact cons_ne_nil _ _
  | none => exact cons_ne_nil _ _

/-- A state has a pose after the first step. -/
theorem hasCurrentPose_run (h : ins ≠ []) : (run mix ins).hasCurrentPose = true := by
  obtain ⟨pre, i, rfl⟩ := (eq_nil_or_concat' ins).resolve_left h
  rw [run_concat]
  exact hasCurrentPose_step ..

/-- The state has the last phase of the history. -/
theorem history_eq_concat (h : ins ≠ []) :
    ∃ before, history mix ins =
      before ++ [((run mix ins).phase, (run mix ins).phaseStartedAt)] := by
  induction ins using List.reverseRecOn with
  | nil => exact absurd rfl h
  | append_singleton ins i ih =>
    have hfollows := follows_step (run mix ins) i mix
    rw [history_concat, run_concat]
    rcases eq_nil_or_concat' (entered (run mix ins) i) with hnil | ⟨ps, p, hps⟩
    · -- The first step always enters a phase.
      have hins : ins ≠ [] := by
        rintro rfl
        exact entered_fresh_ne_nil i hnil
      obtain ⟨before, hbefore⟩ := ih hins
      rw [hnil] at hfollows ⊢
      refine ⟨before, ?_⟩
      rw [hfollows.phase, hfollows.phaseStartedAt, hbefore]
      simp
    · rw [hps] at hfollows ⊢
      refine ⟨history mix ins ++ ps.map (·, i.now), ?_⟩
      rw [hfollows.phase, hfollows.phaseStartedAt]
      simp

theorem exists_now_of_mem_history {e : Phase × ℤ} (h : e ∈ history mix ins) :
    ∃ j ∈ ins, j.now = e.2 := by
  induction ins using List.reverseRecOn with
  | nil => cases h
  | append_singleton ins i ih =>
    rw [history_concat, mem_append, mem_map] at h
    rcases h with h | ⟨p, -, rfl⟩
    · obtain ⟨j, hj, hnow⟩ := ih h
      exact ⟨j, mem_append_left _ hj, hnow⟩
    · exact ⟨i, mem_append_right _ (mem_singleton_self i), rfl⟩

/-- The clock of the tracker has the time of a step from which on it has been there. -/
theorem exists_of_clock_run {since : ℤ} (h : (run mix ins).clock = some since) :
    ∃ before j between, ins = before ++ j :: between ∧ j.now = since ∧
      ∀ k ∈ j :: between, k.synth.isSome = true := by
  induction ins using List.reverseRecOn generalizing since with
  | nil => cases h
  | append_singleton ins i ih =>
    rw [run_concat] at h
    cases hsynth : i.synth with
    | none =>
      rw [clock_step_of_lost mix _ _ hsynth] at h
      cases h
    | some synthPose =>
      have hi : i.synth.isSome = true := by rw [hsynth]; rfl
      -- The clock is set at this step, or has been going on since an earlier one.
      have hset (hnow : i.now = since) : ∃ before j between, ins ++ [i] = before ++ j :: between ∧
          j.now = since ∧ ∀ k ∈ j :: between, k.synth.isSome = true :=
        ⟨ins, i, [], rfl, hnow, forall_mem_singleton.2 hi⟩
      rcases clock_step_of_synth mix (run mix ins) _ _ hsynth with hclock | hclock
      · exact hset (Option.some.inj (hclock.symm.trans h))
      · have hsince := Option.some.inj (hclock.symm.trans h)
        cases hrun : (run mix ins).clock with
        | none =>
          rw [hrun] at hsince
          exact hset hsince
        | some since' =>
          obtain rfl : since' = since := by rwa [hrun] at hsince
          obtain ⟨before, j, between, rfl, hnow, hall⟩ := ih hrun
          refine ⟨before, j, between ++ [i], by simp, hnow, ?_⟩
          rw [← cons_append, forall_mem_append]
          exact ⟨hall, forall_mem_singleton.2 hi⟩

theorem clampTransitionMs_nonneg (value : ℤ) : 0 ≤ clampTransitionMs value := le_max_left _ _

/-- A duration that has passed since a time that is not in the future. -/
theorem add_le_of_not_notYet {start now durationMs : ℤ} (hnonneg : 0 ≤ durationMs)
    (hle : start ≤ now) (h : ¬NotYet start now durationMs) :
    start + durationMs * 1000000 ≤ now := by
  rw [NotYet, not_and_or] at h
  omega

/-- The tracker has been there for `stableBeforeSynthMs` when a step enters the blend to it. -/
theorem exists_of_blendingToSynth_mem_entered (h : .blendingToSynth ∈ entered (run mix ins) i)
    (hsorted : (ins ++ [i]).Pairwise fun j k => j.now ≤ k.now) :
    ∃ before j between, ins ++ [i] = before ++ j :: between ∧
      j.now + i.config.clamp.stableBeforeSynthMs * 1000000 ≤ i.now ∧
      ∀ k ∈ j :: between, k.synth.isSome = true := by
  obtain ⟨hi, hnot⟩ := of_blendingToSynth_mem_entered h
  have hnonneg := clampTransitionMs_nonneg i.config.stableBeforeSynthMs
  rw [stableSince_eq] at hnot
  cases hrun : (run mix ins).clock with
  | none =>
    rw [hrun] at hnot
    exact ⟨ins, i, [], rfl, add_le_of_not_notYet hnonneg le_rfl hnot, forall_mem_singleton.2 hi⟩
  | some since =>
    rw [hrun] at hnot
    obtain ⟨before, j, between, rfl, rfl, hall⟩ := exists_of_clock_run hrun
    have hle : j.now ≤ i.now := by
      refine (pairwise_append.1 hsorted).2.2 j ?_ i (mem_singleton_self i)
      exact mem_append_right _ mem_cons_self
    refine ⟨before, j, between ++ [i], by simp, add_le_of_not_notYet hnonneg hle hnot, ?_⟩
    rw [← cons_append, forall_mem_append]
    exact ⟨hall, forall_mem_singleton.2 hi⟩

/-- A later step that shows the tracker as it is comes from the grace, or from a blend that has
    run for `blendToSynthMs`. -/
theorem exists_of_synthStable_mem_entered (h : .synthStable ∈ entered (run mix ins) i)
    (hins : ins ≠ []) (hsorted : (ins ++ [i]).Pairwise fun j k => j.now ≤ k.now) :
    ∃ before p since, history mix (ins ++ [i]) = before ++ [(p, since), (.synthStable, i.now)] ∧
      (p = .graceHold ∨ p = .blendingToSynth ∧
        since + i.config.clamp.blendToSynthMs * 1000000 ≤ i.now) := by
  obtain ⟨before, hbefore⟩ := @history_eq_concat _ _ mix _ hins
  have hnonneg := clampTransitionMs_nonneg i.config.blendToSynthMs
  rw [history_concat]
  rcases of_synthStable_mem_entered h (hasCurrentPose_run hins) with ⟨hphase, heq⟩ | ⟨heq, hnot⟩
  · refine ⟨before, .graceHold, (run mix ins).phaseStartedAt, ?_, .inl rfl⟩
    rw [heq, hbefore, hphase]
    simp
  · by_cases hphase : (run mix ins).phase = .blendingToSynth
    · -- The blend was entered by an earlier step.
      have hle : (run mix ins).phaseStartedAt ≤ i.now := by
        have hmem : ((run mix ins).phase, (run mix ins).phaseStartedAt) ∈ history mix ins := by
          rw [hbefore]
          exact mem_append_right _ (mem_singleton_self _)
        obtain ⟨j, hj, hnow⟩ := exists_now_of_mem_history hmem
        have hle := (pairwise_append.1 hsorted).2.2 j hj i (mem_singleton_self i)
        rwa [hnow] at hle
      rw [State.blendSince, if_pos hphase] at hnot
      refine ⟨before, .blendingToSynth, (run mix ins).phaseStartedAt, ?_,
        .inr ⟨rfl, add_le_of_not_notYet hnonneg hle hnot⟩⟩
      rw [heq, hbefore, State.enters, if_pos hphase, hphase]
      simp
    · -- The blend takes no time.
      rw [State.blendSince, if_neg hphase] at hnot
      refine ⟨history mix ins, .blendingToSynth, i.now, ?_,
        .inr ⟨rfl, add_le_of_not_notYet hnonneg le_rfl hnot⟩⟩
      rw [heq, State.enters, if_neg hphase]
      simp

/-- The last step `i` of a run with the times in order. If it enters the blend to the tracker, the
    tracker has been there since a step that is at least `stableBeforeSynthMs` ago, and so at
    every step after that time. If it enters the phase that shows the tracker as it is, it is the
    first step, or the phase before was the grace, or a blend that has run for
    `blendToSynthMs`. -/
theorem synth_dwell (mix : ℚ → K → K → K) (ins : List (Input K)) (i : Input K)
    (hsorted : (ins ++ [i]).Pairwise fun j k => j.now ≤ k.now) :
    (.blendingToSynth ∈ entered (run mix ins) i →
      (∃ before j between, ins ++ [i] = before ++ j :: between ∧
        j.now + i.config.clamp.stableBeforeSynthMs * 1000000 ≤ i.now ∧
        ∀ k ∈ j :: between, k.synth.isSome = true) ∧
      ∀ k ∈ ins ++ [i], i.now - i.config.clamp.stableBeforeSynthMs * 1000000 < k.now →
        k.synth.isSome = true) ∧
    (.synthStable ∈ entered (run mix ins) i → ins ≠ [] →
      ∃ before p since, history mix (ins ++ [i]) = before ++ [(p, since), (.synthStable, i.now)] ∧
        (p = .graceHold ∨ p = .blendingToSynth ∧
          since + i.config.clamp.blendToSynthMs * 1000000 ≤ i.now)) := by
  constructor
  · intro h
    obtain ⟨before, j, between, heq, hj, hall⟩ := exists_of_blendingToSynth_mem_entered h hsorted
    refine ⟨⟨before, j, between, heq, hj, hall⟩, ?_⟩
    intro k hk hafter
    rw [heq] at hk hsorted
    rcases mem_append.1 hk with hk | hk
    · have hle := (pairwise_append.1 hsorted).2.2 k hk j mem_cons_self
      omega
    · exact hall k hk
  · intro h hins
    exact exists_of_synthStable_mem_entered h hins hsorted

end Runs

/-- A step with the tracker at `1` and the raw headset at `5`. -/
def trackerStep (synthAvailable : Bool) (now : ℤ) : Input ℚ where
  fallbackPose := .healthy 5
  synthPose := if synthAvailable then some (.healthy 1) else none
  synthAvailable := synthAvailable
  now := now

/-- The tracker is found after a step without it, at the same time. -/
def foundAtOnce : List (Input ℚ) := [trackerStep false 0, trackerStep true 0]

theorem synth_dwell_foundAtOnce :
    .blendingToSynth ∈ entered (run lerp foundAtOnce) (trackerStep true 350000000) ∧
    ∀ k ∈ foundAtOnce ++ [trackerStep true 350000000], 0 < k.now → k.synth.isSome = true := by
  have henters :
      .blendingToSynth ∈ entered (run lerp foundAtOnce) (trackerStep true 350000000) := by
    decide +kernel
  have hsorted : (foundAtOnce ++ [trackerStep true 350000000]).Pairwise
      fun j k => j.now ≤ k.now := by
    decide +kernel
  have hdwell := ((synth_dwell lerp foundAtOnce _ hsorted).1 henters).2
  exact ⟨henters, hdwell⟩

/-- The blend begins when the tracker has been there for `stableBeforeSynthMs`, though it was not
    there at a step that is just as long ago. -/
theorem blends_after_lost_step :
    .blendingToSynth ∈ entered (run lerp foundAtOnce) (trackerStep true 350000000) ∧
    trackerStep false 0 ∈ foundAtOnce ∧ (trackerStep false 0).synth = none ∧
    (trackerStep true 350000000).now -
        (trackerStep true 350000000).config.clamp.stableBeforeSynthMs * 1000000 ≤
      (trackerStep false 0).now := by
  refine ⟨by decide +kernel, mem_cons_self, rfl, ?_⟩
  decide +kernel

end WKOpenVR.Driver.SourceBlend
