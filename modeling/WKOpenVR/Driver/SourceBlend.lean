import WKOpenVR.Machine
import WKOpenVR.Pose
import Mathlib.Tactic.Linarith
import Mathlib.Algebra.Order.Field.Basic
import Mathlib.Data.List.Induction

/-!
# Blending the headset pose between its sources

With a tracker mounted on the headset, the driver gives SteamVR a headset pose that
is synthesized from the tracker, and falls back to the raw pose of the headset when
the tracker is lost. `StepSourceBlend` is the state machine that moves between the
two: it holds the last good pose for a while, blends to the raw pose, waits for the
tracker to be stable, and blends back. Under a hard lock (`allowFallback` false)
there is to be no raw fallback: instead of the raw pose, the last good one is marked
as out of range.

The numeric part of a blend is a function `mix`. How much of a pose comes from raw
poses is its *share*: it is traced along with the poses (`Traced`), being `1` for the
raw pose, `0` for the synthesized one, and mixed as they are (`erase_tracedRun`).

* Under a hard lock, a step gives a valid pose with a share of the raw pose exactly
  when it moves back to the tracker (`RawReacquire`): the wait for the tracker to be
  stable shows the raw pose, and the blend starts from it (`hardLock_clean_iff`).
* So it happens as soon as the tracker comes back for good
  (`hardLock_leaks_on_reacquire`).
-/

namespace WKOpenVR.Driver.SourceBlend

/-- `SourceBlendPhase`. -/
inductive Phase
  | uninitialized
  | synthStable
  | graceHold
  | blendingToFallback
  | fallbackStable
  | waitingForStableSynth
  | blendingToSynth
  deriving DecidableEq, Repr

/-- `DriverSynthTimingConfig`, in milliseconds. -/
structure TimingConfig where
  staleLimitMs : ℤ := 80
  graceHoldMs : ℤ := 1000
  blendToFallbackMs : ℤ := 500
  stableBeforeSynthMs : ℤ := 350
  blendToSynthMs : ℤ := 500

/-- `ClampDriverSynthStaleLimitMs`. -/
def clampStaleLimitMs (value : ℤ) : ℤ := max 10 (min value 250)

/-- `ClampDriverSynthTransitionMs`. -/
def clampTransitionMs (value : ℤ) : ℤ := max 0 (min value 5000)

/-- `ClampDriverSynthTimingConfig`. -/
def TimingConfig.clamp (cfg : TimingConfig) : TimingConfig where
  staleLimitMs := clampStaleLimitMs cfg.staleLimitMs
  graceHoldMs := clampTransitionMs cfg.graceHoldMs
  blendToFallbackMs := clampTransitionMs cfg.blendToFallbackMs
  stableBeforeSynthMs := clampTransitionMs cfg.stableBeforeSynthMs
  blendToSynthMs := clampTransitionMs cfg.blendToSynthMs

/-- `SourceBlendState`; the times are in nanoseconds. -/
structure State (K : Type*) where
  phase : Phase
  currentPose : DriverPose K
  lastGoodSynthPose : DriverPose K
  blendStartPose : DriverPose K
  phaseStartedAt : ℤ
  stableSynthSince : ℤ
  hasCurrentPose : Bool
  hasLastGoodSynthPose : Bool
  hasStableSynthSince : Bool

/-- `SourceBlendResult`. -/
structure Result where
  previousPhase : Phase
  phase : Phase
  alpha : ℚ
  phaseChanged : Bool

/-- What a step leaves: the state, the pose put out, and what it returns. -/
structure Outcome (K : Type*) where
  state : State K
  out : DriverPose K
  result : Result

structure Input (K : Type*) where
  fallbackPose : DriverPose K
  synthPose : Option (DriverPose K)
  synthAvailable : Bool
  now : ℤ
  config : TimingConfig := {}
  allowFallback : Bool := true

variable {K : Type*}

def State.fresh [Inhabited K] : State K where
  phase := .uninitialized
  currentPose := default
  lastGoodSynthPose := default
  blendStartPose := default
  phaseStartedAt := 0
  stableSynthSince := 0
  hasCurrentPose := false
  hasLastGoodSynthPose := false
  hasStableSynthSince := false

/-- The synthesized pose, if it is there and available. -/
def Input.synth (i : Input K) : Option (DriverPose K) :=
  if i.synthAvailable then i.synthPose else none

/-- `DurationAlpha`: the fraction of a duration that has passed. -/
def durationAlpha (start now durationMs : ℤ) : ℚ :=
  if durationMs ≤ 0 then 1
  else
    let elapsedMs : ℚ := (now - start : ℤ) / 1000000
    max 0 (min (elapsedMs / durationMs) 1)

variable (mix : ℚ → K → K → K)

/-- `BlendPose`, with the fields `mix`ed. -/
def blendPose (a b : DriverPose K) (alpha : ℚ) : DriverPose K :=
  let s := smoothstep alpha
  { (if 1 / 2 ≤ s then b else a) with
    kin := mix s a.kin b.kin
    poseIsValid := a.poseIsValid || b.poseIsValid
    deviceIsConnected := a.deviceIsConnected || b.deviceIsConnected }

variable (s : State K)

def State.setPhase (phase : Phase) (now : ℤ) : State K :=
  if s.phase = phase then s else { s with phase := phase, phaseStartedAt := now }

def markPoseOutOfRange (pose : DriverPose K) : DriverPose K :=
  { pose with poseIsValid := false, result := .runningOutOfRange, deviceIsConnected := true }

/-- The end of a step that started in the phase `previous`. -/
def State.finish (previous : Phase) (out : DriverPose K) (alpha : ℚ) : Outcome K where
  state := { s with currentPose := out, hasCurrentPose := true }
  out := out
  result := ⟨previous, s.phase, alpha, previous != s.phase⟩

def State.stepFirst (i : Input K) : Outcome K :=
  match i.synth with
  | some synthPose =>
    { s with
      lastGoodSynthPose := synthPose
      hasLastGoodSynthPose := true
      hasStableSynthSince := true
      stableSynthSince := i.now }.setPhase .synthStable i.now |>.finish s.phase synthPose 1
  | none =>
    { s with hasStableSynthSince := false }.setPhase .fallbackStable i.now |>.finish s.phase
      (if i.allowFallback then i.fallbackPose else markPoseOutOfRange i.fallbackPose) 0

variable (now : ℤ)

/-- The time since which the tracker has been there. -/
def State.stableSince : ℤ :=
  if s.hasStableSynthSince then s.stableSynthSince else now

/-- The state once the tracker is there. -/
def State.withSynth (synthPose : DriverPose K) (now : ℤ) : State K :=
  { s with
    lastGoodSynthPose := synthPose
    hasLastGoodSynthPose := true
    hasStableSynthSince := true
    stableSynthSince := s.stableSince now }

/-- The step waiting for the tracker to be stable. -/
def State.stepWait (mix : ℚ → K → K → K) (i : Input K) (previous : Phase)
    (stableAlpha : ℚ) : Outcome K :=
  if s.phase = .blendingToFallback then
    let fallbackAlpha := durationAlpha s.phaseStartedAt i.now i.config.clamp.blendToFallbackMs
    if 1 ≤ fallbackAlpha then
      (s.setPhase .fallbackStable i.now).finish previous i.fallbackPose 1
    else
      s.finish previous (blendPose mix s.blendStartPose i.fallbackPose fallbackAlpha) fallbackAlpha
  else (s.setPhase .waitingForStableSynth i.now).finish previous i.fallbackPose stableAlpha

/-- The state once the blend to the synthesized pose has begun. -/
def State.beginBlend (i : Input K) : State K :=
  if s.phase = .blendingToSynth then s
  else
    { s with
      blendStartPose := if s.hasCurrentPose then s.currentPose else i.fallbackPose }.setPhase
      .blendingToSynth i.now

def State.stepBlend (mix : ℚ → K → K → K) (i : Input K) (previous : Phase)
    (synthPose : DriverPose K) : Outcome K :=
  let alpha := durationAlpha s.phaseStartedAt i.now i.config.clamp.blendToSynthMs
  if 1 ≤ alpha then (s.setPhase .synthStable i.now).finish previous synthPose 1
  else s.finish previous (blendPose mix s.blendStartPose synthPose alpha) alpha

/-- A later step with the synthesized pose. -/
def State.stepSynth (mix : ℚ → K → K → K) (i : Input K) (synthPose : DriverPose K) : Outcome K :=
  if s.phase = .synthStable ∨ s.phase = .graceHold then
    -- The tracker was not away for long: there is nothing to wait for.
    { s with
      lastGoodSynthPose := synthPose
      hasLastGoodSynthPose := true
      hasStableSynthSince := true
      stableSynthSince := i.now }.setPhase .synthStable i.now |>.finish s.phase synthPose 1
  else
    let t := s.withSynth synthPose i.now
    let stableAlpha := durationAlpha t.stableSynthSince i.now i.config.clamp.stableBeforeSynthMs
    if stableAlpha < 1 ∧ s.phase ≠ .blendingToSynth then t.stepWait mix i s.phase stableAlpha
    else (t.beginBlend i).stepBlend mix i s.phase synthPose

/-- The pose to hold when the tracker is lost. -/
def State.heldPose : DriverPose K :=
  if s.hasLastGoodSynthPose then s.lastGoodSynthPose else s.currentPose

/-- The state when the tracker is lost. -/
def State.loseSynth : State K :=
  let s := { s with hasStableSynthSince := false }
  if s.phase = .synthStable then
    { s with blendStartPose := s.heldPose }.setPhase .graceHold now
  else s

/-- The fraction of the grace hold that has passed. -/
def State.graceAlpha (i : Input K) : ℚ :=
  durationAlpha s.phaseStartedAt i.now i.config.clamp.graceHoldMs

/-- A later step without the synthesized pose, under a hard lock. -/
def State.stepHold (i : Input K) : Outcome K :=
  let t := s.loseSynth i.now
  if t.phase = .graceHold ∧ t.graceAlpha i < 1 then
    t.finish s.phase t.blendStartPose (t.graceAlpha i)
  else
    (t.setPhase .fallbackStable i.now).finish s.phase (markPoseOutOfRange t.heldPose) 1

/-- The state once the blend to the raw pose has begun, if it is to begin. -/
def State.beginFallback : State K :=
  -- The blend starts from the pose held in the grace, or else from the current one.
  if s.phase = .graceHold then s.setPhase .blendingToFallback now
  else if s.phase = .blendingToSynth ∨ s.phase = .waitingForStableSynth then
    { s with blendStartPose := s.currentPose }.setPhase .blendingToFallback now
  else s

/-- A later step without the synthesized pose, falling back to the raw pose. -/
def State.stepFallback (mix : ℚ → K → K → K) (i : Input K) : Outcome K :=
  let t := s.loseSynth i.now
  if t.phase = .graceHold ∧ t.graceAlpha i < 1 then
    t.finish s.phase t.blendStartPose (t.graceAlpha i)
  else
    let t := t.beginFallback i.now
    if t.phase = .blendingToFallback then
      let alpha := durationAlpha t.phaseStartedAt i.now i.config.clamp.blendToFallbackMs
      if 1 ≤ alpha then (t.setPhase .fallbackStable i.now).finish s.phase i.fallbackPose 1
      else t.finish s.phase (blendPose mix t.blendStartPose i.fallbackPose alpha) alpha
    else (t.setPhase .fallbackStable i.now).finish s.phase i.fallbackPose 1

def stepSourceBlend (i : Input K) : Outcome K :=
  if s.hasCurrentPose then
    match i.synth with
    | some synthPose => s.stepSynth mix i synthPose
    | none => if i.allowFallback then s.stepFallback mix i else s.stepHold i
  else s.stepFirst i

def run [Inhabited K] (mix : ℚ → K → K → K) (ins : List (Input K)) : State K :=
  ins.foldl (fun s i => (stepSourceBlend mix s i).state) .fresh

/-! ## Naturality in the kinematic part -/

variable {L : Type*} (f : K → L)

def State.map (s : State K) : State L where
  phase := s.phase
  currentPose := s.currentPose.map f
  lastGoodSynthPose := s.lastGoodSynthPose.map f
  blendStartPose := s.blendStartPose.map f
  phaseStartedAt := s.phaseStartedAt
  stableSynthSince := s.stableSynthSince
  hasCurrentPose := s.hasCurrentPose
  hasLastGoodSynthPose := s.hasLastGoodSynthPose
  hasStableSynthSince := s.hasStableSynthSince

def Input.map (i : Input K) : Input L where
  fallbackPose := i.fallbackPose.map f
  synthPose := i.synthPose.map (DriverPose.map f)
  synthAvailable := i.synthAvailable
  now := i.now
  config := i.config
  allowFallback := i.allowFallback

def Outcome.map (o : Outcome K) : Outcome L where
  state := o.state.map f
  out := o.out.map f
  result := o.result

variable {mix : ℚ → K → K → K} {mix' : ℚ → L → L → L} {f : K → L}

section projections

variable (s : State K) (i : Input K)

@[simp] theorem State.phase_map : (s.map f).phase = s.phase := rfl
@[simp] theorem State.blendStartPose_map : (s.map f).blendStartPose = s.blendStartPose.map f := rfl
@[simp] theorem State.phaseStartedAt_map : (s.map f).phaseStartedAt = s.phaseStartedAt := rfl
@[simp] theorem State.hasCurrentPose_map : (s.map f).hasCurrentPose = s.hasCurrentPose := rfl
@[simp] theorem State.graceAlpha_map : (s.map f).graceAlpha (i.map f) = s.graceAlpha i := rfl
@[simp] theorem Input.now_map : (i.map f).now = i.now := rfl
@[simp] theorem Input.config_map : (i.map f).config = i.config := rfl
@[simp] theorem Input.fallbackPose_map : (i.map f).fallbackPose = i.fallbackPose.map f := rfl
@[simp] theorem Input.allowFallback_map : (i.map f).allowFallback = i.allowFallback := rfl

@[simp]
theorem State.heldPose_map : (s.map f).heldPose = s.heldPose.map f :=
  (apply_ite (DriverPose.map f) ..).symm

@[simp]
theorem Input.synth_map : (i.map f).synth = i.synth.map (DriverPose.map f) :=
  (apply_ite (Option.map (DriverPose.map f)) (i.synthAvailable = true) i.synthPose none).symm

end projections

open State

variable (s : State K)

theorem map_setPhase (phase : Phase) (now : ℤ) :
    (s.setPhase phase now).map f = (s.map f).setPhase phase now :=
  apply_ite (map f) ..

theorem map_finish (previous : Phase) (out : DriverPose K) (alpha : ℚ) :
    (s.finish previous out alpha).map f = (s.map f).finish previous (out.map f) alpha :=
  rfl

theorem map_blendPose (hmix : ∀ s a b, f (mix s a b) = mix' s (f a) (f b)) (a b : DriverPose K)
    (alpha : ℚ) : (blendPose mix a b alpha).map f = blendPose mix' (a.map f) (b.map f) alpha := by
  simp only [blendPose, DriverPose.map, hmix]
  split_ifs <;> rfl

theorem map_markPoseOutOfRange (p : DriverPose K) :
    (markPoseOutOfRange p).map f = markPoseOutOfRange (p.map f) :=
  rfl

theorem map_ite_pose (b : Bool) (p q : DriverPose K) :
    (if b then p else q).map f = if b then p.map f else q.map f :=
  apply_ite (DriverPose.map f) ..

variable (i : Input K)

theorem map_stepFirst : (s.stepFirst i).map f = (s.map f).stepFirst (i.map f) := by
  rw [stepFirst, stepFirst, Input.synth_map]
  cases i.synth with
  | some synthPose =>
    simp only [Option.map_some, map_finish, map_setPhase]
    rfl
  | none =>
    simp only [Option.map_none, map_finish, map_setPhase, map_ite_pose, map_markPoseOutOfRange]
    rfl

theorem map_stepWait (hmix : ∀ s a b, f (mix s a b) = mix' s (f a) (f b)) (s : State K)
    (i : Input K) (previous : Phase) (stableAlpha : ℚ) :
    (s.stepWait mix i previous stableAlpha).map f =
      (s.map f).stepWait mix' (i.map f) previous stableAlpha := by
  simp only [stepWait, apply_ite (Outcome.map f), map_finish, map_setPhase,
    map_blendPose hmix]
  rfl

theorem map_beginBlend : (s.beginBlend i).map f = (s.map f).beginBlend (i.map f) := by
  simp only [beginBlend, apply_ite (map f), map_setPhase]
  congr 2
  simp only [map, map_ite_pose]
  rfl

theorem map_stepBlend (hmix : ∀ s a b, f (mix s a b) = mix' s (f a) (f b)) (s : State K)
    (i : Input K) (previous : Phase) (synthPose : DriverPose K) :
    (s.stepBlend mix i previous synthPose).map f =
      (s.map f).stepBlend mix' (i.map f) previous (synthPose.map f) := by
  simp only [stepBlend, apply_ite (Outcome.map f), map_finish, map_setPhase,
    map_blendPose hmix]
  rfl

theorem map_stepSynth (hmix : ∀ s a b, f (mix s a b) = mix' s (f a) (f b)) (s : State K)
    (i : Input K) (synthPose : DriverPose K) :
    (s.stepSynth mix i synthPose).map f =
      (s.map f).stepSynth mix' (i.map f) (synthPose.map f) := by
  simp only [stepSynth, apply_ite (Outcome.map f), map_finish, map_setPhase,
    map_stepWait hmix, map_stepBlend hmix, map_beginBlend]
  rfl

theorem map_loseSynth (now : ℤ) : (s.loseSynth now).map f = (s.map f).loseSynth now := by
  simp only [loseSynth, apply_ite (map f), map_setPhase]
  congr 2
  simp only [map, heldPose, map_ite_pose]
  rfl

theorem map_stepHold : (s.stepHold i).map f = (s.map f).stepHold (i.map f) := by
  simp only [stepHold, Input.now_map, ← map_loseSynth, phase_map,
    graceAlpha_map, heldPose_map, blendStartPose_map,
    apply_ite (Outcome.map f), map_finish, map_setPhase, map_markPoseOutOfRange]

theorem map_beginFallback (now : ℤ) :
    (s.beginFallback now).map f = (s.map f).beginFallback now := by
  simp only [beginFallback, apply_ite (map f), map_setPhase]
  rfl

theorem map_stepFallback (hmix : ∀ s a b, f (mix s a b) = mix' s (f a) (f b)) (s : State K)
    (i : Input K) : (s.stepFallback mix i).map f = (s.map f).stepFallback mix' (i.map f) := by
  simp only [stepFallback, Input.now_map, Input.config_map, Input.fallbackPose_map,
    ← map_loseSynth, ← map_beginFallback, phase_map, phaseStartedAt_map,
    graceAlpha_map, blendStartPose_map, apply_ite (Outcome.map f), map_finish,
    map_setPhase, map_blendPose hmix]

variable (mix mix' f) in
/-- A step only acts on the kinematic parts by mixing them. -/
theorem map_stepSourceBlend (hmix : ∀ s a b, f (mix s a b) = mix' s (f a) (f b)) (s : State K)
    (i : Input K) : (stepSourceBlend mix s i).map f = stepSourceBlend mix' (s.map f) (i.map f) := by
  simp only [stepSourceBlend, apply_ite (Outcome.map f), Input.synth_map, hasCurrentPose_map,
    map_stepFirst]
  cases i.synth with
  | some synthPose => simp only [Option.map_some, map_stepSynth hmix]
  | none =>
    simp only [Option.map_none, apply_ite (Outcome.map f), map_stepFallback hmix, map_stepHold,
      Input.allowFallback_map]
    rfl

/-! ## The share of the raw pose -/

/-- A kinematic part, with the share of raw poses in it. -/
abbrev Traced (K : Type*) := K × ℚ

variable (mix : ℚ → K → K → K)

/-- The shares are mixed as the poses are. -/
def mixTraced (s : ℚ) (a b : Traced K) : Traced K :=
  (mix s a.1 b.1, (1 - s) * a.2 + s * b.2)

/-- The arguments with the shares of their poses. -/
def Input.traced : Input (Traced K) where
  fallbackPose := i.fallbackPose.map (·, 1)
  synthPose := i.synthPose.map (DriverPose.map (·, 0))
  synthAvailable := i.synthAvailable
  now := i.now
  config := i.config
  allowFallback := i.allowFallback

theorem Input.synth_traced : i.traced.synth = i.synth.map (DriverPose.map (·, 0)) :=
  (apply_ite (Option.map (DriverPose.map (·, (0 : ℚ)))) (i.synthAvailable = true) i.synthPose
    none).symm

theorem Input.erase_traced : i.traced.map Prod.fst = i := by
  obtain ⟨fallbackPose, synthPose, synthAvailable, now, config, allowFallback⟩ := i
  cases synthPose <;> rfl

/-- Without the shares, a traced step is the step. -/
theorem erase_step (s : State (Traced K)) (i : Input K) :
    (stepSourceBlend (mixTraced mix) s i.traced).map Prod.fst =
      stepSourceBlend mix (s.map Prod.fst) i := by
  have hstep := map_stepSourceBlend (mixTraced mix) mix Prod.fst (fun _ _ _ => rfl) s i.traced
  rwa [i.erase_traced] at hstep

section run

variable [Inhabited K] (mix : ℚ → K → K → K) (ins : List (Input K))

/-- The state after the steps `ins`, with the shares. -/
def tracedRun : State (Traced K) :=
  run (mixTraced mix) (ins.map Input.traced)

theorem run_concat (i : Input K) :
    run mix (ins ++ [i]) = (stepSourceBlend mix (run mix ins) i).state := by
  simp [run]

/-- Without the shares, the traced run is the run. -/
theorem erase_tracedRun : (tracedRun mix ins).map Prod.fst = run mix ins := by
  induction ins using List.reverseRecOn with
  | nil => rfl
  | append_singleton ins i ih =>
    rw [run_concat, ← ih, tracedRun, List.map_append, List.map_singleton, run_concat]
    exact congrArg Outcome.state (erase_step mix (tracedRun mix ins) i)

variable (pre : List (Input K))

/-- The pose put out by the step `i` after the steps `pre`. -/
def output (i : Input K) : DriverPose K :=
  (stepSourceBlend mix (run mix pre) i).out

/-- The share of raw poses in it. -/
def outputShare (i : Input K) : ℚ :=
  (stepSourceBlend (mixTraced mix) (tracedRun mix pre) i.traced).out.kin.2

/-- The step `i` after the steps `pre` leaks the raw pose: it puts out a valid pose
    that is a raw pose, or has a share of one. -/
def LeaksRaw (i : Input K) : Prop :=
  (output mix pre i).poseIsValid = true ∧ outputShare mix pre i ≠ 0

end run

/-! ## Under a hard lock -/

/-- A duration has not passed yet. -/
def NotYet (start now durationMs : ℤ) : Prop :=
  0 < durationMs ∧ now - start < durationMs * 1000000

theorem durationAlpha_lt_one_iff {start now durationMs : ℤ} :
    durationAlpha start now durationMs < 1 ↔ NotYet start now durationMs := by
  rw [durationAlpha, NotYet]
  split_ifs with hd
  · exact iff_of_false (lt_irrefl _) fun h => absurd h.1 (not_lt.2 hd)
  · have hpos : 0 < durationMs := not_le.1 hd
    have hscale : (0 : ℚ) < 1000000 * durationMs := by positivity
    rw [max_lt_iff, min_lt_iff, div_div, div_lt_one hscale]
    simp only [zero_lt_one, lt_irrefl, or_false, true_and, hpos]
    rw [mul_comm durationMs]
    exact_mod_cast Iff.rfl

theorem smoothstep_lt_one {x : ℚ} (h : x < 1) : smoothstep x < 1 := by
  have hlt : max 0 (min x 1) < 1 := max_lt one_pos (min_lt_of_left_lt h)
  have hnonneg : 0 ≤ max 0 (min x 1) := le_max_left ..
  rw [smoothstep]
  nlinarith [mul_pos (sub_pos.2 hlt) (sub_pos.2 hlt)]

variable (s : State K)

/-- The pose a blend to the synthesized pose starts from. -/
def State.blendFrom : DriverPose K :=
  if s.phase = .blendingToSynth then s.blendStartPose else s.currentPose

variable (now : ℤ)

/-- The time a blend to the synthesized pose starts. -/
def State.blendSince : ℤ :=
  if s.phase = .blendingToSynth then s.phaseStartedAt else now

variable (config : TimingConfig)

/-- With the tracker there, the step waits for it to be stable. -/
def State.waits : Prop :=
  s.phase ≠ .blendingToSynth ∧ NotYet (s.stableSince now) now config.clamp.stableBeforeSynthMs

/-- With the tracker there, the step blends, and the blend is not over. -/
def State.blends : Prop :=
  ¬s.waits now config ∧ NotYet (s.blendSince now) now config.clamp.blendToSynthMs

/-- In the state `s`, the step `i` shows the raw pose on its way back to the tracker:
    the tracker is there again, and either

    * the step waits for it to be stable, and the raw pose is valid; or
    * it is blending to it from a pose with a share of raw poses, one of the two
      being valid. -/
def RawReacquire (s : State (Traced K)) (i : Input K) : Prop :=
  ∃ synthPose ∈ i.synth, s.hasCurrentPose = true ∧ s.phase ≠ .synthStable ∧ s.phase ≠ .graceHold ∧
    (s.waits i.now i.config ∧ i.fallbackPose.poseIsValid = true ∨
      s.blends i.now i.config ∧ s.blendFrom.kin.2 ≠ 0 ∧
        (s.blendFrom.poseIsValid || synthPose.poseIsValid) = true)

/-- What holds of the shares under a hard lock. -/
structure Locked (s : State (Traced K)) : Prop where
  lastGood : s.hasLastGoodSynthPose = true → s.lastGoodSynthPose.kin.2 = 0
  synthStable : s.phase = .synthStable → s.hasLastGoodSynthPose = true
  graceHold : s.phase = .graceHold → s.blendStartPose.kin.2 = 0
  phase : s.phase ≠ .blendingToFallback

theorem locked_fresh [Inhabited K] : Locked (fresh (K := Traced K)) where
  lastGood h := absurd h Bool.false_ne_true
  synthStable h := nomatch h
  graceHold h := nomatch h
  phase h := nomatch h

theorem setPhase_eq (phase : Phase) (now : ℤ) : s.setPhase phase now = { s with
      phase := phase, phaseStartedAt := if s.phase = phase then s.phaseStartedAt else now } := by
  rw [setPhase]
  split_ifs with h
  · rw [← h]
  · rfl

variable {s : State (Traced K)} {i : Input K} {synthPose : DriverPose K} (mix : ℚ → K → K → K)

theorem Locked.finish (h : Locked s) (previous : Phase) (out : DriverPose (Traced K)) (alpha : ℚ) :
    Locked (s.finish previous out alpha).state :=
  ⟨h.lastGood, h.synthStable, h.graceHold, h.phase⟩

/-- Entering a phase: what is held is to be free of raw poses. -/
theorem locked_setPhase {phase : Phase} {now : ℤ}
    (hlast : s.hasLastGoodSynthPose = true → s.lastGoodSynthPose.kin.2 = 0)
    (hstable : phase = .synthStable → s.hasLastGoodSynthPose = true)
    (hgrace : phase = .graceHold → s.blendStartPose.kin.2 = 0)
    (hphase : phase ≠ .blendingToFallback) : Locked (s.setPhase phase now) := by
  rw [setPhase_eq]
  exact ⟨hlast, hstable, hgrace, hphase⟩

theorem locked_stepFirst (h : Locked s) : Locked (s.stepFirst i.traced).state := by
  rw [stepFirst, Input.synth_traced]
  cases i.synth with
  | some synthPose =>
    apply Locked.finish
    exact locked_setPhase (fun _ => rfl) (fun _ => rfl) (by simp) (by simp)
  | none =>
    apply Locked.finish
    exact locked_setPhase h.lastGood (by simp) (by simp) (by simp)

/-- The step that waits puts out the raw pose. -/
theorem stepSynth_of_waits {s : State K} {i : Input K}
    (hphase : ¬(s.phase = .synthStable ∨ s.phase = .graceHold))
    (hfallback : s.phase ≠ .blendingToFallback) (hwaits : s.waits i.now i.config) :
    s.stepSynth mix i synthPose =
      ((s.withSynth synthPose i.now).setPhase .waitingForStableSynth i.now).finish s.phase
        i.fallbackPose
        (durationAlpha (s.stableSince i.now) i.now i.config.clamp.stableBeforeSynthMs) := by
  have hwait : (s.withSynth synthPose i.now).phase ≠ .blendingToFallback := hfallback
  rw [stepSynth, if_neg hphase]
  dsimp only
  rw [if_pos ⟨durationAlpha_lt_one_iff.2 hwaits.2, hwaits.1⟩, stepWait, if_neg hwait]
  rfl

/-- The step that does not wait blends, from where it is or from where it began. -/
theorem stepSynth_of_not_waits {s : State K} {i : Input K}
    (hphase : ¬(s.phase = .synthStable ∨ s.phase = .graceHold)) (hs : s.hasCurrentPose = true)
    (hwaits : ¬s.waits i.now i.config) :
    s.stepSynth mix i synthPose = stepBlend { s.withSynth synthPose i.now with
      phase := .blendingToSynth
      blendStartPose := s.blendFrom
      phaseStartedAt := s.blendSince i.now } mix i s.phase synthPose := by
  rw [stepSynth, if_neg hphase]
  dsimp only
  rw [if_neg fun h => hwaits ⟨h.2, durationAlpha_lt_one_iff.1 h.1⟩]
  congr 1
  rw [beginBlend, blendFrom, blendSince, setPhase, withSynth]
  by_cases hp : s.phase = .blendingToSynth
  · simp [hp]
  · simp [hp, hs]

theorem locked_stepSynth (h : Locked s) (hs : s.hasCurrentPose = true) :
    Locked (s.stepSynth (mixTraced mix) i.traced (synthPose.map (·, 0))).state := by
  by_cases hphase : s.phase = .synthStable ∨ s.phase = .graceHold
  · rw [stepSynth, if_pos hphase]
    apply Locked.finish
    exact locked_setPhase (fun _ => rfl) (fun _ => rfl) (by simp) (by simp)
  by_cases hwaits : s.waits i.now i.config
  · rw [stepSynth_of_waits (i := i.traced) _ hphase h.phase hwaits]
    apply Locked.finish
    exact locked_setPhase (fun _ => rfl) (by simp) (by simp) (by simp)
  · rw [stepSynth_of_not_waits (i := i.traced) _ hphase hs hwaits]
    rw [stepBlend]
    dsimp only
    split
    · apply Locked.finish
      exact locked_setPhase (fun _ => rfl) (fun _ => rfl) (by simp) (by simp)
    · apply Locked.finish
      exact ⟨fun _ => rfl, by simp, by simp, by simp⟩

theorem locked_loseSynth (h : Locked s) (now : ℤ) : Locked (s.loseSynth now) := by
  rw [loseSynth]
  dsimp only
  split
  next hphase =>
    refine locked_setPhase h.lastGood (by simp) (fun _ => ?_) (by simp)
    -- The pose held in the grace is the last good one.
    have hhas := h.synthStable hphase
    simp only [heldPose, hhas, if_true]
    exact h.lastGood hhas
  · exact ⟨h.lastGood, h.synthStable, h.graceHold, h.phase⟩

theorem locked_stepHold (h : Locked s) : Locked (s.stepHold i.traced).state := by
  have hlose := locked_loseSynth h i.now
  rw [stepHold]
  split
  · exact hlose.finish ..
  · exact (locked_setPhase hlose.lastGood (by simp) (by simp) (by simp)).finish ..

/-- Under a hard lock, a step keeps the shares as they should be. -/
theorem Locked.step (h : Locked s) (hlock : i.allowFallback = false) :
    Locked (stepSourceBlend (mixTraced mix) s i.traced).state := by
  rw [stepSourceBlend, Input.synth_traced, show i.traced.allowFallback = false from hlock]
  split
  next hs =>
    cases i.synth with
    | some synthPose => exact locked_stepSynth mix h hs
    | none => exact locked_stepHold h
  · exact locked_stepFirst h

/-! ## What a step puts out -/

variable (p : DriverPose (Traced K))

/-- A traced pose is valid, with a share of raw poses. -/
def Leaks : Prop := p.poseIsValid = true ∧ p.kin.2 ≠ 0

theorem not_leaks_of_share {p : DriverPose (Traced K)} (h : p.kin.2 = 0) : ¬Leaks p :=
  fun hp => hp.2 h

theorem not_leaks_markPoseOutOfRange : ¬Leaks (markPoseOutOfRange p) :=
  fun hp => Bool.false_ne_true hp.1

/-- A blend to a synthesized pose that is not over has a share if its start has one. -/
theorem leaks_blendPose_iff (a : DriverPose (Traced K)) {alpha : ℚ} (halpha : alpha < 1) :
    Leaks (blendPose (mixTraced mix) a (synthPose.map (·, 0)) alpha) ↔
      a.kin.2 ≠ 0 ∧ (a.poseIsValid || synthPose.poseIsValid) = true := by
  -- The start has a positive weight until the blend is over.
  have hweight : 1 - smoothstep alpha ≠ 0 := (sub_pos.2 (smoothstep_lt_one halpha)).ne'
  have hshare : (blendPose (mixTraced mix) a (synthPose.map (·, 0)) alpha).kin.2 =
      (1 - smoothstep alpha) * a.kin.2 := by
    simp [blendPose, mixTraced, DriverPose.map]
  rw [Leaks, hshare, mul_ne_zero_iff, and_iff_right hweight]
  exact and_comm

theorem leaks_stepSynth_iff (h : Locked s) (hs : s.hasCurrentPose = true)
    (hsynth : i.synth = some synthPose) :
    Leaks (s.stepSynth (mixTraced mix) i.traced (synthPose.map (·, 0))).out ↔ RawReacquire s i := by
  by_cases hphase : s.phase = .synthStable ∨ s.phase = .graceHold
  · rw [stepSynth, if_pos hphase]
    refine iff_of_false (not_leaks_of_share rfl) ?_
    rintro ⟨_, _, _, hstable, hgrace, _⟩
    exact hphase.elim hstable hgrace
  have hraw : RawReacquire s i ↔ s.waits i.now i.config ∧ i.fallbackPose.poseIsValid = true ∨
      s.blends i.now i.config ∧ s.blendFrom.kin.2 ≠ 0 ∧
        (s.blendFrom.poseIsValid || synthPose.poseIsValid) = true := by
    push Not at hphase
    simp [RawReacquire, hsynth, hs, hphase]
  rw [hraw]
  by_cases hwaits : s.waits i.now i.config
  · -- The raw pose is put out as it is.
    have hnot : ¬s.blends i.now i.config := fun hb => hb.1 hwaits
    rw [stepSynth_of_waits (i := i.traced) _ hphase h.phase hwaits, and_iff_right hwaits,
      or_iff_left (hnot ·.1)]
    exact and_iff_left one_ne_zero
  · rw [stepSynth_of_not_waits (i := i.traced) _ hphase hs hwaits, or_iff_right (hwaits ·.1)]
    rw [stepBlend]
    dsimp only
    split
    next halpha =>
      -- The blend is over.
      refine iff_of_false (not_leaks_of_share rfl) fun hb => ?_
      exact absurd (durationAlpha_lt_one_iff.2 hb.1.2) (not_lt.2 halpha)
    next halpha =>
      have halpha := not_le.1 halpha
      rw [and_iff_right ⟨hwaits, durationAlpha_lt_one_iff.1 halpha⟩]
      exact leaks_blendPose_iff mix s.blendFrom halpha

theorem not_leaks_stepHold (h : Locked s) : ¬Leaks (s.stepHold i.traced).out := by
  have hlose := locked_loseSynth h i.now
  rw [stepHold]
  split
  next hgrace => exact not_leaks_of_share (hlose.graceHold hgrace.1)
  · exact not_leaks_markPoseOutOfRange _

theorem not_leaks_stepFirst (hlock : i.allowFallback = false) :
    ¬Leaks (s.stepFirst i.traced).out := by
  rw [stepFirst, Input.synth_traced, show i.traced.allowFallback = false from hlock]
  cases i.synth with
  | some synthPose => exact not_leaks_of_share rfl
  | none => exact not_leaks_markPoseOutOfRange _

/-- Under a hard lock, a step leaks exactly when it shows the raw pose on its way back
    to the tracker. -/
theorem leaks_step_iff (h : Locked s) (hlock : i.allowFallback = false) :
    Leaks (stepSourceBlend (mixTraced mix) s i.traced).out ↔ RawReacquire s i := by
  rw [stepSourceBlend, Input.synth_traced, show i.traced.allowFallback = false from hlock]
  split
  next hs =>
    cases hsynth : i.synth with
    | some synthPose => exact leaks_stepSynth_iff mix h hs hsynth
    | none =>
      refine iff_of_false (not_leaks_stepHold h) ?_
      rintro ⟨_, hmem, _⟩
      rw [hsynth] at hmem
      cases hmem
  next hs =>
    refine iff_of_false (not_leaks_stepFirst hlock) ?_
    rintro ⟨_, _, hcurrent, _⟩
    exact hs hcurrent

variable [Inhabited K] (mix : ℚ → K → K → K)

theorem locked_tracedRun {ins : List (Input K)}
    (hlock : ∀ i ∈ ins, i.allowFallback = false) : Locked (tracedRun mix ins) := by
  induction ins using List.reverseRecOn with
  | nil => exact locked_fresh
  | append_singleton ins i ih =>
    rw [tracedRun, List.map_append, List.map_singleton, run_concat]
    exact (ih fun j hj => hlock j (List.mem_append_left _ hj)).step mix (hlock i (by simp))

/-- The steps that leak the raw pose, seen on the traced run. -/
theorem leaksRaw_iff (pre : List (Input K)) (i : Input K) : LeaksRaw mix pre i ↔
      Leaks (stepSourceBlend (mixTraced mix) (tracedRun mix pre) i.traced).out := by
  have hout := congrArg Outcome.out (erase_step mix (tracedRun mix pre) i)
  rw [erase_tracedRun] at hout
  have hvalid : (output mix pre i).poseIsValid = _ := congrArg DriverPose.poseIsValid hout.symm
  rw [LeaksRaw, hvalid]
  rfl

/-- Under a hard lock, in every run: no step puts out a valid pose with a share of the
    raw pose, exactly if no step shows the raw pose on its way back to the tracker. -/
theorem hardLock_clean_iff (ins : List (Input K)) (hlock : ∀ i ∈ ins, i.allowFallback = false) :
    (∀ pre i, pre ++ [i] <+: ins → ¬LeaksRaw mix pre i) ↔
      ∀ pre i, pre ++ [i] <+: ins → ¬RawReacquire (tracedRun mix pre) i := by
  refine forall₃_congr fun pre i hpre => not_congr ?_
  have hmem (j : Input K) (hj : j ∈ pre ++ [i]) : j.allowFallback = false :=
    hlock j (hpre.subset hj)
  rw [leaksRaw_iff]
  exact leaks_step_iff mix (locked_tracedRun mix fun j hj => hmem j (List.mem_append_left _ hj))
    (hmem i (by simp))

/-! ## Losing the tracker and finding it again -/

/-- Linear blending of one coordinate. -/
def lerp (s a b : ℚ) : ℚ := (1 - s) * a + s * b

/-- A step under a hard lock, the tracker at `1` and the raw headset at `5`. -/
def lockedStep (synthAvailable : Bool) (now : ℤ) : Input ℚ where
  fallbackPose := .healthy 5
  synthPose := if synthAvailable then some (.healthy 1) else none
  synthAvailable := synthAvailable
  now := now
  allowFallback := false

/-- `hardLock_clean_iff` on a run that loses the tracker: nothing leaks. -/
theorem hardLock_clean_iff_lost :
    (∀ i ∈ [lockedStep true 0, lockedStep false 10000000], i.allowFallback = false) ∧
    ∀ pre i, pre ++ [i] <+: [lockedStep true 0, lockedStep false 10000000] →
      ¬LeaksRaw lerp pre i := by
  have hlock : ∀ i ∈ [lockedStep true 0, lockedStep false 10000000], i.allowFallback = false := by
    simp [lockedStep]
  refine ⟨hlock, (hardLock_clean_iff lerp _ hlock).2 fun pre i hpre => ?_⟩
  simp only [concat_prefix_cons, not_concat_prefix_nil, and_false, exists_const, or_false] at hpre
  rcases hpre with ⟨rfl, rfl⟩ | ⟨_, rfl, rfl, rfl⟩
  · -- The first step.
    rintro ⟨_, _, hcurrent, _⟩
    exact Bool.false_ne_true hcurrent
  · rintro ⟨_, hmem, _⟩
    cases hmem

/-- The tracker is lost for two seconds, and the pose is out of range by then. -/
def lostForTwoSeconds : List (Input ℚ) :=
  [lockedStep true 0, lockedStep false 10000000, lockedStep false 2000000000]

/-- When the tracker is found again, the headset jumps to the raw pose. -/
theorem hardLock_leaks_on_reacquire :
    (∀ i ∈ lostForTwoSeconds ++ [lockedStep true 2010000000], i.allowFallback = false) ∧
    output lerp lostForTwoSeconds (lockedStep true 2010000000) = .healthy 5 ∧
    LeaksRaw lerp lostForTwoSeconds (lockedStep true 2010000000) := by
  have hout : output lerp lostForTwoSeconds (lockedStep true 2010000000) = .healthy 5 := by
    decide +kernel
  have hshare : outputShare lerp lostForTwoSeconds (lockedStep true 2010000000) ≠ 0 := by
    decide +kernel
  refine ⟨by simp [lostForTwoSeconds, lockedStep], hout, ?_, hshare⟩
  rw [hout]
  rfl

end WKOpenVR.Driver.SourceBlend
