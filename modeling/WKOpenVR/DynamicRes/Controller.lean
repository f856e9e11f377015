import Mathlib

/-!
# The controller of the dynamic resolution

Once a second the overlay looks at how the frames of the last second were rendered, and
lowers or raises the render scale (`DynamicResolutionLogic.cpp`). The controller keeps a
window of samples (`Controller.classify`), and decides on a scale (`Controller.evaluate`):

* a scale that was just written is given some ticks to settle, and its effect is then
  checked: a raise after which frames were harmed is taken back (`Controller.runEffectCheck`);
* lasting harm by the GPU lowers the scale, not below the floor (`lowerStage`);
* a clean window raises it, towards the baseline (`cpuReleaseStage`, `recoverStage`) or
  above it, up to the ceiling (`supersampleStage`).

The overlay writes the scale it was given, and notes it (`Controller.noteWrite`).

Scales and times are exact numbers `K`; the functions of `<cmath>` that the controller uses
to predict the time of a frame are parameters (`Cmath`).
-/

namespace WKOpenVR.DynamicRes

inductive ResolutionPressure
  | waiting
  | steady
  | gpuBound
  | cpuBound
  | headroom
  deriving DecidableEq, Repr

inductive ResolutionAction
  | none
  | lower
  | raise
  | restore
  | externalOverride
  | noEffect
  deriving DecidableEq, Repr

structure Settings (K : Type*) where
  minScaleFraction : K
  maxScaleFraction : K
  stepFraction : K
  gpuHarmRateFraction : K
  raiseHarmRateFraction : K
  motionRateFraction : K
  lowerTargetFraction : K
  raiseSafetyFraction : K
  raiseAboveBaselineFraction : K
  cpuStallFraction : K
  windowSize : ℤ
  lowerRequiredTicks : ℤ
  raiseRequiredTicks : ℤ
  cpuReleaseTicks : ℤ
  raiseAboveBaselineTicks : ℤ
  settleTicks : ℤ
  noEffectLimit : ℤ
  burnedDecayTicks : ℤ
  allowRaiseBack : Bool
  releaseOnCpuBound : Bool

/-- What was seen of the frames of a tick. -/
structure Timing (K : Type*) where
  frameBudgetMs : K
  framesConsidered : ℤ
  appGpuP50Ms : K
  appGpuP95Ms : K
  appGpuMaxMs : K
  clientFrameIntervalMs : K
  compositorIdleCpuMs : K
  framesWithGpuReproj : ℤ
  framesWithCpuReproj : ℤ
  framesWithMotion : ℤ
  framesThrottled : ℤ
  framesWithDrops : ℤ
  framesMispresented : ℤ
  framesMultiPresented : ℤ
  framesOverBudget : ℤ
  valid : Bool

structure Classification (K : Type*) where
  pressure : ResolutionPressure
  frameBudgetMs : K
  tickCount : ℤ
  framesTotal : ℤ
  appGpuP50Ms : K
  appGpuP95Ms : K
  appGpuPeakMs : K
  clientFrameIntervalMs : K
  compositorIdleCpuMs : K
  gpuHarmRate : K
  cpuHarmRate : K
  motionRate : K
  recentMotionRate : K
  dropRate : K
  multiPresentRate : K
  overBudgetRate : K
  harmRate : K
  consecutiveHarmTicks : ℤ
  consecutiveCleanTicks : ℤ
  tickHarmed : Bool
  motionSmoothingEngaged : Bool
  appPaced : Bool
  cpuStalled : Bool
  gpuHasHeadroom : Bool
  costBeta : K
  predictedRaiseP95Ms : K

structure Input (K : Type*) where
  timing : Timing K
  baselineScale : K
  currentScale : K
  sceneRunning : Bool
  externalOverride : Bool

inductive Verdict
  | effective
  | noEffect
  | regressed
  | unmeasured
  deriving DecidableEq, Repr

structure EffectCheck (K : Type*) where
  after : ResolutionAction
  fromScale : K
  toScale : K
  preP95Ms : K
  postP95Ms : K
  betaObserved : Option K
  verdict : Verdict

inductive Gate
  | lower
  | raise
  | supersample
  | cpuRelease
  deriving DecidableEq, Repr

inductive Cause
  | dwell
  | harmRate
  | motionRate
  | predictedFit
  | burned
  | floor
  | appPaced
  deriving DecidableEq, Repr

/-- The first gate that an action was withheld by. -/
structure Withheld (K : Type*) where
  gate : Gate
  cause : Cause
  value : K
  limit : K

structure Output (K : Type*) where
  action : ResolutionAction
  targetScale : K
  reason : String
  classification : Classification K
  /-- The check of the last write, if it ran. -/
  effectCheck : Option (EffectCheck K)
  withheld : Option (Withheld K)

def Output.withhold {K : Type*} (out : Output K) (gate : Gate) (cause : Cause) (value limit : K) :
    Output K :=
  if out.withheld.isSome then out else { out with withheld := some ⟨gate, cause, value, limit⟩ }

/-- The predicted time of a raise is put on record. -/
def Output.predict {K : Type*} (out : Output K) (predictedRaiseP95Ms : K) : Output K :=
  { out with
    classification := { out.classification with predictedRaiseP95Ms := predictedRaiseP95Ms } }

structure PendingWrite (K : Type*) where
  action : ResolutionAction
  fromScale : K
  toScale : K
  preP95Ms : K

structure Controller (K : Type*) where
  samples : List (Timing K)
  lastPressure : ResolutionPressure
  pressureTicks : ℤ
  settleTicksRemaining : ℤ
  noEffectCount : ℤ
  consecutiveHarmTicks : ℤ
  consecutiveCleanTicks : ℤ
  harmSinceWrite : Bool
  raiseStreak : Bool
  costBeta : K
  burnedScale : K
  burnedTicksRemaining : ℤ
  pendingWrite : Option (PendingWrite K)
  lastEvaluatedScale : K

/-- The functions of `<cmath>`, of which nothing is assumed. -/
structure Cmath (K : Type*) where
  pow : K → K → K
  log : K → K

variable {K : Type*} [Field K] [LinearOrder K]

/-- `std::clamp`. -/
def clamp (v lo hi : K) : K := if v < lo then lo else if hi < v then hi else v

def clampScaleFraction (value : K) : K := clamp value 0.10 1.50

def Settings.defaults : Settings K where
  minScaleFraction := 0.60
  maxScaleFraction := 1.50
  stepFraction := 0.15
  gpuHarmRateFraction := 0.015
  raiseHarmRateFraction := 0.002
  motionRateFraction := 0.05
  lowerTargetFraction := 0.90
  raiseSafetyFraction := 0.90
  raiseAboveBaselineFraction := 0.65
  cpuStallFraction := 1.05
  windowSize := 6
  lowerRequiredTicks := 2
  raiseRequiredTicks := 4
  cpuReleaseTicks := 4
  raiseAboveBaselineTicks := 8
  settleTicks := 2
  noEffectLimit := 3
  burnedDecayTicks := 120
  allowRaiseBack := true
  releaseOnCpuBound := true

def Controller.reset : Controller K where
  samples := []
  lastPressure := .waiting
  pressureTicks := 0
  settleTicksRemaining := 0
  noEffectCount := 0
  consecutiveHarmTicks := 0
  consecutiveCleanTicks := 0
  harmSinceWrite := false
  raiseStreak := false
  costBeta := 1
  burnedScale := 0
  burnedTicksRemaining := 0
  pendingWrite := none
  lastEvaluatedScale := 0

/-! ## Samples -/

def median (values : List K) : K :=
  let sorted := values.insertionSort (· ≤ ·)
  let mid := values.length / 2
  if values.isEmpty then 0
  else if values.length % 2 = 1 then sorted.getD mid 0
  else (sorted.getD (mid - 1) 0 + sorted.getD mid 0) * 0.5

variable (settings : Settings K)

def minWindowSamples : ℤ := max 1 (min settings.windowSize 3)

def stepCap : K := clamp settings.stepFraction 0.01 0.25

variable (tick : Timing K)

/-- The frames of a tick that the GPU harmed. Dropped frames are ascribed to it if its time
    is near the budget, and the CPU shows nothing. -/
def gpuHarmFrames : ℤ :=
  let budget := max 1 tick.frameBudgetMs
  tick.framesWithGpuReproj + tick.framesThrottled +
    if budget * 0.95 ≤ tick.appGpuP95Ms ∧ tick.framesWithCpuReproj = 0 then tick.framesWithDrops
    else 0

def harmFrames : ℤ :=
  tick.framesWithGpuReproj + tick.framesThrottled + tick.framesWithCpuReproj +
    tick.framesWithDrops + tick.framesMispresented

def tickGpuHarmed (settings : Settings K) : Bool :=
  let frames : K := (max 1 tick.framesConsidered : ℤ)
  let budget := max 1 tick.frameBudgetMs
  decide (settings.gpuHarmRateFraction ≤ gpuHarmFrames tick / frames) ||
    decide (0.30 ≤ tick.framesWithMotion / frames ∧ budget * 0.90 ≤ tick.appGpuP95Ms)

/-- The sum of a number of frames over the samples. -/
def total (samples : List (Timing K)) (frames : Timing K → ℤ) : ℤ := (samples.map frames).sum

variable (c : Controller K) (timing : Timing K)

def Controller.addSample (settings : Settings K) : Controller K :=
  if timing.valid = true ∧ 0 < timing.framesConsidered then
    let window := (max 1 settings.windowSize).toNat
    let samples := c.samples ++ [timing]
    let harmed := tickGpuHarmed timing settings
    { c with
      samples := samples.drop (samples.length - window)
      consecutiveHarmTicks := if harmed then c.consecutiveHarmTicks + 1 else 0
      harmSinceWrite := c.harmSinceWrite || harmed
      raiseStreak := c.raiseStreak && !harmed
      consecutiveCleanTicks :=
        if harmFrames timing = 0 then c.consecutiveCleanTicks + 1 else 0 }
  else c

/-- What the window and the counters say, before it is known if there are enough samples. -/
def Controller.measure : Classification K :=
  let samples := c.samples
  let recent := samples.drop (samples.length - 3)
  let framesTotal := total samples (·.framesConsidered)
  let rate (frames : Timing K → ℤ) : K := total samples frames / max 1 (framesTotal : K)
  { pressure := .waiting
    frameBudgetMs := if 1 < timing.frameBudgetMs then timing.frameBudgetMs else 1000 / 90
    tickCount := samples.length
    framesTotal := framesTotal
    appGpuP50Ms := median (samples.map (·.appGpuP50Ms))
    appGpuP95Ms := median (samples.map (·.appGpuP95Ms))
    appGpuPeakMs := samples.foldl (fun peak sample => max peak sample.appGpuMaxMs) 0
    clientFrameIntervalMs := median ((samples.map (·.clientFrameIntervalMs)).filter (0 < ·))
    compositorIdleCpuMs := median ((samples.map (·.compositorIdleCpuMs)).filter (0 < ·))
    gpuHarmRate := rate gpuHarmFrames
    cpuHarmRate := rate (·.framesWithCpuReproj)
    motionRate := rate (·.framesWithMotion)
    recentMotionRate :=
      total recent (·.framesWithMotion) / max 1 (total recent (·.framesConsidered) : K)
    dropRate := rate (·.framesWithDrops)
    multiPresentRate := rate (·.framesMultiPresented)
    overBudgetRate := rate (·.framesOverBudget)
    harmRate := rate harmFrames
    consecutiveHarmTicks := c.consecutiveHarmTicks
    consecutiveCleanTicks := c.consecutiveCleanTicks
    tickHarmed := decide (0 < c.consecutiveHarmTicks)
    motionSmoothingEngaged := false
    appPaced := false
    cpuStalled := false
    gpuHasHeadroom := false
    costBeta := c.costBeta
    predictedRaiseP95Ms := 0 }

/-- The pressure that a full window shows. -/
def Controller.classifyPressure (out : Classification K)
    (settings : Settings K) : Classification K :=
  let budget := max 1 out.frameBudgetMs
  let gpuHasHeadroom := decide (out.appGpuP95Ms ≤ budget * settings.raiseSafetyFraction)
  let motionSmoothingEngaged := decide (0.30 ≤ out.motionRate)
  let appPaced := decide (total c.samples harmFrames = 0 ∧
    budget * 1.15 < out.clientFrameIntervalMs ∧
    out.recentMotionRate < settings.motionRateFraction ∧ 0.5 ≤ out.multiPresentRate)
  let cpuStalled := decide (budget * settings.cpuStallFraction < out.clientFrameIntervalMs) &&
    gpuHasHeadroom && !appPaced && !motionSmoothingEngaged
  { out with
    gpuHasHeadroom := gpuHasHeadroom
    motionSmoothingEngaged := motionSmoothingEngaged
    appPaced := appPaced
    cpuStalled := cpuStalled
    pressure :=
      if 1 ≤ out.consecutiveHarmTicks then .gpuBound
      else if settings.gpuHarmRateFraction ≤ out.cpuHarmRate ∨ cpuStalled = true then .cpuBound
      else if out.harmRate ≤ settings.raiseHarmRateFraction ∧
          out.recentMotionRate < settings.motionRateFraction ∧ gpuHasHeadroom = true then .headroom
      else .steady }

def Controller.classify (settings : Settings K) : Controller K × Classification K :=
  let c := c.addSample timing settings
  let out := c.measure timing
  (c, if out.tickCount < minWindowSamples settings then out else c.classifyPressure out settings)

/-! ## Bounds and predictions -/

variable (baselineScale : K)

def floorFor : K :=
  max 0.1 (baselineScale * clampScaleFraction settings.minScaleFraction)

def ceilingScale : K :=
  let baseline := max 0.1 baselineScale
  max baseline (clampScaleFraction (baseline * max 1 settings.maxScaleFraction))

variable (m : Cmath K) (cls : Classification K)

def Controller.predictP95Ms (currentScale targetScale : K) : K :=
  let p95 := max 0 cls.appGpuP95Ms
  let beta := clamp c.costBeta 0.4 1.6
  p95 * m.pow (targetScale / max 0.1 currentScale) beta

def Controller.solveScaleForP95 (currentScale targetP95Ms : K) : K :=
  let p95 := max cls.appGpuP95Ms 0.1
  let beta := clamp c.costBeta 0.4 1.6
  currentScale * m.pow (targetP95Ms / p95) (1 / beta)

/-! ## The check of a write -/

/-- A raise that brought harm is taken back, and its target is burned for a while. Otherwise
    the cost of a scale is measured, and lowering without any effect is counted. -/
def Controller.runEffectCheck (pending : PendingWrite K)
    (baselineScale : K) (settings : Settings K) (out : Output K) : Controller K × Output K :=
  let c := { c with pendingWrite := none }
  let postP95Ms := out.classification.appGpuP95Ms
  let check : EffectCheck K :=
    { after := pending.action, fromScale := pending.fromScale, toScale := pending.toScale
      preP95Ms := pending.preP95Ms, postP95Ms := postP95Ms, betaObserved := none
      verdict := .effective }
  if pending.action = .raise ∧ c.harmSinceWrite = true then
    ({ c with
        burnedScale :=
          if 0 < c.burnedTicksRemaining ∧ 0 < c.burnedScale then min c.burnedScale pending.toScale
          else pending.toScale
        burnedTicksRemaining := max 1 settings.burnedDecayTicks
        raiseStreak := false },
     { out with
        action := .lower
        targetScale := min pending.fromScale pending.toScale
        reason := "raise regressed"
        effectCheck := some { check with verdict := .regressed } })
  else
    let logScale :=
      if 0 < pending.fromScale ∧ 0 < pending.toScale then
        m.log (pending.toScale / pending.fromScale)
      else 0
    if ¬ (0.05 ≤ |logScale| ∧ 0.5 ≤ pending.preP95Ms ∧ 0.5 ≤ postP95Ms) then
      ({ c with raiseStreak := c.raiseStreak || decide (pending.action = .raise) },
       { out with effectCheck := some { check with verdict := .unmeasured } })
    else
      let betaObserved := m.log (postP95Ms / pending.preP95Ms) / logScale
      let check := { check with betaObserved := some betaObserved }
      let c := { c with
        costBeta := if c.harmSinceWrite then c.costBeta
          else clamp (c.costBeta * (1 - 0.5) + betaObserved * 0.5) 0.4 1.6 }
      if pending.action = .lower then
        if betaObserved < 0.10 then
          let out := { out with effectCheck := some { check with verdict := .noEffect } }
          ({ c with noEffectCount := c.noEffectCount + 1 },
           if max 1 settings.noEffectLimit ≤ c.noEffectCount + 1 then
             { out with
                action := .noEffect
                targetScale := baselineScale
                reason := "lowering did not reduce GPU time" }
           else out)
        else ({ c with noEffectCount := 0 }, { out with effectCheck := some check })
      else ({ c with raiseStreak := true }, { out with effectCheck := some check })

/-! ## The decision -/

/-- The scales that a decision is made from. -/
structure Scales (K : Type*) where
  baseline : K
  ceiling : K
  current : K
  floor : K
  budget : K

def scales (input : Input K) (settings : Settings K) (cls : Classification K) : Scales K :=
  let baseline := max 0.1 input.baselineScale
  let ceiling := ceilingScale settings baseline
  { baseline := baseline
    ceiling := ceiling
    current := clamp input.currentScale 0.1 (max 2.0 ceiling)
    floor := floorFor settings baseline
    budget := max 1 cls.frameBudgetMs }

section

variable (c : Controller K) (m : Cmath K) (settings : Settings K) (x : Scales K)
  (cls : Classification K)

/-- The scale after a cut: what the solve says, by at most the step, and at least by a
    little. -/
def lowerTarget : K :=
  let solved := c.solveScaleForP95 m cls x.current (settings.lowerTargetFraction * x.budget)
  let target :=
    if solved < x.current - 0.03 then solved
    else x.current * (1 - max 0.05 (stepCap settings * 0.5))
  let target := max target (x.current * (1 - stepCap settings))
  let target := min target (x.current - 0.03)
  max x.floor target

/-- The parts of the decision return with an output (`error`), or go on with it (`ok`). -/
abbrev Stage (K : Type*) := Output K → Except (Output K) (Output K)

/-- What is returned, wherever the evaluation ended. -/
def result {K : Type*} : Except (Output K) (Output K) → Output K
  | .error out => out
  | .ok out => out

def lowerStage : Stage K := fun out =>
  let cls := out.classification
  let requiredHarmTicks := max 2 settings.lowerRequiredTicks
  if cls.pressure = .gpuBound then
    if cls.consecutiveHarmTicks < requiredHarmTicks then
      .ok (out.withhold .lower .dwell cls.consecutiveHarmTicks requiredHarmTicks)
    else if x.current ≤ x.floor + 0.005 then .ok (out.withhold .lower .floor x.current x.floor)
    else
      .error { out with
        action := .lower
        targetScale := lowerTarget c m settings x cls
        reason := "GPU-bound" }
  else .ok out

structure RaiseTarget (K : Type*) where
  target : K
  fitCapped : Bool
  burnCapped : Bool

/-- The scale after a raise: at most `cap`, by at most the step, below a burned scale, and
    only as far as the frames are predicted to fit. -/
def raiseTarget (cap : K) : RaiseTarget K :=
  let candidate := min cap (x.current * (1 + stepCap settings))
  let burnCapped := decide (0 < c.burnedTicksRemaining ∧ 0 < c.burnedScale ∧
    c.burnedScale * 0.98 ≤ candidate)
  let candidate := if burnCapped then c.burnedScale * 0.98 else candidate
  let fit := c.solveScaleForP95 m cls x.current (settings.raiseSafetyFraction * x.budget)
  if 0.1 ≤ cls.appGpuP95Ms ∧ fit < candidate then ⟨fit, true, burnCapped⟩
  else ⟨candidate, false, burnCapped⟩

/-- A raise towards the baseline, if it is worth it. -/
def raiseToBaseline (gate : Gate) (reason : String) : Stage K := fun out =>
  let r := raiseTarget c m settings x out.classification x.baseline
  let predicted := c.predictP95Ms m out.classification x.current r.target
  let out := out.predict predicted
  if 0.03 ≤ r.target - x.current then
    .error { out with action := .raise, targetScale := r.target, reason := reason }
  else if r.fitCapped then
    .ok (out.withhold gate .predictedFit predicted (settings.raiseSafetyFraction * x.budget))
  else if r.burnCapped then .ok (out.withhold gate .burned r.target (c.burnedScale * 0.98))
  else .ok out

/-- The scale goes back to the baseline if the CPU is what is slow. -/
def cpuReleaseStage : Stage K := fun out =>
  let cls := out.classification
  let required := max 1 settings.cpuReleaseTicks
  if settings.releaseOnCpuBound = true ∧ settings.allowRaiseBack = true ∧ cls.pressure = .cpuBound ∧
      cls.gpuHasHeadroom = true ∧ x.current < x.baseline - 0.005 then
    if c.pressureTicks < required then
      .ok (out.withhold .cpuRelease .dwell c.pressureTicks required)
    else raiseToBaseline c m settings x .cpuRelease "CPU-bound; GPU headroom" out
  else .ok out

/-- The scale goes back to the baseline in a window without harm. Below the baseline, the
    evaluation ends here. -/
def recoverStage : Stage K := fun out =>
  let cls := out.classification
  let requiredCleanTicks := if c.raiseStreak then 1 else max 1 settings.raiseRequiredTicks
  let motionOk := decide (cls.recentMotionRate < settings.motionRateFraction) ||
    (cls.motionSmoothingEngaged && cls.gpuHasHeadroom)
  if settings.allowRaiseBack = true ∧ cls.pressure ≠ .cpuBound ∧
      x.current < x.baseline - 0.005 then
    if settings.raiseHarmRateFraction < cls.harmRate then
      .error (out.withhold .raise .harmRate cls.harmRate settings.raiseHarmRateFraction)
    else if !motionOk then
      .error (out.withhold .raise .motionRate cls.recentMotionRate settings.motionRateFraction)
    else if cls.consecutiveCleanTicks < requiredCleanTicks then
      .error (out.withhold .raise .dwell cls.consecutiveCleanTicks requiredCleanTicks)
    else .error (result (raiseToBaseline c m settings x .raise "GPU headroom" out))
  else .ok out

/-- Above the baseline, a spotless window raises the scale by a small step. -/
def supersampleStage : Stage K := fun out =>
  let cls := out.classification
  let superBudgetMs := settings.raiseAboveBaselineFraction * x.budget
  let required := max 1 settings.raiseAboveBaselineTicks
  if settings.allowRaiseBack = true ∧ x.baseline - 0.005 ≤ x.current ∧
      x.current < x.ceiling - 0.005 then
    if cls.appPaced then
      .ok (out.withhold .supersample .appPaced cls.clientFrameIntervalMs (1.15 * x.budget))
    else if 0 < cls.harmRate then .ok (out.withhold .supersample .harmRate cls.harmRate 0)
    else if 0 < cls.recentMotionRate then
      .ok (out.withhold .supersample .motionRate cls.recentMotionRate 0)
    else if 0.005 < cls.overBudgetRate then
      .ok (out.withhold .supersample .harmRate cls.overBudgetRate 0.005)
    else if superBudgetMs < cls.appGpuP95Ms then
      .ok (out.withhold .supersample .predictedFit cls.appGpuP95Ms superBudgetMs)
    else if cls.consecutiveCleanTicks < required then
      .ok (out.withhold .supersample .dwell cls.consecutiveCleanTicks required)
    else
      let target := min x.ceiling (x.current + min 0.05 (stepCap settings))
      if 0 < c.burnedTicksRemaining ∧ 0 < c.burnedScale ∧ c.burnedScale * 0.98 ≤ target then
        .ok (out.withhold .supersample .burned target (c.burnedScale * 0.98))
      else
        let predicted := c.predictP95Ms m cls x.current target
        let out := out.predict predicted
        if superBudgetMs < predicted then
          .ok (out.withhold .supersample .predictedFit predicted superBudgetMs)
        else if 0.005 < target - x.current then
          .error { out with
            action := .raise, targetScale := target, reason := "GPU headroom (supersample)" }
        else .ok out
  else .ok out

/-- The decision of a tick that settles nothing and has no write to take back. -/
def decideScale (out : Output K) : Output K :=
  if out.classification.tickCount < minWindowSamples settings then out
  else
    result (lowerStage c m settings x out >>= cpuReleaseStage c m settings x >>=
      recoverStage c m settings x >>= supersampleStage c m settings x)

end

/-- A sample is taken, and the counters go on. -/
def Controller.observe (input : Input K) (settings : Settings K) :
    Controller K × Classification K :=
  let (c, cls) :=
    Controller.classify { c with lastEvaluatedScale := input.currentScale } input.timing settings
  let burnedTicksRemaining := if 0 < c.burnedTicksRemaining then c.burnedTicksRemaining - 1
    else c.burnedTicksRemaining
  ({ c with
      lastPressure := cls.pressure
      pressureTicks := if cls.pressure = c.lastPressure then c.pressureTicks + 1 else 1
      burnedTicksRemaining := burnedTicksRemaining
      burnedScale :=
        if 0 < c.burnedTicksRemaining ∧ burnedTicksRemaining = 0 then 0 else c.burnedScale },
   cls)

/-- The classification that is returned if there is none. -/
def Classification.default : Classification K :=
  (Controller.reset : Controller K).measure
    { frameBudgetMs := 1000 / 90, framesConsidered := 0, appGpuP50Ms := 0, appGpuP95Ms := 0
      appGpuMaxMs := 0, clientFrameIntervalMs := 0, compositorIdleCpuMs := 0
      framesWithGpuReproj := 0, framesWithCpuReproj := 0, framesWithMotion := 0
      framesThrottled := 0, framesWithDrops := 0, framesMispresented := 0
      framesMultiPresented := 0, framesOverBudget := 0, valid := true }

def Controller.evaluate (m : Cmath K) (input : Input K) (settings : Settings K) :
    Controller K × Output K :=
  let out : Output K :=
    { action := .none, targetScale := input.currentScale, reason := "", classification := .default
      effectCheck := none, withheld := none }
  if !input.sceneRunning then
    (c, { out with
      action := .restore, targetScale := input.baselineScale, reason := "scene stopped" })
  else if input.externalOverride then
    (c, { out with action := .externalOverride, reason := "SteamVR value changed" })
  else
    let (c, cls) := c.observe input settings
    let out := { out with classification := cls }
    if 0 < c.settleTicksRemaining then
      ({ c with settleTicksRemaining := c.settleTicksRemaining - 1 },
       { out with reason := "settling" })
    else
      let (c, out) :=
        match c.pendingWrite with
        | some pending =>
          if minWindowSamples settings ≤ cls.tickCount then
            c.runEffectCheck m pending input.baselineScale settings out
          else (c, out)
        | none => (c, out)
      if out.action ≠ .none then (c, out)
      else (c, decideScale c m settings (scales input settings cls) out)

def Controller.noteWrite (action : ResolutionAction) (writtenScale : K)
    (classification : Classification K) (settings : Settings K) : Controller K :=
  let changed := action = .lower ∨ action = .raise
  { c with
    samples := []
    settleTicksRemaining := max 0 settings.settleTicks
    pressureTicks := 0
    lastPressure := .waiting
    consecutiveHarmTicks := 0
    consecutiveCleanTicks := 0
    harmSinceWrite := false
    raiseStreak := c.raiseStreak && !decide (action = .lower)
    pendingWrite :=
      if changed then
        some
          { action := action
            fromScale := if 0 < c.lastEvaluatedScale then c.lastEvaluatedScale else writtenScale
            toScale := writtenScale
            preP95Ms := classification.appGpuP95Ms }
      else none }

end WKOpenVR.DynamicRes
