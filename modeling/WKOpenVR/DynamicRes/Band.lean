import WKOpenVR.DynamicRes.Controller
import WKOpenVR.Machine

/-!
# The band of the scale

The floor and the ceiling of the scale are computed from the baseline. What the overlay
notes as written is the scale it has read back from SteamVR, which need not be the one it
was given. As long as the scales it notes are in the band, and it notes a raise only with a
scale above the one that was evaluated (`Within`), a decision to lower the scale goes down,
to the floor at most, and a decision to raise it goes up, to the ceiling at most
(`evaluate_inBand`).

For most decisions this can be read off the scale they start from (`Sound`). But a raise
that is taken back goes to the scale that was evaluated when it was decided on, which the
controller remembers in the pending write: that this scale is in the band, and below the
current one, is part of the invariant of the runs (`Inv`). A raise noted with the scale it
started from is taken back to the current scale, which is not lower (`raise_not_lowered`).
-/

namespace WKOpenVR.DynamicRes

variable {K : Type*} [Field K] [LinearOrder K]

/-- A decision keeps the scale in the band, and changes it in the direction it says. -/
structure InBand (floor ceiling current : K) (out : Output K) : Prop where
  lower : out.action = .lower → floor ≤ out.targetScale ∧ out.targetScale < current
  raise : out.action = .raise → current < out.targetScale ∧ out.targetScale ≤ ceiling

/-- The overlay with its controller. -/
structure Session (K : Type*) where
  controller : Controller K
  /-- The scale last noted as written. -/
  scale : K

inductive Action (K : Type*)
  /-- The frames of a tick are evaluated. -/
  | evaluate (timing : Timing K) (m : Cmath K)
  /-- A scale was written, and has been read back. -/
  | noteWrite (action : ResolutionAction) (writtenScale : K) (classification : Classification K)

/-- The input of an evaluation while a scene is running. -/
def Session.input (s : Session K) (baseline : K) (timing : Timing K) : Input K where
  timing := timing
  baselineScale := baseline
  currentScale := s.scale
  sceneRunning := true
  externalOverride := false

variable (settings : Settings K)

def Session.step (baseline : K) (s : Session K) : Action K → Option (Session K)
  | .evaluate timing m =>
    some { s with controller := (s.controller.evaluate m (s.input baseline timing) settings).1 }
  | .noteWrite action writtenScale classification =>
    some { controller := s.controller.noteWrite action writtenScale classification settings
           scale := writtenScale }

/-- The overlay from when the baseline was captured, with the scale `scale`. -/
def machine (baseline scale : K) : Machine (Session K) (Action K) where
  init := {⟨.reset, scale⟩}
  step := Session.step settings baseline

/-- A scale that is noted is in the band, and if it is noted for a raise then it is above the
    scale that was evaluated last. -/
def Within (baseline : K) (s : Session K) : Action K → Prop
  | .evaluate _ _ => True
  | .noteWrite action writtenScale _ =>
    floorFor settings baseline ≤ writtenScale ∧ writtenScale ≤ ceilingScale settings baseline ∧
      (action = .raise → 0 < s.controller.lastEvaluatedScale ∧
        s.controller.lastEvaluatedScale < writtenScale)

instance (settings : Settings K) (baseline : K) : DecidableRel (Within settings baseline) :=
  fun s a => by cases a <;> unfold Within <;> infer_instance

/-! ## Decisions -/

@[simp]
theorem Output.withhold_action {K : Type*} (out : Output K) (gate : Gate) (cause : Cause)
    (value limit : K) : (out.withhold gate cause value limit).action = out.action := by
  unfold Output.withhold
  split_ifs <;> rfl

section

variable {K : Type*} [LinearOrder K] {x : Scales K} {out : Output K}
  {r : Except (Output K) (Output K)}

theorem InBand.of_none {floor ceiling current : K} (h : out.action = .none) :
    InBand floor ceiling current out := by
  constructor
  · intro hlower
    cases h.symm.trans hlower
  · intro hraise
    cases h.symm.trans hraise

/-- A part of the decision goes on without an action, or returns with one in the band. -/
def Sound (x : Scales K) : Except (Output K) (Output K) → Prop
  | .ok out => out.action = .none
  | .error out => InBand x.floor x.ceiling x.current out

theorem Sound.ite {p : Prop} [Decidable p] {r' : Except (Output K) (Output K)} (hr : p → Sound x r)
    (hr' : ¬ p → Sound x r') : Sound x (if p then r else r') :=
  iteInduction hr hr'

theorem Sound.withhold (h : out.action = .none) (gate : Gate) (cause : Cause) (value limit : K) :
    Sound x (.ok (out.withhold gate cause value limit)) := by
  rw [Sound, Output.withhold_action, h]

/-- An evaluation may end where it would go on. -/
theorem Sound.error (hr : Sound x r) : Sound x (.error (result r)) := by
  cases r with
  | error out => exact hr
  | ok out => exact InBand.of_none hr

theorem Sound.bind {stage : Stage K} (hr : Sound x r)
    (hstage : ∀ out, out.action = .none → Sound x (stage out)) : Sound x (r >>= stage) := by
  cases r with
  | error out => exact hr
  | ok out => exact hstage out hr

theorem Sound.result (hr : Sound x r) : InBand x.floor x.ceiling x.current (result r) := by
  cases r with
  | error out => exact hr
  | ok out => exact .of_none hr

end

theorem raiseTarget_le (c : Controller K) (m : Cmath K) (settings : Settings K) (x : Scales K)
    (cls : Classification K) (cap : K) : (raiseTarget c m settings x cls cap).target ≤ cap := by
  have hcap := min_le_left cap (x.current * (1 + stepCap settings))
  unfold raiseTarget
  dsimp only
  split_ifs with hburn hfit hfit
  · exact hfit.2.le.trans ((of_decide_eq_true hburn).2.2.trans hcap)
  · exact (of_decide_eq_true hburn).2.2.trans hcap
  · exact hfit.2.le.trans hcap
  · exact hcap

section

variable [IsStrictOrderedRing K] {c : Controller K} {m : Cmath K} {settings} {x : Scales K}
  {out : Output K}

theorem lowerStage_sound (h : out.action = .none) : Sound x (lowerStage c m settings x out) := by
  refine .ite (fun _ => .ite (fun _ => .withhold h ..) fun _ =>
    .ite (fun _ => .withhold h ..) fun hfloor => ?_) fun _ => h
  refine ⟨fun _ => ⟨le_max_left .., max_lt ?_ ?_⟩, nofun⟩
  · linarith
  · exact (min_le_right _ _).trans_lt (by linarith)

theorem raiseToBaseline_sound (hx : x.baseline ≤ x.ceiling) (h : out.action = .none) (gate : Gate)
    (reason : String) : Sound x (raiseToBaseline c m settings x gate reason out) := by
  have htarget := raiseTarget_le c m settings x out.classification x.baseline
  have hpredict (p : K) : (out.predict p).action = .none := h
  refine .ite (fun hstep => ?_) fun _ => .ite (fun _ => .withhold (hpredict _) ..) fun _ =>
    .ite (fun _ => .withhold (hpredict _) ..) fun _ => h
  exact ⟨nofun, fun _ => ⟨by linarith, htarget.trans hx⟩⟩

theorem cpuReleaseStage_sound (hx : x.baseline ≤ x.ceiling) (h : out.action = .none) :
    Sound x (cpuReleaseStage c m settings x out) :=
  .ite (fun _ => .ite (fun _ => .withhold h ..) fun _ => raiseToBaseline_sound hx h _ _) fun _ => h

theorem recoverStage_sound (hx : x.baseline ≤ x.ceiling) (h : out.action = .none) :
    Sound x (recoverStage c m settings x out) := by
  refine .ite (fun _ => ?_) fun _ => h
  iterate 3 refine .ite (fun _ => (Sound.withhold h ..).error) fun _ => ?_
  exact (raiseToBaseline_sound hx h _ _).error

theorem supersampleStage_sound (h : out.action = .none) :
    Sound x (supersampleStage c m settings x out) := by
  refine .ite (fun _ => ?_) fun _ => h
  -- The gates before the prediction.
  iterate 7 refine .ite (fun _ => .withhold h ..) fun _ => ?_
  have hpredict (p : K) : (out.predict p).action = .none := h
  refine .ite (fun _ => .withhold (hpredict _) ..) fun _ => .ite (fun hstep => ?_) fun _ => h
  exact ⟨nofun, fun _ => ⟨by linarith, min_le_left ..⟩⟩

/-- Every decision that starts from the current scale is in the band. -/
theorem decideScale_inBand (hx : x.baseline ≤ x.ceiling) (h : out.action = .none) :
    InBand x.floor x.ceiling x.current (decideScale c m settings x out) := by
  unfold decideScale
  split_ifs
  · exact .of_none h
  · have hlower : Sound x (lowerStage c m settings x out) := lowerStage_sound h
    refine Sound.result (.bind (.bind (.bind hlower fun out h => ?_) fun out h => ?_)
      fun out h => ?_)
    · exact cpuReleaseStage_sound hx h
    · exact recoverStage_sound hx h
    · exact supersampleStage_sound h

end

/-! ## Evaluations -/

section

variable (c : Controller K) (m : Cmath K) (settings : Settings K) (input : Input K)

/-- A sample changes neither the pending write nor the scale that was evaluated. -/
theorem addSample_memory (timing : Timing K) :
    (c.addSample timing settings).pendingWrite = c.pendingWrite ∧
      (c.addSample timing settings).lastEvaluatedScale = c.lastEvaluatedScale := by
  unfold Controller.addSample
  split
  · exact ⟨rfl, rfl⟩
  · exact ⟨rfl, rfl⟩

theorem observe_memory :
    (c.observe input settings).1.pendingWrite = c.pendingWrite ∧
      (c.observe input settings).1.lastEvaluatedScale = input.currentScale :=
  addSample_memory { c with lastEvaluatedScale := input.currentScale } settings input.timing

/-- The check of a write takes back a raise, or gives up, or leaves the action as it is. -/
structure Checked (pending : PendingWrite K) (out : Output K) (r : Controller K × Output K) :
    Prop where
  pendingWrite : r.1.pendingWrite = none
  lastEvaluatedScale : r.1.lastEvaluatedScale = c.lastEvaluatedScale
  action : r.2.action = out.action ∨ r.2.action = .noEffect ∨
    pending.action = .raise ∧ r.2.action = .lower ∧
      r.2.targetScale = min pending.fromScale pending.toScale

theorem runEffectCheck_checked (pending : PendingWrite K) (baselineScale : K) (out : Output K) :
    Checked c pending out (c.runEffectCheck m pending baselineScale settings out) := by
  refine iteInduction (motive := Checked c pending out) (fun hregressed => ?regressed) fun _ =>
    iteInduction (motive := Checked c pending out) (fun _ => ⟨rfl, rfl, .inl rfl⟩) fun _ =>
    iteInduction (motive := Checked c pending out) (fun _ =>
      iteInduction (motive := Checked c pending out) (fun _ => ⟨rfl, rfl, ?noEffect⟩)
        fun _ => ⟨rfl, rfl, .inl rfl⟩)
      fun _ => ⟨rfl, rfl, .inl rfl⟩
  case regressed => exact ⟨rfl, rfl, .inr (.inr ⟨hregressed.1, rfl, rfl⟩)⟩
  case noEffect =>
    dsimp only
    split
    · exact .inr (.inl rfl)
    · exact .inl rfl

/-- What an evaluation can do while a scene is running: nothing, take back a raise, or
    decide from the current scale. -/
structure Evaluated (r : Controller K × Output K) : Prop where
  pendingWrite : r.1.pendingWrite = none ∨ r.1.pendingWrite = c.pendingWrite
  lastEvaluatedScale : r.1.lastEvaluatedScale = input.currentScale
  action : (r.2.action ≠ .lower ∧ r.2.action ≠ .raise) ∨
    (∃ p, c.pendingWrite = some p ∧ p.action = .raise ∧ r.2.action = .lower ∧
      r.2.targetScale = min p.fromScale p.toScale) ∨
    ∃ c' cls out, out.action = .none ∧
      r.2 = decideScale c' m settings (scales input settings cls) out

theorem evaluate_evaluated (hrunning : input.sceneRunning = true)
    (hoverride : input.externalOverride = false) :
    Evaluated c m settings input (c.evaluate m input settings) := by
  obtain ⟨hpending, hevaluated⟩ := observe_memory c settings input
  unfold Controller.evaluate
  simp only [hrunning, hoverride, Bool.not_true, Bool.false_eq_true, if_false]
  generalize c.observe input settings = o at hpending hevaluated
  refine iteInduction (motive := Evaluated c m settings input) (fun _ => ?settling) fun _ => ?_
  case settling => exact ⟨.inr hpending, hevaluated, .inl ⟨nofun, nofun⟩⟩
  -- Without a pending write the scale is decided at once.
  cases hp : o.1.pendingWrite with
  | none =>
    simp only [ne_eq, not_true_eq_false, if_false]
    exact ⟨.inl hp, hevaluated, .inr (.inr ⟨_, _, _, rfl, rfl⟩)⟩
  | some p =>
    dsimp only
    split
    case isFalse =>
      simp only [ne_eq, not_true_eq_false, if_false]
      exact ⟨.inr hpending, hevaluated, .inr (.inr ⟨_, _, _, rfl, rfl⟩)⟩
    case isTrue =>
      have hcheck := runEffectCheck_checked o.1 m settings p input.baselineScale
        { action := .none, targetScale := input.currentScale, reason := "",
          classification := o.2, effectCheck := none, withheld := none }
      generalize o.1.runEffectCheck m p input.baselineScale settings _ = r at hcheck ⊢
      refine iteInduction (motive := Evaluated c m settings input) (fun hacts => ?acts)
        fun hopen => ?opens
      case opens =>
        exact ⟨.inl hcheck.pendingWrite, hcheck.lastEvaluatedScale.trans hevaluated,
          .inr (.inr ⟨_, _, _, not_not.1 hopen, rfl⟩)⟩
      -- The effect check decides: no effect, or the raise is taken back.
      case acts =>
        refine ⟨.inl hcheck.pendingWrite, hcheck.lastEvaluatedScale.trans hevaluated, ?_⟩
        rcases hcheck.action with hnone | hnoEffect | ⟨hraise, hlower, htarget⟩
        · exact absurd hnone hacts
        · exact .inl (by simp [hnoEffect])
        · exact .inr (.inl ⟨p, hpending ▸ hp, hraise, hlower, htarget⟩)

end

/-! ## Runs -/

section

variable {settings} {baseline scale : K}

theorem tenth_le_floorFor : 0.1 ≤ floorFor settings baseline := le_max_left ..

theorem le_ceilingScale : baseline ≤ ceilingScale settings baseline :=
  (le_max_right _ _).trans (le_max_left _ _)

/-- The scales of a decision are those of the band, if the baseline is a scale, and the
    current scale is in the band. -/
theorem scales_eq (hbaseline : 0.1 ≤ baseline) {input : Input K}
    (hinput : input.baselineScale = baseline)
    (hfloor : floorFor settings baseline ≤ input.currentScale)
    (hceiling : input.currentScale ≤ ceilingScale settings baseline) (cls : Classification K) :
    scales input settings cls =
      { baseline := baseline, ceiling := ceilingScale settings baseline
        current := input.currentScale, floor := floorFor settings baseline
        budget := max 1 cls.frameBudgetMs } := by
  have hmax : max 0.1 baseline = baseline := max_eq_right hbaseline
  have hcurrent : clamp input.currentScale 0.1 (max 2.0 (ceilingScale settings baseline)) =
      input.currentScale := by
    rw [clamp, if_neg (not_lt.2 (tenth_le_floorFor.trans hfloor)),
      if_neg (not_lt.2 (hceiling.trans (le_max_right _ _)))]
  simp only [scales, hinput, hmax, hcurrent]

/-- What holds in every run: the scale is in the band; a raise that may be taken back
    started in the band and below the scale; and a scale that was evaluated is not below the
    band. -/
structure Inv (settings : Settings K) (baseline : K) (s : Session K) : Prop where
  floor_le : floorFor settings baseline ≤ s.scale
  le_ceiling : s.scale ≤ ceilingScale settings baseline
  pending : ∀ p, s.controller.pendingWrite = some p → p.action = .raise →
    floorFor settings baseline ≤ p.fromScale ∧ p.fromScale < p.toScale ∧ p.toScale = s.scale
  evaluated : 0 < s.controller.lastEvaluatedScale →
    floorFor settings baseline ≤ s.controller.lastEvaluatedScale

variable {s : Session K}

theorem Inv.evaluate (h : Inv settings baseline s) (timing : Timing K) (m : Cmath K) :
    Inv settings baseline
      { s with controller := (s.controller.evaluate m (s.input baseline timing) settings).1 } := by
  have hevaluated := evaluate_evaluated s.controller m settings (s.input baseline timing) rfl rfl
  refine ⟨h.floor_le, h.le_ceiling, fun p hp => ?_, fun _ => ?_⟩
  · rcases hevaluated.pendingWrite with hnone | hsame
    · cases hnone.symm.trans hp
    · exact h.pending p (hsame.symm.trans hp)
  · exact h.floor_le.trans_eq hevaluated.lastEvaluatedScale.symm

theorem Inv.noteWrite (h : Inv settings baseline s) {action : ResolutionAction} {writtenScale : K}
    {classification : Classification K}
    (hw : Within settings baseline s (.noteWrite action writtenScale classification)) :
    Inv settings baseline
      { controller := s.controller.noteWrite action writtenScale classification settings
        scale := writtenScale } := by
  obtain ⟨hfloor, hceiling, hraise⟩ := hw
  refine ⟨hfloor, hceiling, fun p hp hp' => ?_, h.evaluated⟩
  obtain ⟨-, hp⟩ := Option.ite_none_right_eq_some.1 hp
  obtain rfl := Option.some.inj hp
  -- The raise is remembered with the scale that was evaluated, and not with the written one.
  obtain ⟨hpos, hlt⟩ := hraise hp'
  rw [if_pos hpos]
  exact ⟨h.evaluated hpos, hlt, rfl⟩

theorem inv_of_run (hfloor : floorFor settings baseline ≤ scale)
    (hceiling : scale ≤ ceilingScale settings baseline) {as : List (Action K)}
    (hrun : (machine settings baseline scale).RunIf (Within settings baseline) as s) :
    Inv settings baseline s := by
  refine hrun.invariant ?_ ?_
  · rintro _ rfl
    exact ⟨hfloor, hceiling, nofun, fun h => absurd h (lt_irrefl 0)⟩
  · intro s a s' h ha hs
    cases a with
    | evaluate timing m => exact Option.some.inj hs ▸ h.evaluate timing m
    | noteWrite action writtenScale classification => exact Option.some.inj hs ▸ h.noteWrite ha

variable [IsStrictOrderedRing K]

/-- With the invariant, an evaluation is in the band. -/
theorem Inv.evaluate_band (hbaseline : 0.1 ≤ baseline) (h : Inv settings baseline s)
    (timing : Timing K) (m : Cmath K) :
    InBand (floorFor settings baseline) (ceilingScale settings baseline) s.scale
      (s.controller.evaluate m (s.input baseline timing) settings).2 := by
  have hevaluated := evaluate_evaluated s.controller m settings (s.input baseline timing) rfl rfl
  rcases hevaluated.action with ⟨hlower, hraise⟩ | ⟨p, hp, hraise, hlower, htarget⟩ |
    ⟨c, cls, out, hnone, hdecide⟩
  · exact ⟨fun h => absurd h hlower, fun h => absurd h hraise⟩
  · -- The raise that is taken back went up to the current scale.
    obtain ⟨hfrom, hlt, hto⟩ := h.pending p hp hraise
    rw [min_eq_left hlt.le] at htarget
    refine ⟨fun _ => ?_, fun h => by cases hlower.symm.trans h⟩
    rw [htarget, ← hto]
    exact ⟨hfrom, hlt⟩
  · rw [hdecide, scales_eq hbaseline rfl h.floor_le h.le_ceiling]
    exact decideScale_inBand (x := ⟨_, _, _, _, _⟩) le_ceilingScale hnone

/-- In every run that starts in the band and in which what is noted stays `Within` it, a
    decision to lower the scale goes down, to the floor at most, and a decision to raise it
    goes up, to the ceiling at most. -/
theorem evaluate_inBand (settings : Settings K) (baseline scale : K) (hbaseline : 0.1 ≤ baseline)
    (hfloor : floorFor settings baseline ≤ scale)
    (hceiling : scale ≤ ceilingScale settings baseline) {as : List (Action K)} {s : Session K}
    (hrun : (machine settings baseline scale).RunIf (Within settings baseline) as s)
    (timing : Timing K) (m : Cmath K) :
    InBand (floorFor settings baseline) (ceilingScale settings baseline) s.scale
      (s.controller.evaluate m (s.input baseline timing) settings).2 :=
  (inv_of_run hfloor hceiling hrun).evaluate_band hbaseline timing m

end

/-! ## A raise that is taken back -/

/-- A tick of 90 frames of the same time, of which some were reprojected by the GPU. -/
def exampleTiming (appGpuMs : ℚ) (framesWithGpuReproj : ℤ) : Timing ℚ where
  frameBudgetMs := 11
  framesConsidered := 90
  appGpuP50Ms := appGpuMs
  appGpuP95Ms := appGpuMs
  appGpuMaxMs := appGpuMs
  clientFrameIntervalMs := 11
  compositorIdleCpuMs := 2
  framesWithGpuReproj := framesWithGpuReproj
  framesWithCpuReproj := 0
  framesWithMotion := 0
  framesThrottled := 0
  framesWithDrops := 0
  framesMispresented := 0
  framesMultiPresented := 0
  framesOverBudget := 0
  valid := true

/-- The cost of a scale is linear. -/
def exampleCmath : Cmath ℚ := ⟨fun x _ => x, fun x => x - 1⟩

/-- What a clean tick is classified as. -/
def exampleClassification : Classification ℚ :=
  (Controller.reset.evaluate exampleCmath ((⟨.reset, 1⟩ : Session ℚ).input 1 (exampleTiming 5 0))
    .defaults).2.classification

/-- Eight clean ticks, after which a raise is noted with the scale that was read back. Two
    ticks later frames were harmed. -/
def exampleActions (writtenScale : ℚ) : List (Action ℚ) :=
  List.replicate 8 (Action.evaluate (exampleTiming 5 0) exampleCmath) ++
    [Action.noteWrite .raise writtenScale exampleClassification] ++
    List.replicate 2 (Action.evaluate (exampleTiming 12 45) exampleCmath)

/-- The raise is taken back. -/
theorem raise_regressed_inBand :
    ∃ s, (machine Settings.defaults (1 : ℚ) 1).RunIf (Within .defaults 1) (exampleActions 1.05) s ∧
      s.scale = 1.05 ∧
      (s.controller.evaluate exampleCmath (s.input 1 (exampleTiming 12 45)) .defaults).2.action =
        .lower ∧
      InBand (floorFor Settings.defaults (1 : ℚ)) (ceilingScale Settings.defaults 1) s.scale
        (s.controller.evaluate exampleCmath (s.input 1 (exampleTiming 12 45)) .defaults).2 := by
  refine Machine.exists_runIf_of _ (P := fun s => s.scale = 1.05 ∧ (s.controller.evaluate
    exampleCmath (s.input 1 (exampleTiming 12 45)) .defaults).2.action = .lower)
    ⟨.reset, 1⟩ rfl (by decide +kernel) fun s hrun hs => ⟨hs.1, hs.2, ?_⟩
  exact evaluate_inBand .defaults 1 1 (by decide +kernel) (by decide +kernel) (by decide +kernel)
    hrun _ _

/-- SteamVR has kept the scale, so the raise is noted with the scale it started from. When it
    is taken back, the decision to lower the scale has the current scale as its target. -/
theorem raise_not_lowered :
    ∃ s, (machine Settings.defaults (1 : ℚ) 1).Run (exampleActions 1) s ∧ s.scale = 1 ∧
      s.scale ∈ Set.Icc (floorFor Settings.defaults (1 : ℚ)) (ceilingScale Settings.defaults 1) ∧
      (s.controller.evaluate exampleCmath (s.input 1 (exampleTiming 12 45)) .defaults).2.action =
        .lower ∧
      (s.controller.evaluate exampleCmath (s.input 1 (exampleTiming 12 45))
        .defaults).2.targetScale =
        s.scale := by
  refine Machine.exists_runIf_of _ (P := fun s => s.scale = 1 ∧
    (s.controller.evaluate exampleCmath (s.input 1 (exampleTiming 12 45)) .defaults).2.action =
      .lower ∧
    (s.controller.evaluate exampleCmath (s.input 1 (exampleTiming 12 45)) .defaults).2.targetScale =
      1) ⟨.reset, 1⟩ rfl (by decide +kernel) fun s _ hs =>
        ⟨hs.1, ?_, hs.2.1, hs.2.2.trans hs.1.symm⟩
  rw [hs.1]
  decide +kernel

end WKOpenVR.DynamicRes
