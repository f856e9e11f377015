import WKOpenVR.DynamicRes.Controller
import WKOpenVR.Machine

/-!
# Scenes that are not controlled

`DynamicResolutionPlugin` stops to control a scene whose scale has no effect, or is changed by
others. It notices another scene by the process that its restore record is of, and a stop drops the
record: a scene that follows without a tick in between that finds none is not controlled either
(`next_scene_stopped`). Where there is such a tick, only the scene itself is (`stopped_for_scene`).

Scales are left out: what the controller asks for, and whether SteamVR lets itself be read and
written, are part of a tick.
-/

namespace WKOpenVR.DynamicRes.SceneStop

structure Plugin where
  restorePending : Bool
  /-- The process of the restore record. -/
  sceneProcessId : UInt32
  disabledForScene : Bool := false
  /-- The process of the scene that was stopped last. -/
  stoppedFor : Option UInt32 := none
  deriving DecidableEq

/-- What a tick finds. -/
structure Tick where
  /-- The last tick is a second ago. -/
  due : Bool := true
  moduleEnabled : Bool := true
  sceneRunning : Bool := true
  processId : UInt32 := 0
  /-- The baseline can be written, at first and for an action. -/
  restores : Bool := true
  restoresForAction : Bool := true
  captures : Bool := true
  collectsTiming : Bool := true
  action : ResolutionAction := .none

/-- The process of the scene. -/
def Tick.scene (t : Tick) : Option UInt32 :=
  if t.sceneRunning && t.processId != 0 then some t.processId else none

namespace Plugin

variable (s : Plugin) (t : Tick) (processId : UInt32)

/-- `RestoreBaseline`, and whether it succeeds. -/
def restoreBaseline (ok : Bool) : Bool × Plugin :=
  if !s.restorePending then (true, s)
  else if ok then
    (true, { s with restorePending := false, sceneProcessId := 0, disabledForScene := false })
  else (false, s)

def stop : Plugin := { s with disabledForScene := true, stoppedFor := some processId }

def act : Plugin :=
  match t.action with
  | .noEffect =>
    let (ok, s) := s.restoreBaseline t.restoresForAction
    if ok then s.stop processId else s
  -- `ClearExternalOverride`.
  | .externalOverride => { s with restorePending := false, sceneProcessId := 0 }.stop processId
  | .restore => (s.restoreBaseline t.restoresForAction).2
  | .lower | .raise | .none => s

/-- `Tick`, after the change of the scene. -/
def control : Plugin :=
  if s.disabledForScene then s
  else if s.restorePending then if t.collectsTiming then s.act t processId else s
  else if t.captures then
    -- `CaptureBaseline`.
    let s := { s with restorePending := true, sceneProcessId := processId }
    if t.collectsTiming then s.act t processId else s
  else s

def tick : Plugin :=
  if !t.due then s
  else if !t.moduleEnabled then (s.restoreBaseline t.restores).2
  else
    match t.scene with
    | none => { (s.restoreBaseline t.restores).2 with disabledForScene := false }
    | some processId =>
      if s.restorePending && s.sceneProcessId != 0 && s.sceneProcessId != processId then
        { (s.restoreBaseline t.restores).2 with disabledForScene := false }.control t processId
      else s.control t processId

end Plugin

/-- The plugin, and the scene that was found by the last tick that looked for one. At the start,
    the record may be one of an earlier run. -/
def machine : Machine (Plugin × Option UInt32) Tick where
  init := {s | s.1.disabledForScene = false}
  step s t := some (s.1.tick t, if t.due && t.moduleEnabled then t.scene else s.2)

/-- Between two scenes, a tick finds none. -/
def ScenesEnd (s : Plugin × Option UInt32) (t : Tick) : Prop :=
  (t.due && t.moduleEnabled) = true → t.scene = none ∨ s.2 = none ∨ s.2 = t.scene

instance : DecidableRel ScenesEnd := fun _ _ => inferInstanceAs (Decidable (_ → _))

/-- Only the scene that was found last may be stopped. -/
def Own (s : Plugin) (scene : Option UInt32) : Prop :=
  s.disabledForScene = true → scene ≠ none ∧ s.stoppedFor = scene

variable {s : Plugin} {t : Tick} {scene : Option UInt32} {processId : UInt32}

theorem Own.restoreBaseline (h : Own s scene) (ok : Bool) : Own (s.restoreBaseline ok).2 scene := by
  rw [Plugin.restoreBaseline]
  split_ifs
  · exact h
  · exact nofun
  · exact h

theorem Own.act (h : Own s (some processId)) : Own (s.act t processId) (some processId) := by
  rw [Plugin.act]
  split
  · dsimp only
    split_ifs
    · exact fun _ => ⟨nofun, rfl⟩
    · exact h.restoreBaseline _
  · exact fun _ => ⟨nofun, rfl⟩
  · exact h.restoreBaseline _
  all_goals exact h

theorem Own.control (h : Own s (some processId)) :
    Own (s.control t processId) (some processId) := by
  rw [Plugin.control]
  split_ifs
  · exact h
  · exact h.act
  · exact h
  · exact Own.act h
  · exact h
  · exact h

/-- A tick that finds a scene, which may be stopped as far as it is the one found before. -/
theorem Own.tick (h : Own s scene) (hend : ScenesEnd (s, scene) t) :
    Own (s.tick t) (if t.due && t.moduleEnabled then t.scene else scene) := by
  rw [Plugin.tick]
  by_cases hdue : t.due = true
  · by_cases henabled : t.moduleEnabled = true
    · simp only [hdue, henabled, Bool.not_true, Bool.false_eq_true, ↓reduceIte, Bool.and_self]
      cases hscene : t.scene with
      | none => exact nofun
      | some processId =>
        dsimp only
        split_ifs
        · exact Own.control nofun
        · refine Own.control fun hdisabled => ?_
          obtain ⟨hne, hstopped⟩ := h hdisabled
          rcases hend (by rw [hdue, henabled]; rfl) with hnone | hnone | hsame
          · exact absurd (hscene.symm.trans hnone) nofun
          · exact absurd hnone hne
          · exact ⟨nofun, hstopped.trans (hsame.trans hscene)⟩
    · simpa [hdue, henabled] using h.restoreBaseline _
  · simpa [hdue] using h

/-- Where two scenes have a tick without one between them, only the scene that was found last may
    be stopped. -/
theorem stopped_for_scene {ts : List Tick} {s : Plugin × Option UInt32}
    (h : machine.RunIf ScenesEnd ts s) (hs : s.1.disabledForScene = true) :
    s.2 ≠ none ∧ s.1.stoppedFor = s.2 := by
  refine h.invariant (I := fun s => Own s.1 s.2) ?_ ?_ hs
  · intro s hs hdisabled
    rw [hs] at hdisabled
    exact absurd hdisabled Bool.false_ne_true
  · rintro s t _ hown hend ⟨⟩
    exact hown.tick hend

/-- The scene of process 7 is stopped, and so is the scene of process 8 that follows it. -/
theorem stopped_for_scene_again :
    ∃ ts s, machine.RunIf ScenesEnd ts s ∧ s.1.disabledForScene = true ∧
      s.2 ≠ none ∧ s.1.stoppedFor = s.2 := by
  refine ⟨[{ processId := 7, action := .externalOverride }, { sceneRunning := false },
    { processId := 8, action := .noEffect }], machine.exists_runIf_of
    (P := (·.1.disabledForScene = true)) (⟨false, 0, false, none⟩, none) rfl (by decide) ?_⟩
  exact fun s hrun hs => ⟨hs, stopped_for_scene hrun hs⟩

/-- The scene of process 8 follows that of process 7, for which it is stopped. -/
theorem next_scene_stopped :
    ∃ ts s, machine.Run ts s ∧ s.1.disabledForScene = true ∧ s.1.stoppedFor = some 7 ∧
      s.2 = some 8 :=
  ⟨[{ processId := 7 }, { processId := 7, action := .externalOverride }, { processId := 8 }],
    machine.exists_runIf (⟨false, 0, false, none⟩, none) rfl (by decide)⟩

end WKOpenVR.DynamicRes.SceneStop
