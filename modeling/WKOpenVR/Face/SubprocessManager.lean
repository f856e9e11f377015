import WKOpenVR.Machine
import WKOpenVR.Text

/-!
# The runs of a face tracking module

`SubprocessManager` runs the active module in a process of its own. In a loop (`check`), it
spawns the process, waits for its handshake and for two replies, and then pulls frames from it
until the process has exited or another module is active. At the end of each run it tears the
process down and updates its circuit breaker (`finish`): it counts the runs of a module in a
row that were shorter than `fastExitThreshold`, and spawns no process for a module with
`crashHaltThreshold` such runs.

Most steps change neither the breaker nor the module that is run, nor do they make a module
active (`quiet_of_step`).

Time is in ticks of 100 nanoseconds, as in `DateTime`.
-/

namespace WKOpenVR.Face

open Text

/-! ## Modules -/

structure DiscoveredModule where
  uuid : List UInt8
  version : List UInt8 := []
  moduleDllPath : List UInt8 := []
  moduleLastWriteUtc : ℕ := 0
  moduleFileSize : ℕ := 0
  /-- Which object it is, as told by `ReferenceEquals`. -/
  object : ℕ
  deriving DecidableEq

def sameModuleIdentity (a b : DiscoveredModule) : Bool :=
  a.uuid == b.uuid && a.moduleDllPath.map toLower == b.moduleDllPath.map toLower &&
    a.version == b.version && a.moduleLastWriteUtc == b.moduleLastWriteUtc &&
    a.moduleFileSize == b.moduleFileSize

def seconds (n : ℕ) : ℕ := n * 10000000

def crashHaltThreshold : ℕ := 3

def fastExitThreshold : ℕ := seconds 5

/-! ## Stages of a run -/

inductive ProcessState
  | alive
  /-- Exited at a time, on its own or after it was told to by `EventTeardown`. -/
  | exited (time : ℕ) (told : Bool)
  deriving DecidableEq

/-- The process that is run, as `ActiveSubprocess` has it. -/
structure ModuleRun where
  target : DiscoveredModule
  spawnTime : ℕ
  process : ProcessState := .alive
  /-- The flag `Exited`, which an event sets after the process has exited. -/
  marked : Bool := false
  deriving DecidableEq

variable (r : ModuleRun)

def ModuleRun.hasExited : Bool := decide (r.process ≠ .alive)

/-- The process exited on its own within 5 seconds of being spawned. -/
def ModuleRun.exitedEarly : Bool :=
  match r.process with
  | .exited time false => decide (time ≤ r.spawnTime + seconds 5)
  | _ => false

/-- Where the loop is. A stage that waits says since when. -/
inductive Stage
  /-- At the head of the loop. -/
  | head
  /-- Past the check of the breaker, before `Process.Start`. -/
  | starting (target : DiscoveredModule)
  | handshake (r : ModuleRun) (since : ℕ)
  | supported (r : ModuleRun) (since : ℕ)
  | init (r : ModuleRun) (since : ℕ)
  | pulling (r : ModuleRun)
  /-- At the start of the teardown. -/
  | teardown (r : ModuleRun)
  | teardownReply (r : ModuleRun) (since : ℕ)
  | teardownExit (r : ModuleRun) (since : ℕ)
  | killing (r : ModuleRun) (since : ℕ)
  /-- After the teardown, before the breaker is updated. -/
  | ended (r : ModuleRun)
  deriving DecidableEq

namespace Stage

def target? : Stage → Option DiscoveredModule
  | head => none
  | starting target => some target
  | handshake r _ | supported r _ | init r _ | pulling r | teardown r | teardownReply r _
  | teardownExit r _ | killing r _ | ended r => some r.target

/-- The run that is to be counted. -/
def ended? : Stage → Option ModuleRun
  | ended r => some r
  | _ => none

/-- When a wait ends at the latest. -/
def deadline : Stage → Option ℕ
  | handshake _ since | supported _ since | init _ since => some (since + seconds 30)
  | teardownReply _ since => some (since + seconds 5)
  | teardownExit _ since => some (since + seconds 3)
  | killing _ since => some (since + seconds 4)
  | _ => none

/-- The stage with another state of the process, which may depend on whether it was told to
exit. -/
def mapRun (f : Bool → ModuleRun → ModuleRun) : Stage → Stage
  | handshake r since => handshake (f false r) since
  | supported r since => supported (f false r) since
  | init r since => init (f false r) since
  | pulling r => pulling (f false r)
  | teardown r => teardown (f false r)
  | teardownReply r since => teardownReply (f true r) since
  | teardownExit r since => teardownExit (f true r) since
  | killing r since => killing (f true r) since
  | ended r => ended (f true r)
  | st => st

/-- What the manager does after it waited for the reply to the teardown. -/
def afterTeardownReply (now : ℕ) : Stage :=
  if r.hasExited then ended r else teardownExit r now

end Stage

/-! ## The manager -/

structure SubprocessManager where
  now : ℕ := 0
  active : Option DiscoveredModule := none
  breakerUuid : Option (List UInt8) := none
  breakerCount : ℕ := 0
  stage : Stage := .head
  /-- The loop is told to end (`ct.IsCancellationRequested`). -/
  cancelled : Bool := false
  deriving DecidableEq

inductive ManagerEvent
  | wait (ticks : ℕ)
  /-- `SelectActive`, with the modules that the scan of the disk finds. -/
  | selectActive (uuid : List UInt8) (loaded : List DiscoveredModule)
  | cancel
  /-- The head of the loop. -/
  | check
  /-- `Process.Start`, which may fail. -/
  | spawn (started : Bool)
  | processExit
  /-- The event `Exited` of the process. -/
  | markExited
  /-- The packet that is waited for. -/
  | reply
  | timeout
  /-- The end of the pull loop. -/
  | leave
  /-- The end of the pull loop because the module is not on the disk any more. -/
  | uninstalled
  /-- An exception, or a wait that is cancelled. -/
  | abort
  | beginTeardown
  /-- The process has exited while this is waited for, or was killed. -/
  | gone
  | finish

namespace SubprocessManager

variable (s : SubprocessManager) (uuid : List UInt8)

/-- The module has had its runs. -/
def Tripped : Prop :=
  s.breakerUuid = some uuid ∧ crashHaltThreshold ≤ s.breakerCount

instance (s : SubprocessManager) (uuid : List UInt8) : Decidable (s.Tripped uuid) :=
  inferInstanceAs (Decidable (_ ∧ _))

def resetBreaker : SubprocessManager :=
  { s with breakerUuid := none, breakerCount := 0 }

/-- `SelectActive`, and whether it resets the breaker. -/
def selectActive (loaded : List DiscoveredModule) : SubprocessManager × Bool :=
  if uuid.all isSpace then ({ s with active := none }.resetBreaker, true)
  else
    match loaded.find? fun m => m.uuid == uuid with
    | none =>
      -- The module is not installed; it stops if it is the active one.
      (if s.active.any fun a => a.uuid == uuid then { s with active := none } else s, false)
    | some m =>
      if s.active.any fun a => sameModuleIdentity a m then (s, false)
      else if s.breakerUuid = some uuid then ({ s with active := some m }.resetBreaker, true)
      else ({ s with active := some m }, false)

/-- The update of the breaker at the end of a run. -/
def updateBreaker (r : ModuleRun) : SubprocessManager :=
  if s.now - r.spawnTime < fastExitThreshold then
    if s.breakerUuid = some r.target.uuid then { s with breakerCount := s.breakerCount + 1 }
    else { s with breakerUuid := some r.target.uuid, breakerCount := 1 }
  else if s.breakerUuid = some r.target.uuid then s.resetBreaker
  else s

/-- The object is the active module (`ReferenceEquals`). -/
def isActive (m : DiscoveredModule) : Bool :=
  s.active.any fun a => a.object == m.object

/-- The stage after the packet that is waited for. -/
def stageAfterReply : Option Stage :=
  match s.stage with
  | .handshake r _ => some (.supported r s.now)
  | .supported r _ => some (.init r s.now)
  | .init r _ => some (.pulling r)
  | .teardownReply r _ => some (.afterTeardownReply r s.now)
  | _ => none

/-- The stage after a wait without the packet. -/
def stageAfterTimeout : Option Stage :=
  match s.stage with
  | .handshake r _ | .supported r _ | .init r _ => some (.teardown r)
  | .teardownReply r _ => some (.afterTeardownReply r s.now)
  | .teardownExit r _ => some (if r.hasExited then .ended r else .killing r s.now)
  | _ => none

def step : ManagerEvent → Option SubprocessManager
  | .wait ticks =>
    if s.stage.deadline.all fun t => s.now + ticks ≤ t then some { s with now := s.now + ticks }
    else none
  | .selectActive uuid loaded => some (s.selectActive uuid loaded).1
  | .cancel => some { s with cancelled := true }
  | .check =>
    if s.stage = .head ∧ !s.cancelled then
      match s.active with
      | none => some s
      | some m =>
        -- The module is halted until it is selected again.
        if s.Tripped m.uuid then some { s with active := none }
        else some { s with stage := .starting m }
    else none
  | .spawn started =>
    match s.stage with
    | .starting m =>
      if started then some { s with stage := .handshake { target := m, spawnTime := s.now } s.now }
      else some { s with stage := .head }
    | _ => none
  | .processExit => some { s with
      stage := s.stage.mapRun fun told r =>
        if r.hasExited then r else { r with process := .exited s.now told } }
  | .markExited =>
    some { s with stage := s.stage.mapRun fun _ r => { r with marked := r.hasExited } }
  | .reply => s.stageAfterReply.map fun stage => { s with stage }
  | .timeout =>
    if s.stage.deadline = some s.now then s.stageAfterTimeout.map fun stage => { s with stage }
    else none
  | .leave =>
    match s.stage with
    | .pulling r =>
      if s.cancelled ∨ r.marked ∨ !s.isActive r.target then some { s with stage := .teardown r }
      else none
    | _ => none
  | .uninstalled =>
    match s.stage with
    | .pulling r => some { s with
        active := if s.isActive r.target then none else s.active
        stage := .teardown r }
    | _ => none
  | .abort =>
    match s.stage with
    -- Only a cancellation ends the wait for the handshake before its time.
    | .handshake r _ => if s.cancelled then some { s with stage := .teardown r } else none
    | .supported r _ | .init r _ | .pulling r => some { s with stage := .teardown r }
    | _ => none
  | .beginTeardown =>
    match s.stage with
    | .teardown r =>
      some { s with stage := if r.hasExited then .ended r else .teardownReply r s.now }
    | _ => none
  | .gone =>
    match s.stage with
    | .teardownExit r _ => if r.hasExited then some { s with stage := .ended r } else none
    | .killing r _ => some { s with stage := .ended r }
    | _ => none
  | .finish => s.stage.ended?.map fun r => { s.updateBreaker r with stage := .head }

end SubprocessManager

def managerMachine : Machine SubprocessManager ManagerEvent where
  init := {s | ∃ now, s = { now }}
  step := SubprocessManager.step

/-! ## Steps that leave the breaker alone -/

namespace SubprocessManager

variable {s s' : SubprocessManager} {u : List UInt8}

/-- A step that neither selects a module, nor passes the check of the breaker, nor ends a run. -/
structure Quiet (s s' : SubprocessManager) : Prop where
  breakerUuid : s'.breakerUuid = s.breakerUuid
  breakerCount : s'.breakerCount = s.breakerCount
  active : s'.active = s.active ∨ s'.active = none
  target : s'.stage.target? = s.stage.target? ∨ s'.stage.target? = none

variable {stage : Stage}

theorem target?_eq_none : stage.target? = none ↔ stage = .head := by
  cases stage <;> simp [Stage.target?]

theorem target?_mapRun {f : Bool → ModuleRun → ModuleRun}
    (hf : ∀ told r, (f told r).target = r.target) (stage : Stage) :
    (stage.mapRun f).target? = stage.target? := by
  cases stage <;> simp [Stage.mapRun, Stage.target?, hf]

theorem target?_afterTeardownReply (now : ℕ) :
    (Stage.afterTeardownReply r now).target? = some r.target := by
  unfold Stage.afterTeardownReply
  split_ifs <;> rfl

theorem target?_stageAfterReply (h : s.stageAfterReply = some stage) :
    stage.target? = s.stage.target? := by
  unfold stageAfterReply at h
  cases hstage : s.stage with
  | teardownReply r since =>
    rw [hstage] at h
    cases h
    exact target?_afterTeardownReply r s.now
  | _ =>
    rw [hstage] at h
    cases h <;> rfl

theorem target?_stageAfterTimeout (h : s.stageAfterTimeout = some stage) :
    stage.target? = s.stage.target? := by
  unfold stageAfterTimeout at h
  cases hstage : s.stage with
  | teardownReply r since =>
    rw [hstage] at h
    cases h
    exact target?_afterTeardownReply r s.now
  | teardownExit r since =>
    rw [hstage] at h
    cases h
    split_ifs <;> rfl
  | _ =>
    rw [hstage] at h
    cases h <;> rfl

/-- The stage changes, and the module does not. -/
theorem Quiet.of_stage (h : stage.target? = s.stage.target? ∨ stage.target? = none) :
    Quiet s { s with stage } :=
  ⟨rfl, rfl, .inl rfl, h⟩

theorem Quiet.of_target {stage' : Stage} (hstage : s.stage = stage)
    (h : stage'.target? = stage.target?) : Quiet s { s with stage := stage' } :=
  .of_stage (.inl (hstage ▸ h))

theorem quiet_of_step {e : ManagerEvent} (hselect : ∀ uuid loaded, e ≠ .selectActive uuid loaded)
    (hcheck : e ≠ .check) (hfinish : e ≠ .finish) (h : s.step e = some s') : Quiet s s' := by
  cases e with
  | wait ticks =>
    simp only [step] at h
    split_ifs at h
    cases h
    exact ⟨rfl, rfl, .inl rfl, .inl rfl⟩
  | selectActive uuid loaded => exact absurd rfl (hselect uuid loaded)
  | cancel =>
    cases h
    exact ⟨rfl, rfl, .inl rfl, .inl rfl⟩
  | check => exact absurd rfl hcheck
  | spawn started =>
    simp only [step] at h
    split at h
    · next m hstage =>
      cases started
      · cases h
        exact .of_stage (.inr rfl)
      · cases h
        exact .of_target hstage rfl
    · cases h
  | processExit =>
    cases h
    refine .of_stage (.inl (target?_mapRun ?_ s.stage))
    intro told r
    split_ifs <;> rfl
  | markExited =>
    cases h
    refine .of_stage (.inl (target?_mapRun ?_ s.stage))
    intro told r
    rfl
  | reply =>
    obtain ⟨stage, hstage, rfl⟩ := Option.map_eq_some_iff.1 h
    exact .of_stage (.inl (target?_stageAfterReply hstage))
  | timeout =>
    simp only [step] at h
    split_ifs at h
    obtain ⟨stage, hstage, rfl⟩ := Option.map_eq_some_iff.1 h
    exact .of_stage (.inl (target?_stageAfterTimeout hstage))
  | leave =>
    simp only [step] at h
    split at h
    · next r hstage =>
      split_ifs at h
      cases h
      exact .of_target hstage rfl
    · cases h
  | uninstalled =>
    simp only [step] at h
    split at h
    · next r hstage =>
      cases h
      -- The module is not active any more, unless another one was selected meanwhile.
      refine ⟨rfl, rfl, ?_, .inl (by rw [hstage]; rfl)⟩
      dsimp only
      split_ifs
      · exact .inr rfl
      · exact .inl rfl
    · cases h
  | abort =>
    simp only [step] at h
    cases hstage : s.stage with
    | handshake r since =>
      simp only [hstage] at h
      split_ifs at h
      cases h
      exact .of_target hstage rfl
    | _ =>
      rw [hstage] at h
      cases h <;> exact .of_target hstage rfl
  | beginTeardown =>
    simp only [step] at h
    split at h
    · next r hstage =>
      cases h
      refine .of_target hstage ?_
      split_ifs <;> rfl
    · cases h
  | gone =>
    simp only [step] at h
    cases hstage : s.stage with
    | teardownExit r since =>
      simp only [hstage] at h
      split_ifs at h
      cases h
      exact .of_target hstage rfl
    | _ =>
      rw [hstage] at h
      cases h <;> exact .of_target hstage rfl
  | finish => exact absurd rfl hfinish

end SubprocessManager

end WKOpenVR.Face
