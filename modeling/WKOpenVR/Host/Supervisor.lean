import WKOpenVR.Machine
import Mathlib.Data.Finset.Basic

/-!
# The host supervisor

The supervisor of a sidecar process (`HostSupervisorBase`): it spawns the host,
watches it from a monitor thread which reaps and respawns it, and is driven by
the calls `Start`, `Stop` and `Restart` from any number of client threads.

A thread is the stack of the operations it has still to do. An operation is a
section protected by a mutex, or a single atomic access (`Op.exec`): it changes
the members of the supervisor, and pushes what the thread does next. `break`
and `return` drop operations from the stack. The threads interleave operation by
operation (`machine`); hosts exit at any time. What the system answers to a call
(whether a process is created, whether a pipe connects, ...) is part of the
action.

Hooks of the subclasses (`OnHostReady`, `OnHostExited`,
`RequestGracefulShutdown`) talk to the host over its pipe, and do not access the
members modelled here; nor does the logging.
-/

namespace WKOpenVR.Host

open List

/-! ## Decisions -/

def fastExitThresholdMs : ℕ := 2000

def circuitBreakerThreshold : ℕ := 5

def backoffStartMs : ℕ := 1000

def backoffMaxMs : ℕ := 30000

def singletonRetryDelayMs : ℕ := 500

def isCleanSingletonExit (code : ℕ) : Bool := code == 3 || code == 4

/-- What to do after the exit of a host (`HostExitAction`). -/
structure HostExitAction where
  ignore : Bool
  consecutiveFastExits : ℕ
  halt : Bool
  respawnDelayMs : ℕ
  deriving DecidableEq, Repr

def decideHostExitAction (generationMatches : Bool)
    (exitCode uptimeMs fastExitsBefore backoffMs : ℕ) : HostExitAction :=
  if !generationMatches then ⟨true, fastExitsBefore, false, 0⟩
  else if isCleanSingletonExit exitCode then ⟨false, fastExitsBefore, false, singletonRetryDelayMs⟩
  else
    let fastExits := if uptimeMs < fastExitThresholdMs then fastExitsBefore + 1 else 0
    if circuitBreakerThreshold ≤ fastExits then ⟨false, fastExits, true, 0⟩
    else ⟨false, fastExits, false, backoffMs⟩

variable (attachedToExisting : Bool)

def shouldHotReloadHost (haveHandle : Bool) (baselineWrite diskWrite : ℕ) : Bool :=
  !attachedToExisting && haveHandle && baselineWrite != 0 && diskWrite != 0 &&
    diskWrite != baselineWrite

def shouldUnhaltForNewHostExe (baselineWrite diskWrite : ℕ) : Bool :=
  !attachedToExisting && baselineWrite != 0 && diskWrite != 0 && diskWrite != baselineWrite

/-! ## Operations and members -/

/-- The state of the lease that tells the host its owner is alive. -/
inductive LeaseState
  | starting
  | alive
  | shuttingDown
  | disabled
  deriving DecidableEq, Repr

/-- The local variables of the monitor loop. -/
structure Monitor where
  backoffMs : ℕ
  /-- The generation seen last; none at first. -/
  trackedGeneration : Option ℕ
  /-- When that generation was first seen. -/
  trackedSince : ℕ
  deriving DecidableEq, Repr

inductive Op
  /-- `HeartbeatOwnerLease`, up to its load of `stop_requested_`. -/
  | heartbeatOwnerLease
  /-- The rest of `HeartbeatOwnerLease`, under the lease mutex. -/
  | heartbeat
  | ensureOwnerLease
  | markOwnerLeaseShuttingDown
  | markOwnerLeaseDisabled
  /-- `Spawn`, its result being dropped. -/
  | spawn
  | kill
  /-- The first section of `Start`. -/
  | resetForStart
  /-- `Start` creating the monitor thread. -/
  | startMonitor
  /-- `Stop` storing `stop_requested_`. -/
  | requestStop
  | joinMonitor
  /-- The reset of the circuit breaker, at the end of `Stop` and in `Restart`. -/
  | resetBreaker
  /-- The check for a stop in `Restart`, before it spawns. -/
  | respawnUnlessStopped
  /-- The head of the monitor loop. -/
  | loop (m : Monitor)
  /-- The monitor reading the tracked process. -/
  | readTracked (m : Monitor)
  /-- The monitor, halted, looking for a new executable. -/
  | readHalted (m : Monitor)
  /-- The monitor, tracking no process, reading `attached_to_existing_`. -/
  | readAttached (m : Monitor)
  /-- The monitor probing the pipe of an attached host. -/
  | probeAttached (m : Monitor)
  /-- The monitor storing that no host is running; if the pipe of an attached
      host is gone, it goes on to clear `attached_to_existing_`. -/
  | storeNotRunning (pipeGone : Bool)
  | clearAttached
  /-- The loop of `sleep_or_stop`. -/
  | sleepOrStop (remainingMs : ℕ)
  /-- A check for a stop that breaks out of the monitor loop. -/
  | breakIfStopped
  /-- The check for a stop before a retry. -/
  | retryUnlessStopped (m : Monitor)
  /-- `Spawn`, its result setting the backoff. -/
  | respawn (m : Monitor)
  /-- The monitor waiting for the process it tracks. -/
  | waitForHost (m : Monitor) (handle generation : ℕ)
  /-- The monitor reaping the process it waited for. -/
  | reap (m : Monitor) (generation : ℕ)
  /-- The monitor recording the exit code. -/
  | recordExit (code : ℕ)
  /-- The monitor looking for a new executable while the host is alive. -/
  | readBaseline (m : Monitor)
  deriving DecidableEq, Repr

/-- The members of the supervisor, with the processes it has spawned. -/
structure Supervisor where
  stopRequested : Bool
  running : Bool
  /-- `process_handle_`, with the process it refers to. -/
  processHandle : Option ℕ
  /-- `spawn_generation_`, a 64-bit counter that does not overflow. -/
  spawnGeneration : ℕ
  attachedToExisting : Bool
  consecutiveFastExits : ℕ
  halted : Bool
  watchedExeWrite : ℕ
  lastExitCode : ℕ
  /-- The state of the lease, if it is open. -/
  ownerLease : Option LeaseState
  /-- The monitor thread, if it is joinable. -/
  monitorThread : Option (List Op)
  /-- The processes spawned that are alive. -/
  alive : Finset ℕ
  /-- The next process to be spawned. -/
  nextProcess : ℕ
  /-- The clock, in milliseconds. -/
  now : ℕ

def Supervisor.fresh : Supervisor where
  stopRequested := false
  running := false
  processHandle := none
  spawnGeneration := 0
  attachedToExisting := false
  consecutiveFastExits := 0
  halted := false
  watchedExeWrite := 0
  lastExitCode := 0
  ownerLease := none
  monitorThread := none
  alive := ∅
  nextProcess := 0
  now := 0

/-- What distinguishes the supervisors and the builds. -/
structure Config where
  /-- `host_exe_path_` is not empty. -/
  hasExePath : Bool
  /-- There is a `SidecarOwnerModuleId`. -/
  hasOwnerModule : Bool
  /-- `WKOPENVR_BUILD_IS_DEV`. -/
  isDev : Bool

/-- The result of waiting for a process. -/
inductive WaitResult
  | object
  | timeout
  | failed
  deriving DecidableEq, Repr

/-- What the system answers to the calls of an operation. -/
structure Answers where
  /-- The control pipe connects (and the singleton mutex is held, if any). -/
  connects : Bool := false
  /-- A process, or a lease, is created. -/
  creates : Bool := false
  /-- The time of the last write of the executable. -/
  exeWriteTime : ℕ := 0
  wait : WaitResult := .timeout
  /-- The exit code of a process that has exited. -/
  exitCode : ℕ := 0
  deriving DecidableEq, Repr

/-! ## Sections -/

namespace Supervisor

variable (s : Supervisor)

def trackedAlive : Bool := s.processHandle.any (· ∈ s.alive)

/-- The section of `Spawn`, with its result: a live process is kept, a host that
    answers is attached to (or asked to shut down, if this supervisor should
    own it), and else a process is created. -/
def spawn (cfg : Config) (e : Answers) : Supervisor × Bool :=
  if s.trackedAlive then (s, true)
  else if e.connects then
    if cfg.hasOwnerModule then (s, false)
    else ({ s with attachedToExisting := true, running := true }, true)
  else if e.creates then
    ({ s with
        processHandle := some s.nextProcess
        spawnGeneration := s.spawnGeneration + 1
        attachedToExisting := false
        running := true
        watchedExeWrite := e.exeWriteTime
        alive := insert s.nextProcess s.alive
        nextProcess := s.nextProcess + 1 }, true)
  else (s, false)

/-- `Kill`. A process that was spawned is terminated, which succeeds; the handle
    of a process that was attached over is only closed. -/
def kill : Supervisor :=
  match s.processHandle with
  | none => s
  | some p =>
    { s with
      alive := if s.attachedToExisting then s.alive else s.alive.erase p
      processHandle := none
      spawnGeneration := s.spawnGeneration + 1
      attachedToExisting := false
      running := false }

variable (m : Monitor) (e : Answers)

/-- The decision on the exit of the tracked process. -/
def exitAction : HostExitAction :=
  decideHostExitAction true e.exitCode (s.now - m.trackedSince) s.consecutiveFastExits m.backoffMs

/-- The section of the monitor that reaps the tracked process. -/
def reap : Supervisor :=
  { s with
    processHandle := none
    spawnGeneration := s.spawnGeneration + 1
    consecutiveFastExits := (s.exitAction m e).consecutiveFastExits
    halted := s.halted || (s.exitAction m e).halt }

/-- A write to the lease, if it is open. -/
def writeLease (l : LeaseState) : Supervisor :=
  { s with ownerLease := s.ownerLease.map fun _ => l }

end Supervisor

/-! ## Threads -/

def restart : List Op := [.resetBreaker, .markOwnerLeaseShuttingDown, .kill, .respawnUnlessStopped]

variable (cfg : Config)

def start : List Op :=
  if cfg.hasExePath then
    [.resetForStart, .ensureOwnerLease, .heartbeatOwnerLease, .spawn, .startMonitor]
  else []

def stop : List Op :=
  [.requestStop, .markOwnerLeaseShuttingDown, .kill, .markOwnerLeaseDisabled, .joinMonitor,
    .resetBreaker]

variable (m : Monitor)

/-- The monitor after it has waited: on an exit it reaps, and on a timeout a
    development build looks for a new executable. -/
def afterWait (generation : ℕ) : WaitResult → Op
  | .object => .reap m generation
  | .timeout => if cfg.isDev then .readBaseline m else .loop m
  | .failed => .loop m

/-- The monitor after it has read the tracked process. -/
def afterRead (s : Supervisor) (m : Monitor) : List Op :=
  let m := if m.trackedGeneration = some s.spawnGeneration then m
    else { m with trackedGeneration := some s.spawnGeneration, trackedSince := s.now }
  if s.halted then
    if cfg.isDev then [.readHalted m] else [.sleepOrStop 1000, .loop m]
  else
    match s.processHandle with
    | none => [.readAttached m]
    | some p => [.waitForHost m p s.spawnGeneration]

/-- The monitor after a reaping attempt for the `generation`. -/
def afterReap (s : Supervisor) (m : Monitor) (generation : ℕ) (e : Answers) : List Op :=
  if s.spawnGeneration = generation then
    match s.processHandle with
    | none => [.storeNotRunning false, .loop m]
    | some _ =>
      [.storeNotRunning false, .recordExit e.exitCode] ++
        if (s.exitAction m e).halt then [.loop m]
        else if 0 < (s.exitAction m e).respawnDelayMs then
          [.sleepOrStop (s.exitAction m e).respawnDelayMs, .breakIfStopped, .respawn m]
        else [.breakIfStopped, .respawn m]
  else [.loop m]

/-- The monitor after a `Spawn` with the result `ok`. -/
def afterSpawn (ok : Bool) : Op :=
  .loop { m with backoffMs := if ok then backoffStartMs else min (m.backoffMs * 2) backoffMaxMs }

variable (e : Answers)

/-- Whether an operation can be done: `join` blocks while the monitor has
    operations to do, and starting a monitor over a joinable one terminates the
    program. A wait ends with the process; once its handle has been closed, the
    value of the handle may refer to anything. -/
def Op.enabled (s : Supervisor) : Op → Bool
  | .startMonitor => s.monitorThread.isNone
  | .joinMonitor => s.monitorThread = none ∨ s.monitorThread = some []
  | .waitForHost _ p generation =>
    ¬(e.wait = .object ∧ p ∈ s.alive ∧ s.spawnGeneration = generation)
  | _ => true

/-- The members after an operation; those not listed only read. -/
def Op.effect (s : Supervisor) : Op → Supervisor
  | .heartbeat => s.writeLease .alive
  | .ensureOwnerLease =>
    if cfg.hasOwnerModule && s.ownerLease.isNone && e.creates then
      { s with ownerLease := some .starting } else s
  | .markOwnerLeaseShuttingDown => s.writeLease .shuttingDown
  | .markOwnerLeaseDisabled => s.writeLease .disabled
  | .spawn => (s.spawn cfg e).1
  | .kill => s.kill
  | .resetForStart =>
    { s with
      stopRequested := false
      halted := false
      consecutiveFastExits := 0
      attachedToExisting := false }
  | .startMonitor => { s with monitorThread := some [.loop ⟨backoffStartMs, none, s.now⟩] }
  | .requestStop => { s with stopRequested := true }
  | .joinMonitor => { s with monitorThread := none }
  | .resetBreaker => { s with halted := false, consecutiveFastExits := 0 }
  | .storeNotRunning _ => { s with running := false }
  | .clearAttached => { s with attachedToExisting := false }
  | .respawn _ => (s.spawn cfg e).1
  | .reap m generation =>
    if s.spawnGeneration = generation ∧ s.processHandle.isSome then s.reap m e else s
  | .recordExit code => { s with lastExitCode := code }
  | _ => s

/-- The stack after an operation of a thread which has still to do `rest`; the
    operations not listed just go on with it. -/
def Op.next (rest : List Op) (s : Supervisor) : Op → List Op
  | .heartbeatOwnerLease => if s.stopRequested then rest else .heartbeat :: rest
  | .respawnUnlessStopped =>
    if s.stopRequested then rest else .heartbeatOwnerLease :: .spawn :: rest
  | .loop m => if s.stopRequested then [] else .heartbeatOwnerLease :: .readTracked m :: rest
  | .readTracked m => afterRead cfg s m ++ rest
  | .readHalted m =>
    if shouldUnhaltForNewHostExe s.attachedToExisting s.watchedExeWrite e.exeWriteTime then
      restart ++ .loop { m with backoffMs := backoffStartMs } :: rest
    else .sleepOrStop 1000 :: .loop m :: rest
  | .readAttached m =>
    if s.attachedToExisting then .probeAttached m :: rest
    else .sleepOrStop m.backoffMs :: .retryUnlessStopped m :: rest
  | .probeAttached m =>
    if e.connects then .sleepOrStop 500 :: .loop m :: rest
    else .storeNotRunning true :: .sleepOrStop m.backoffMs :: .retryUnlessStopped m :: rest
  | .storeNotRunning pipeGone => if pipeGone then .clearAttached :: rest else rest
  | .sleepOrStop remainingMs =>
    if 0 < remainingMs ∧ s.stopRequested = false then
      .heartbeatOwnerLease :: .sleepOrStop (remainingMs - min remainingMs 100) :: rest
    else .breakIfStopped :: rest
  | .breakIfStopped => if s.stopRequested then [] else rest
  | .retryUnlessStopped m => if s.stopRequested then .loop m :: rest else .respawn m :: rest
  | .respawn m => afterSpawn m (s.spawn cfg e).2 :: rest
  | .waitForHost m _ generation => .breakIfStopped :: afterWait cfg m generation e.wait :: rest
  | .reap m generation => afterReap s m generation e ++ rest
  | .readBaseline m =>
    if shouldHotReloadHost s.attachedToExisting s.processHandle.isSome s.watchedExeWrite
        e.exeWriteTime then
      restart ++ .loop { m with backoffMs := backoffStartMs } :: rest
    else .loop m :: rest
  | _ => rest

/-- An operation of a thread which has still to do `rest`: the supervisor after
    it, and the new stack of the thread. -/
def Op.exec (rest : List Op) (s : Supervisor) (op : Op) : Option (Supervisor × List Op) :=
  if op.enabled e s then some (op.effect cfg e s, op.next cfg e rest s) else none

/-! ## What an operation does -/

/-- The operations that run `Spawn`. -/
def Op.spawns : Op → Bool
  | .spawn => true
  | .respawn _ => true
  | _ => false

/-- The operations of a running supervisor that write the lease. -/
def Op.writesLease : Op → Bool
  | .heartbeat => true
  | .markOwnerLeaseShuttingDown => true
  | _ => false

/-- The tracked process is left alone: `attached_to_existing_` may only be
    cleared, and `running_` only be stored as false, by the operations that do. -/
structure Untracked (op : Op) (s s' : Supervisor) : Prop where
  processHandle : s'.processHandle = s.processHandle
  spawnGeneration : s'.spawnGeneration = s.spawnGeneration
  alive : s'.alive = s.alive
  nextProcess : s'.nextProcess = s.nextProcess
  attached : s'.attachedToExisting = s.attachedToExisting ∨
    (op = .clearAttached ∨ op = .resetForStart) ∧ s'.attachedToExisting = false
  running : s'.running = s.running ∧ (∀ b, op ≠ .storeNotRunning b) ∨
    (∃ b, op = .storeNotRunning b) ∧ s'.running = false

/-- The operations pushed without a reason to know: neither those of `Start` and `Stop`
    alone, nor those that go by what the monitor has just seen. -/
def Op.routine : Op → Bool
  | .resetForStart | .ensureOwnerLease | .startMonitor => false
  | .requestStop | .markOwnerLeaseDisabled | .joinMonitor => false
  | .clearAttached | .waitForHost .. | .reap .. => false
  | _ => true

/-- Why an operation is pushed by another. -/
inductive Pushed (e : Answers) (s : Supervisor) : Op → Op → Prop
  | routine {op o : Op} : o.routine = true → Pushed e s op o
  | clearAttached : Pushed e s (.storeNotRunning true) .clearAttached
  /-- The monitor waits for the process it has read, with its generation. -/
  | waitForHost {m m' : Monitor} {p : ℕ} : s.processHandle = some p →
      Pushed e s (.readTracked m) (.waitForHost m' p s.spawnGeneration)
  /-- It reaps the process it has waited for. -/
  | reap {m : Monitor} {p g : ℕ} : e.wait = .object →
      Pushed e s (.waitForHost m p g) (.reap m g)

section Effect

variable {cfg e} {op : Op} {rest : List Op} {s : Supervisor}

theorem afterRead_pushed {m : Monitor} :
    ∀ o ∈ afterRead cfg s m, Pushed e s (.readTracked m) o := by
  simp only [afterRead]
  split
  · split
    · exact forall_mem_singleton.2 (.routine rfl)
    · exact forall_mem_cons.2 ⟨.routine rfl, forall_mem_singleton.2 (.routine rfl)⟩
  · split
    · exact forall_mem_singleton.2 (.routine rfl)
    next p hp => exact forall_mem_singleton.2 (.waitForHost hp)

theorem afterReap_pushed {m : Monitor} {g : ℕ} : ∀ o ∈ afterReap s m g e, Pushed e s op o := by
  intro o ho
  refine .routine ?_
  revert o
  rw [afterReap]
  split
  · split
    · simp [Op.routine]
    · split_ifs <;> simp [Op.routine]
  · simp [Op.routine]

theorem afterWait_pushed {m : Monitor} {p g : ℕ} :
    Pushed e s (.waitForHost m p g) (afterWait cfg m g e.wait) := by
  cases hw : e.wait with
  | object => exact .reap hw
  | timeout =>
    rw [afterWait]
    split_ifs <;> exact .routine rfl
  | failed => exact .routine rfl

/-- What the stack holds after an operation: what it held, and what is pushed. -/
theorem next_pushed (cfg : Config) (e : Answers) (rest : List Op) (s : Supervisor) (op : Op) :
    ∀ o ∈ op.next cfg e rest s, o ∈ rest ∨ Pushed e s op o := by
  have hrest : ∀ o ∈ rest, o ∈ rest ∨ Pushed e s op o := fun o ho => .inl ho
  cases op with
  | readTracked m =>
    exact fun o ho => (mem_append.1 ho).symm.imp_right (afterRead_pushed o)
  | reap m g => exact fun o ho => (mem_append.1 ho).symm.imp_right (afterReap_pushed o)
  | waitForHost m p g =>
    exact forall_mem_cons.2 ⟨.inr (.routine rfl), forall_mem_cons.2 ⟨.inr afterWait_pushed, hrest⟩⟩
  | storeNotRunning pipeGone =>
    cases pipeGone with
    | true => exact forall_mem_cons.2 ⟨.inr .clearAttached, hrest⟩
    | false => exact hrest
  | loop m =>
    rw [Op.next]
    split_ifs
    · simp
    · exact forall_mem_cons.2 ⟨.inr (.routine rfl), forall_mem_cons.2 ⟨.inr (.routine rfl), hrest⟩⟩
  | breakIfStopped =>
    rw [Op.next]
    split_ifs
    · simp
    · exact hrest
  | _ =>
    -- The others push routine operations only.
    simp only [Op.next, restart]
    try split_ifs
    all_goals
      repeat' first
        | exact hrest
        | refine forall_mem_cons.2 ⟨.inr (.routine rfl), ?_⟩

/-- What an operation does to the tracked process: spawn, kill, reap, or leave
    it alone. -/
theorem effect_tracked (cfg : Config) (e : Answers) (rest : List Op) (s : Supervisor) (op : Op) :
    (op.spawns ∧ op.effect cfg e s = (s.spawn cfg e).1) ∨
    (op = .kill ∧ op.effect cfg e s = s.kill) ∨
    (∃ m, op = .reap m s.spawnGeneration ∧ s.processHandle.isSome ∧
      op.effect cfg e s = s.reap m e ∧
      (op.next cfg e rest s).head? = some (.storeNotRunning false)) ∨
    Untracked op s (op.effect cfg e s) := by
  cases op with
  | spawn => exact .inl ⟨rfl, rfl⟩
  | respawn m => exact .inl ⟨rfl, rfl⟩
  | kill => exact .inr (.inl ⟨rfl, rfl⟩)
  | reap m generation =>
    rw [Op.effect]
    split_ifs with hg
    · obtain ⟨rfl, hp⟩ := hg
      obtain ⟨p, hp'⟩ := Option.isSome_iff_exists.1 hp
      refine .inr (.inr (.inl ⟨m, rfl, hp, rfl, ?_⟩))
      simp [Op.next, afterReap, hp']
    · exact .inr (.inr (.inr ⟨rfl, rfl, rfl, rfl, .inl rfl, .inl ⟨rfl, by simp⟩⟩))
  | ensureOwnerLease =>
    refine .inr (.inr (.inr ?_))
    rw [Op.effect]
    split_ifs <;> exact ⟨rfl, rfl, rfl, rfl, .inl rfl, .inl ⟨rfl, by simp⟩⟩
  | storeNotRunning b =>
    exact .inr (.inr (.inr ⟨rfl, rfl, rfl, rfl, .inl rfl, .inr ⟨⟨b, rfl⟩, rfl⟩⟩))
  | clearAttached =>
    exact .inr (.inr (.inr ⟨rfl, rfl, rfl, rfl, .inr ⟨.inl rfl, rfl⟩, .inl ⟨rfl, by simp⟩⟩))
  | resetForStart =>
    exact .inr (.inr (.inr ⟨rfl, rfl, rfl, rfl, .inr ⟨.inr rfl, rfl⟩, .inl ⟨rfl, by simp⟩⟩))
  | _ => exact .inr (.inr (.inr ⟨rfl, rfl, rfl, rfl, .inl rfl, .inl ⟨rfl, by simp⟩⟩))

/-- The outcomes of `Spawn`: nothing, an attached host, or a new process when no
    live one is tracked. -/
theorem spawn_cases (cfg : Config) (e : Answers) (s : Supervisor) :
    (s.spawn cfg e).1 = s ∨
    (s.trackedAlive = false ∧
      (s.spawn cfg e).1 = { s with attachedToExisting := true, running := true }) ∨
    (s.trackedAlive = false ∧ (s.spawn cfg e).1 = { s with
        processHandle := some s.nextProcess
        spawnGeneration := s.spawnGeneration + 1
        attachedToExisting := false
        running := true
        watchedExeWrite := e.exeWriteTime
        alive := insert s.nextProcess s.alive
        nextProcess := s.nextProcess + 1 }) := by
  rw [Supervisor.spawn]
  split_ifs <;> simp_all

/-- Only the operations on the lease write it. -/
theorem effect_ownerLease (hw : op.writesLease = false) (he : op ≠ .ensureOwnerLease)
    (hd : op ≠ .markOwnerLeaseDisabled) : (op.effect cfg e s).ownerLease = s.ownerLease := by
  have hspawn : (s.spawn cfg e).1.ownerLease = s.ownerLease := by
    rcases spawn_cases cfg e s with h | ⟨-, h⟩ | ⟨-, h⟩ <;> rw [h]
  cases op with
  | spawn => exact hspawn
  | respawn m => exact hspawn
  | kill =>
    rw [Op.effect, Supervisor.kill]
    split <;> rfl
  | reap m generation =>
    rw [Op.effect]
    split_ifs <;> rfl
  | _ => first | rfl | simp_all [Op.writesLease]

/-- Only starting and joining it changes the monitor thread. -/
theorem effect_monitorThread (hs : op ≠ .startMonitor) (hj : op ≠ .joinMonitor) :
    (op.effect cfg e s).monitorThread = s.monitorThread := by
  have hspawn : (s.spawn cfg e).1.monitorThread = s.monitorThread := by
    rcases spawn_cases cfg e s with h | ⟨-, h⟩ | ⟨-, h⟩ <;> rw [h]
  cases op with
  | spawn => exact hspawn
  | respawn m => exact hspawn
  | kill =>
    rw [Op.effect, Supervisor.kill]
    split <;> rfl
  | reap _ _ | ensureOwnerLease =>
    rw [Op.effect]
    split_ifs <;> rfl
  | _ => first | rfl | simp_all

end Effect

/-! ## The system -/

inductive Call
  | start
  | stop
  | restart
  deriving DecidableEq, Repr

def Call.ops (cfg : Config) : Call → List Op
  | .start => Host.start cfg
  | .stop => Host.stop
  | .restart => Host.restart

/-- The supervisor with its client threads. -/
structure System where
  sup : Supervisor
  clients : ℕ → List Op

inductive Action
  /-- The idle client `i` makes a call. -/
  | call (i : ℕ) (c : Call)
  /-- The client `i` does its next operation. -/
  | client (i : ℕ) (e : Answers)
  /-- The monitor does its next operation. -/
  | monitor (e : Answers)
  /-- The host process `p` exits. -/
  | exit (p : ℕ)
  /-- Time passes. -/
  | advance (ms : ℕ)
  deriving DecidableEq, Repr

def step (cfg : Config) (s : System) : Action → Option System
  | .call i c => if s.clients i = [] then
      some { s with clients := Function.update s.clients i (c.ops cfg) } else none
  | .client i e =>
    match s.clients i with
    | [] => none
    | op :: rest => (op.exec cfg e rest s.sup).map fun (sup, ops) =>
        ⟨sup, Function.update s.clients i ops⟩
  | .monitor e =>
    match s.sup.monitorThread with
    | some (op :: rest) => (op.exec cfg e rest s.sup).map fun (sup, ops) =>
        { s with sup := { sup with monitorThread := some ops } }
    | _ => none
  | .exit p => if p ∈ s.sup.alive then
      some { s with sup := { s.sup with alive := s.sup.alive.erase p } } else none
  | .advance ms => some { s with sup := { s.sup with now := s.sup.now + ms } }

section Step

variable {cfg} {s s' : System} {e}

/-- A step of the monitor does its next operation. -/
theorem step_monitor (h : step cfg s (.monitor e) = some s') :
    ∃ op rest, s.sup.monitorThread = some (op :: rest) ∧ op.enabled e s.sup ∧
      s' = { s with sup := { op.effect cfg e s.sup with
        monitorThread := some (op.next cfg e rest s.sup) } } := by
  rw [step] at h
  split at h
  · rename_i op rest hop
    rw [Op.exec] at h
    split_ifs at h with hen
    · exact ⟨op, rest, hop, hen, (Option.some.inj h).symm⟩
    · simp at h
  · simp at h

/-- A step of a client does its next operation. -/
theorem step_client {i : ℕ} (h : step cfg s (.client i e) = some s') :
    ∃ op rest, s.clients i = op :: rest ∧ op.enabled e s.sup ∧
      s' = ⟨op.effect cfg e s.sup,
        Function.update s.clients i (op.next cfg e rest s.sup)⟩ := by
  rw [step] at h
  split at h
  · simp at h
  · rename_i op rest hop
    rw [Op.exec] at h
    split_ifs at h with hen
    · exact ⟨op, rest, hop, hen, (Option.some.inj h).symm⟩
    · simp at h

end Step

/-- The supervisor, freshly constructed, with all clients idle. -/
def machine (cfg : Config) : Machine System Action where
  init := {⟨.fresh, fun _ => []⟩}
  step := step cfg

end WKOpenVR.Host
