import WKOpenVR.Machine

/-!
# The pipe server of the driver

One thread (`RunThread`) serves all clients of a feature's pipe. It keeps one pipe
instance for the next client (`CreateAndConnectInstance`), waits on an event until a
client has connected to it, hands the instance over to the completion routines
(`CreatePipeInstance`) and makes another.

The kernel's side of the pipe is a part of the state: for each instance, whether a
client can connect to it, is connected or has gone, and which instance has a connect
pending. `ConnectNamedPipe` resets the event. It stays pending on an instance without a
client, and the kernel sets the event when one connects; it reports a client that has
connected since the instance was made; it fails if that client is gone again, or for
any other reason. Clients connect and disconnect at any point.

* If every instance is made, and every connect is pending or finds its client, then a
  server that blocks waits on an instance whose next client wakes it, and every handle
  that is handed over is that of an instance with a client (`blocked_listens`).
* Otherwise the thread goes on as if a client were there (`server_not_listening`): when
  no instance could be made, the event is still set and the invalid handle is handed
  over; when the connect failed, the event has been reset and the thread blocks.
-/

namespace WKOpenVR.Driver.IpcServer

open Option

/-- A pipe instance, in the kernel. -/
inductive Instance
  /-- Not made yet. -/
  | free
  /-- A client can connect to it. -/
  | listening
  | connected
  /-- Its client has closed its end. -/
  | gone
  | closed
  deriving DecidableEq

/-- A client has connected to the instance, and may have gone since. -/
def Instance.hasClient : Instance → Bool
  | .connected | .gone => true
  | _ => false

/-- What `WaitForSingleObjectEx` returns. -/
inductive WaitResult
  | signaled
  | ioCompletion
  | failed
  deriving DecidableEq

/-- Where the server thread is in `RunThread`. -/
inductive Pc
  /-- Before `CreateEvent`. -/
  | entry
  /-- Before `CreateNamedPipe`, in `CreateAndConnectInstance`. -/
  | creating
  /-- Before `ConnectNamedPipe`. -/
  | connecting
  /-- A client was already connected: before `SetEvent`. -/
  | signaling
  /-- At the condition of the loop. -/
  | loop
  /-- In `WaitForSingleObjectEx`. -/
  | waiting
  /-- The wait has returned. -/
  | woken (wait : WaitResult)
  /-- Before `GetOverlappedResult`. -/
  | fetching
  /-- Before `CreatePipeInstance`. -/
  | accepting
  | exited
  deriving DecidableEq

/-- The data of the server thread and the kernel's side of its pipe. A handle is the
    number of an instance, or `none` for `INVALID_HANDLE_VALUE`. -/
structure Server where
  stop : Bool
  /-- `connectEvent` is set. -/
  event : Bool
  nextPipe : Option ℕ
  connectPending : Bool
  /-- The handles of the `pipes`. -/
  pipes : List (Option ℕ)
  /-- The instance whose connect is pending in the kernel. -/
  pending : Option ℕ
  instances : ℕ → Instance
  /-- The number of instances made. -/
  created : ℕ

/-- The server, with the point its thread has reached. -/
structure State extends Server where
  pc : Pc

def State.start : State where
  stop := false
  event := false
  nextPipe := none
  connectPending := false
  pipes := []
  pending := none
  instances _ := .free
  created := 0
  pc := .entry

/-- A system call of the server thread with its outcome, a call of `Stop`, or what a
    client does. -/
inductive Action
  | createEvent (ok : Bool)
  | createNamedPipe (ok : Bool)
  /-- Unless `ok`, the call fails for a reason other than a client that is gone. -/
  | connectNamedPipe (ok : Bool)
  | setEvent (ok : Bool)
  | loop
  | wait (wait : WaitResult)
  | wake
  | getOverlappedResult (ok : Bool)
  /-- `CreatePipeInstance` and the first `ReadFileEx`. -/
  | createPipeInstance (ok : Bool)
  /-- A completion routine, in the wait. -/
  | completed (i : ℕ) (ok : Bool)
  | requestStop
  /-- `SetEvent` in `Stop`. -/
  | signalStop
  | clientConnect (p : ℕ)
  | clientDisconnect (p : ℕ)

variable (s : Server) (p : ℕ)

/-- The kernel's state of an instance changes. -/
def Server.setInstance (i : Instance) : Server :=
  { s with instances := Function.update s.instances p i }

/-- `CloseHandle`, which fails for the invalid handle. -/
def Server.closeHandle : Option ℕ → Server
  | none => s
  | some p => s.setInstance p .closed

/-- The end of `CreateAndConnectInstance` on a failure: it returns `FALSE`. -/
def Server.connectFailed : State :=
  { s.closeHandle s.nextPipe with nextPipe := none, connectPending := false, pc := .loop }

/-- `CreateNamedPipe`. If it fails, `CreateAndConnectInstance` returns `FALSE`. -/
def Server.createNamedPipe : Bool → State
  | true => { s.setInstance s.created .listening with
      nextPipe := some s.created, created := s.created + 1, pc := .connecting }
  | false => { s with nextPipe := none, connectPending := false, pc := .loop }

/-- `ConnectNamedPipe` on the next instance `p`, and the `switch` on its error. -/
def Server.connectNamedPipe (ok : Bool) : State :=
  match s.instances p, ok with
  | .listening, true => { s with
      event := false, pending := some p, connectPending := true, pc := .loop }
  | .connected, true => { s with event := false, pc := .signaling }
  | _, _ => { s with event := false }.connectFailed

/-- What the thread does after the wait. -/
def Server.wake (wait : WaitResult) : Pc :=
  if s.stop then .exited
  else
    match wait with
    | .signaled => if s.connectPending then .fetching else .accepting
    | .ioCompletion => .loop
    | .failed => .exited

/-- `CreatePipeInstance` on the next instance, and `CompletedWriteCallback` for it, which
    closes the instance unless it can read from it. -/
def Server.createPipeInstance : Bool → Server
  | true => { s with pipes := s.nextPipe :: s.pipes }
  | false => s.closeHandle s.nextPipe

/-- A completion routine runs for the `i`-th of the `pipes`: it goes on reading or
    writing, or closes the instance. -/
def Server.completed (i : ℕ) (ok : Bool) : Option Server :=
  s.pipes[i]?.map fun pipe =>
    if ok then s else { s.closeHandle pipe with pipes := s.pipes.eraseIdx i }

/-- A client connects. If a connect is pending on the instance, it completes. -/
def Server.clientConnect : Server :=
  if s.pending = some p then { s.setInstance p .connected with pending := none, event := true }
  else s.setInstance p .connected

def step (s : State) : Action → Option State
  | .createEvent ok =>
    if s.pc = .entry then some { s with event := ok, pc := if ok then .creating else .exited }
    else none
  | .createNamedPipe ok => if s.pc = .creating then some (s.createNamedPipe ok) else none
  | .connectNamedPipe ok =>
    match s.nextPipe with
    | some p => if s.pc = .connecting then some (s.connectNamedPipe p ok) else none
    | none => none
  | .setEvent ok =>
    if s.pc = .signaling then
      some (if ok then { s with event := true, connectPending := false, pc := .loop }
        else s.connectFailed)
    else none
  | .loop =>
    if s.pc = .loop then some { s with pc := if s.stop then .exited else .waiting } else none
  | .wait wait =>
    -- The wait returns `signaled` only once the event is set.
    if s.pc = .waiting ∧ (wait = .signaled → s.event = true) then
      some { s with pc := .woken wait }
    else none
  | .wake =>
    match s.pc with
    | .woken wait => some { s with pc := s.wake wait }
    | _ => none
  | .getOverlappedResult ok =>
    if s.pc = .fetching then
      some (if ok then { s with pc := .accepting }
        else { s.closeHandle s.nextPipe with nextPipe := none, pc := .exited })
    else none
  | .createPipeInstance ok =>
    if s.pc = .accepting then some { s.createPipeInstance ok with pc := .creating } else none
  | .completed i ok =>
    if s.pc = .waiting then (s.completed i ok).map fun s' => { s' with pc := s.pc } else none
  | .requestStop => some { s with stop := true }
  | .signalStop =>
    if s.stop = true ∧ s.pc ≠ .entry ∧ s.pc ≠ .exited then some { s with event := true } else none
  | .clientConnect p =>
    if s.instances p = .listening then some { s.clientConnect p with pc := s.pc } else none
  | .clientDisconnect p =>
    if s.instances p = .connected then some { s.setInstance p .gone with pc := s.pc } else none

def machine : Machine State Action where
  init := {.start}
  step := step

/-- The next instance is made, and its connect is pending or finds its client. -/
def Offered (s : State) : Action → Prop
  | .createNamedPipe ok | .setEvent ok => ok = true
  | .connectNamedPipe ok => ok = true ∧ ∀ p ∈ s.nextPipe, s.instances p ≠ .gone
  | _ => True

instance : DecidableRel Offered := fun s a => by
  unfold Offered
  split <;> infer_instance

/-- The thread is blocked on its event, and has not been told to stop. -/
def State.blocked (s : State) : Prop := s.pc = .waiting ∧ s.event = false ∧ s.stop = false

/-- A client can connect, to an instance with a pending connect, and every client that
    connects next sets the event. -/
def State.listens (s : State) : Prop :=
  (∃ p, s.pending = some p ∧ s.instances p = .listening) ∧
    ∀ p s', step s (.clientConnect p) = some s' → s'.event = true

/-! ## The next instance -/

/-- No client can connect. -/
def Quiet : Prop := s.pending = none ∧ ∀ p, s.instances p ≠ .listening

/-- The instance `n` is the next one to be handed over, and the only one to which a client
    can connect. -/
structure Holds (s : Server) (n : ℕ) : Prop where
  nextPipe : s.nextPipe = some n
  lt : n < s.created
  not_mem : some n ∉ s.pipes
  only : ∀ p, s.instances p = .listening → p = n

/-- The connect of `n` is pending. -/
structure Waits (s : Server) (n : ℕ) : Prop where
  pending : s.pending = some n
  listening : s.instances n = .listening
  /-- If the event is set, then by `Stop`. -/
  event : s.event = true → s.stop = true

/-- A client has connected to `n`. -/
structure Taken (s : Server) (n : ℕ) : Prop where
  pending : s.pending = none
  hasClient : (s.instances n).hasClient = true

/-- The next instance is made, and its connect is to be called. -/
def Made : Prop := ∃ n, Holds s n ∧ s.pending = none ∧
  (s.instances n = .listening ∨ (s.instances n).hasClient = true)

/-- The next instance has a client. -/
def Accepted : Prop := ∃ n, Holds s n ∧ Taken s n

/-- The next instance wakes the thread, or has woken it. -/
def Ready : Prop := ∃ n, Holds s n ∧ (Waits s n ∨ Taken s n ∧ s.event = true)

/-- What holds at each point of `RunThread`. -/
def Phase : Pc → Prop
  | .entry | .creating => Quiet s
  | .connecting => Made s
  | .signaling | .fetching | .accepting => Accepted s
  | .loop | .waiting => Ready s
  | .woken wait => Ready s ∧ (wait = .signaled → s.event = true)
  | .exited => True

structure Inv (s : State) : Prop where
  pipes : ∀ p, some p ∈ s.pipes → p < s.created
  phase : Phase s.toServer s.pc

variable {s p} {n : ℕ} {i : Instance} {pc : Pc}

theorem inv_start : Inv .start :=
  ⟨nofun, rfl, nofun⟩

@[simp]
theorem instances_setInstance_self : (s.setInstance p i).instances p = i :=
  Function.update_self ..

theorem instances_setInstance_of_ne (h : n ≠ p) : (s.setInstance p i).instances n = s.instances n :=
  Function.update_of_ne h ..

@[simp]
theorem closeHandle_some : s.closeHandle (some p) = s.setInstance p .closed := rfl

@[simp]
theorem setInstance_pipes : (s.setInstance p i).pipes = s.pipes := rfl

@[simp]
theorem setInstance_created : (s.setInstance p i).created = s.created := rfl

@[simp]
theorem clientConnect_pipes : (s.clientConnect p).pipes = s.pipes := by
  rw [Server.clientConnect]
  split_ifs <;> rfl

@[simp]
theorem clientConnect_created : (s.clientConnect p).created = s.created := by
  rw [Server.clientConnect]
  split_ifs <;> rfl

/-- A change of an instance does not make it one to which a client can connect. -/
theorem listening_of_setInstance {q : ℕ} (hi : i ≠ .listening)
    (h : (s.setInstance p i).instances q = .listening) : s.instances q = .listening := by
  by_cases hq : q = p
  · rw [hq, instances_setInstance_self] at h
    exact absurd h hi
  · rwa [instances_setInstance_of_ne hq] at h

theorem Quiet.setInstance (h : Quiet s) (hi : i ≠ .listening) : Quiet (s.setInstance p i) :=
  ⟨h.1, fun q hq => h.2 q (listening_of_setInstance hi hq)⟩

theorem Holds.setInstance (h : Holds s n) (hi : i ≠ .listening) : Holds (s.setInstance p i) n :=
  ⟨h.nextPipe, h.lt, h.not_mem, fun q hq => h.only q (listening_of_setInstance hi hq)⟩

/-- No client can connect once one has connected to the only instance. -/
theorem Holds.quiet (h : Holds s n) (ht : Taken s n) : Quiet s := by
  refine ⟨ht.pending, fun p hp => ?_⟩
  have hclient := ht.hasClient
  rw [← h.only p hp, hp] at hclient
  cases hclient

/-! ## Clients, closed handles and `Stop` -/

section SetInstance

-- An instance changes, and no client can connect to it. If it is the next one, then a
-- client had connected to it, and may now be gone.
variable (hi : i ≠ .listening)
  (hn : ∀ n, Holds s n → p = n → i.hasClient = true ∧ s.instances n ≠ .listening)

include hn

theorem taken_setInstance (hh : Holds s n) (ht : Taken s n) : Taken (s.setInstance p i) n := by
  refine ⟨ht.pending, ?_⟩
  by_cases hp : p = n
  · rw [← hp, instances_setInstance_self]
    exact (hn n hh hp).1
  · rw [instances_setInstance_of_ne (Ne.symm hp)]
    exact ht.hasClient

theorem waits_setInstance (hh : Holds s n) (hw : Waits s n) : Waits (s.setInstance p i) n := by
  have hp : p ≠ n := fun hp => (hn n hh hp).2 hw.listening
  exact ⟨hw.pending, (instances_setInstance_of_ne hp.symm).trans hw.listening, hw.event⟩

include hi

theorem made_setInstance (h : Made s) : Made (s.setInstance p i) := by
  obtain ⟨n, hh, hpending, hinst⟩ := h
  refine ⟨n, hh.setInstance hi, hpending, ?_⟩
  by_cases hp : p = n
  · rw [← hp, instances_setInstance_self]
    exact .inr (hn n hh hp).1
  · rwa [instances_setInstance_of_ne (Ne.symm hp)]

theorem accepted_setInstance (h : Accepted s) : Accepted (s.setInstance p i) := by
  obtain ⟨n, hh, ht⟩ := h
  exact ⟨n, hh.setInstance hi, taken_setInstance hn hh ht⟩

theorem ready_setInstance (h : Ready s) : Ready (s.setInstance p i) := by
  obtain ⟨n, hh, hw | ⟨ht, he⟩⟩ := h
  · exact ⟨n, hh.setInstance hi, .inl (waits_setInstance hn hh hw)⟩
  · exact ⟨n, hh.setInstance hi, .inr ⟨taken_setInstance hn hh ht, he⟩⟩

theorem phase_setInstance (h : Phase s pc) : Phase (s.setInstance p i) pc := by
  cases pc with
  | entry | creating => exact Quiet.setInstance h hi
  | connecting => exact made_setInstance hi hn h
  | signaling | fetching | accepting => exact accepted_setInstance hi hn h
  | loop | waiting => exact ready_setInstance hi hn h
  | woken => exact ⟨ready_setInstance hi hn h.1, h.2⟩
  | exited => trivial

end SetInstance

/-- A client connects to the next instance. If its connect is pending, the event is set. -/
theorem phase_clientConnect (h : Phase s pc) (hp : s.instances p = .listening) :
    Phase (s.clientConnect p) pc := by
  have haccepted (h : Accepted s) : False := by
    obtain ⟨n, hh, ht⟩ := h
    exact (hh.quiet ht).2 p hp
  have hready (h : Ready s) : Ready (s.clientConnect p) ∧ (s.clientConnect p).event = true := by
    obtain ⟨n, hh, hw | ⟨ht, -⟩⟩ := h
    · obtain rfl := hh.only p hp
      rw [Server.clientConnect, if_pos hw.pending]
      have hh' := hh.setInstance (p := p) (i := .connected) nofun
      exact ⟨⟨p, ⟨hh'.nextPipe, hh'.lt, hh'.not_mem, hh'.only⟩,
        .inr ⟨⟨rfl, by simp [Instance.hasClient]⟩, rfl⟩⟩, rfl⟩
    · exact (haccepted ⟨n, hh, ht⟩).elim
  cases pc with
  | entry | creating => exact absurd hp (h.2 p)
  | connecting =>
    obtain ⟨n, hh, hpending, -⟩ := h
    obtain rfl := hh.only p hp
    rw [Server.clientConnect, if_neg (by simp [hpending])]
    exact ⟨p, hh.setInstance nofun, hpending, .inr (by simp [Instance.hasClient])⟩
  | signaling | fetching | accepting => exact (haccepted h).elim
  | loop | waiting => exact (hready h).1
  | woken => exact ⟨(hready h.1).1, fun _ => (hready h.1).2⟩
  | exited => trivial

/-- What `Stop` does, and a completion routine to the list of `pipes`. -/
theorem phase_frame {stop event : Bool} {pipes : List (Option ℕ)} (h : Phase s pc)
    (hpipes : ∀ x ∈ pipes, x ∈ s.pipes) (he : s.event = true → event = true)
    (hstop : (s.event = true → s.stop = true) → event = true → stop = true) :
    Phase { s with stop, event, pipes } pc := by
  have hholds (n : ℕ) (hh : Holds s n) : Holds { s with stop, event, pipes } n :=
    ⟨hh.nextPipe, hh.lt, fun hmem => hh.not_mem (hpipes _ hmem), hh.only⟩
  have haccepted (h : Accepted s) : Accepted { s with stop, event, pipes } := by
    obtain ⟨n, hh, ht⟩ := h
    exact ⟨n, hholds n hh, ht.pending, ht.hasClient⟩
  have hready (h : Ready s) : Ready { s with stop, event, pipes } := by
    obtain ⟨n, hh, hw | ⟨ht, hevent⟩⟩ := h
    · exact ⟨n, hholds n hh, .inl ⟨hw.pending, hw.listening, hstop hw.event⟩⟩
    · exact ⟨n, hholds n hh, .inr ⟨⟨ht.pending, ht.hasClient⟩, he hevent⟩⟩
  cases pc with
  | entry | creating => exact h
  | connecting =>
    obtain ⟨n, hh, hmade⟩ := h
    exact ⟨n, hholds n hh, hmade⟩
  | signaling | fetching | accepting => exact haccepted h
  | loop | waiting => exact hready h
  | woken => exact ⟨hready h.1, fun hw => he (h.2 hw)⟩
  | exited => trivial

/-! ## The server thread -/

variable {t t' : State}

theorem Inv.createNamedPipe (h : Inv t) (hpc : t.pc = .creating) :
    Inv (t.createNamedPipe true) := by
  obtain ⟨hpending, hquiet⟩ : Quiet t.toServer := by
    have := h.phase
    rwa [hpc] at this
  refine ⟨fun p hp => (h.pipes p hp).trans (Nat.lt_succ_self _), t.created, ?_, hpending, .inl ?_⟩
  · refine ⟨rfl, Nat.lt_succ_self _, fun hmem => (h.pipes _ hmem).false, fun p hp => ?_⟩
    by_contra hne
    have hp : (t.setInstance t.created .listening).instances p = .listening := hp
    rw [instances_setInstance_of_ne hne] at hp
    exact hquiet p hp
  · exact instances_setInstance_self

theorem Inv.connectNamedPipe (h : Inv t) (hpc : t.pc = .connecting) (hp : t.nextPipe = some p)
    (hgone : t.instances p ≠ .gone) : Inv (t.connectNamedPipe p true) := by
  obtain ⟨n, hh, hpending, hinst⟩ : Made t.toServer := by
    have := h.phase
    rwa [hpc] at this
  obtain rfl : n = p := Option.some.inj (hh.nextPipe.symm.trans hp)
  have hh' {event : Bool} : Holds { t.toServer with event } n :=
    ⟨hh.nextPipe, hh.lt, hh.not_mem, hh.only⟩
  cases hi : t.instances n with
  | listening =>
    simp only [Server.connectNamedPipe, hi]
    refine ⟨h.pipes, n, ⟨hh.nextPipe, hh.lt, hh.not_mem, hh.only⟩, .inl ⟨rfl, hi, nofun⟩⟩
  | connected =>
    simp only [Server.connectNamedPipe, hi]
    exact ⟨h.pipes, n, hh', hpending, by rw [hi]; rfl⟩
  | gone => exact absurd hi hgone
  | free | closed => simp [hi, Instance.hasClient] at hinst

/-- A thread that goes on to take a client finds one: the event was not set by `Stop`. -/
theorem phase_wake {wait : WaitResult} (h : Phase s (.woken wait)) : Phase s (s.wake wait) := by
  by_cases hstop : s.stop = true
  · simp only [Server.wake, if_pos hstop, Phase]
  rw [Server.wake.eq_def, if_neg hstop]
  cases wait with
  | signaled =>
    have haccepted : Accepted s := by
      obtain ⟨⟨n, hh, hw | ⟨ht, -⟩⟩, he⟩ := h
      · exact absurd (hw.event (he rfl)) hstop
      · exact ⟨n, hh, ht⟩
    cases hpending : s.connectPending
    · exact haccepted
    · exact haccepted
  | ioCompletion => exact h.1
  | failed => trivial

theorem Inv.createPipeInstance (h : Inv t) (hpc : t.pc = .accepting) (ok : Bool) :
    Inv { t.createPipeInstance ok with pc := .creating } := by
  obtain ⟨n, hh, ht⟩ : Accepted t.toServer := by
    have := h.phase
    rwa [hpc] at this
  have hquiet := hh.quiet ht
  cases ok with
  | true =>
    refine ⟨fun p hp => ?_, hquiet⟩
    rcases List.mem_cons.1 hp with heq | hp
    · rw [hh.nextPipe, Option.some.injEq] at heq
      exact heq ▸ hh.lt
    · exact h.pipes p hp
  | false =>
    rw [Server.createPipeInstance, hh.nextPipe]
    exact ⟨h.pipes, hquiet.setInstance nofun⟩

/-- A completion routine only closes an instance that has been handed over. -/
theorem Inv.completed {i : ℕ} {ok : Bool} (h : Inv t) (hs : t.completed i ok = some s) :
    Inv { s with pc := t.pc } := by
  obtain ⟨pipe, hpipe, rfl⟩ := map_eq_some_iff.1 hs
  split_ifs
  · exact h
  have hmem (x : Option ℕ) (hx : x ∈ t.pipes.eraseIdx i) : x ∈ t.pipes :=
    List.mem_of_mem_eraseIdx hx
  cases pipe with
  | none => exact ⟨fun p hp => h.pipes p (hmem _ hp), phase_frame h.phase hmem id id⟩
  | some q =>
    have hq : some q ∈ t.pipes := List.mem_of_getElem? hpipe
    have hclosed : Phase (t.setInstance q .closed) t.pc :=
      phase_setInstance nofun (fun n hh hqn => absurd (hqn ▸ hq) hh.not_mem) h.phase
    exact ⟨fun p hp => h.pipes p (hmem _ hp), phase_frame hclosed hmem id id⟩

theorem Inv.step {a : Action} (h : Inv t) (ha : Offered t a) (hs : step t a = some t') :
    Inv t' := by
  have hphase := h.phase
  cases a with
  | createEvent ok =>
    obtain ⟨hpc, rfl⟩ := ite_some_none_eq_some.1 hs
    rw [hpc] at hphase
    cases ok with
    | true => exact ⟨h.pipes, hphase⟩
    | false => exact ⟨h.pipes, trivial⟩
  -- `Offered` leaves only the success of the calls that make the next instance.
  | createNamedPipe ok =>
    obtain ⟨hpc, rfl⟩ := ite_some_none_eq_some.1 hs
    obtain rfl : ok = true := ha
    exact h.createNamedPipe hpc
  | connectNamedPipe ok =>
    simp only [IpcServer.step] at hs
    split at hs
    next p hp =>
      obtain ⟨hpc, rfl⟩ := ite_some_none_eq_some.1 hs
      obtain ⟨rfl, hgone⟩ : ok = true ∧ ∀ p ∈ t.nextPipe, t.instances p ≠ .gone := ha
      exact h.connectNamedPipe hpc hp (hgone p hp)
    · cases hs
  | setEvent ok =>
    obtain ⟨hpc, rfl⟩ := ite_some_none_eq_some.1 hs
    obtain rfl : ok = true := ha
    rw [hpc] at hphase
    obtain ⟨n, hh, ht⟩ := hphase
    exact ⟨h.pipes, n, ⟨hh.nextPipe, hh.lt, hh.not_mem, hh.only⟩,
      .inr ⟨⟨ht.pending, ht.hasClient⟩, rfl⟩⟩
  | loop =>
    obtain ⟨hpc, rfl⟩ := ite_some_none_eq_some.1 hs
    rw [hpc] at hphase
    refine ⟨h.pipes, ?_⟩
    cases hstop : t.stop
    · exact hphase
    · trivial
  | wait wait =>
    obtain ⟨⟨hpc, hevent⟩, rfl⟩ := ite_some_none_eq_some.1 hs
    rw [hpc] at hphase
    exact ⟨h.pipes, hphase, hevent⟩
  | wake =>
    simp only [IpcServer.step] at hs
    split at hs
    next wait hpc =>
      cases hs
      rw [hpc] at hphase
      exact ⟨h.pipes, phase_wake hphase⟩
    · cases hs
  | getOverlappedResult ok =>
    obtain ⟨hpc, rfl⟩ := ite_some_none_eq_some.1 hs
    rw [hpc] at hphase
    cases ok with
    | true => exact ⟨h.pipes, hphase⟩
    | false =>
      obtain ⟨n, hh, -⟩ := hphase
      exact ⟨by simpa [hh.nextPipe] using h.pipes, trivial⟩
  | createPipeInstance ok =>
    obtain ⟨hpc, rfl⟩ := ite_some_none_eq_some.1 hs
    exact h.createPipeInstance hpc ok
  | completed i ok =>
    obtain ⟨hpc, hs⟩ := ite_none_right_eq_some.1 hs
    obtain ⟨s, hs', rfl⟩ := map_eq_some_iff.1 hs
    exact h.completed hs'
  -- What the stopping thread and the clients do to the phase of this one.
  | requestStop =>
    cases hs
    exact ⟨h.pipes, phase_frame hphase (fun _ => id) id fun _ _ => rfl⟩
  | signalStop =>
    obtain ⟨⟨hstop, -⟩, rfl⟩ := ite_some_none_eq_some.1 hs
    exact ⟨h.pipes, phase_frame hphase (fun _ => id) (fun _ => rfl) fun _ _ => hstop⟩
  | clientConnect p =>
    obtain ⟨hp, rfl⟩ := ite_some_none_eq_some.1 hs
    exact ⟨by simpa using h.pipes, phase_clientConnect hphase hp⟩
  | clientDisconnect p =>
    obtain ⟨hp, rfl⟩ := ite_some_none_eq_some.1 hs
    refine ⟨h.pipes, phase_setInstance nofun (fun n _ hpn => ⟨rfl, ?_⟩) hphase⟩
    rw [← hpn, hp]
    nofun

/-- The invariant holds in every run in which the next instance is always offered. -/
theorem inv_of_run {as : List Action} (h : machine.RunIf Offered as t) : Inv t := by
  refine h.invariant (fun t ht => ?_) fun _ _ _ hi ha hs => hi.step ha hs
  obtain rfl : t = .start := ht
  exact inv_start

theorem Waits.listens (hh : Holds t.toServer n) (hw : Waits t.toServer n) : t.listens := by
  refine ⟨⟨n, hw.pending, hw.listening⟩, fun p t' hs => ?_⟩
  obtain ⟨hp, rfl⟩ := ite_some_none_eq_some.1 hs
  obtain rfl := hh.only p hp
  rw [Server.clientConnect, if_pos hw.pending]

/-- In every run in which each instance is made and each connect is pending or finds its
    client: whenever the thread is blocked on its event and was not told to stop, an
    instance with a pending connect sets the event on the next client; and a handle
    about to be passed to `CreatePipeInstance` is that of an instance to which a client
    has connected. -/
theorem blocked_listens (as : List Action) (t : State) (h : machine.RunIf Offered as t) :
    (t.blocked → t.listens) ∧
    (t.pc = .accepting → ∃ p, t.nextPipe = some p ∧ (t.instances p).hasClient = true) := by
  have hphase := (inv_of_run h).phase
  refine ⟨fun ⟨hpc, hevent, _⟩ => ?_, fun hpc => ?_⟩
  · rw [hpc] at hphase
    obtain ⟨n, hh, hw | ⟨-, he⟩⟩ := hphase
    · exact hw.listens hh
    · simp [hevent] at he
  · rw [hpc] at hphase
    obtain ⟨n, hh, ht⟩ := hphase
    exact ⟨n, hh.nextPipe, ht.hasClient⟩

/-- A first client is there before the connect, a second one comes while the thread is
    blocked. -/
def offeredActions : List Action :=
  [.createEvent true, .createNamedPipe true, .clientConnect 0, .connectNamedPipe true,
    .setEvent true, .loop, .wait .signaled, .wake, .createPipeInstance true,
    .createNamedPipe true, .connectNamedPipe true, .loop, .completed 0 false,
    .wait .ioCompletion, .wake, .loop]

theorem blocked_listens_offered : ∃ t, machine.RunIf Offered offeredActions t ∧
    t.blocked ∧ t.listens := by
  refine machine.exists_runIf_of (P := fun t => t.pc = .waiting ∧ t.event = false ∧ t.stop = false)
    .start (by rfl) (by decide +kernel) ?_
  exact fun t hrun hblocked => ⟨hblocked, (blocked_listens _ t hrun).1 hblocked⟩

/-! ## A failure -/

/-- The first `CreateNamedPipe` fails. -/
def notMadeActions : List Action :=
  [.createEvent true, .createNamedPipe false, .loop, .wait .signaled, .wake]

/-- A client connects to the first instance and is gone before its connect. -/
def clientGoneActions : List Action :=
  [.createEvent true, .createNamedPipe true, .clientConnect 0, .clientDisconnect 0,
    .connectNamedPipe true, .loop]

/-- After a failed `CreateNamedPipe` the invalid handle is passed to
    `CreatePipeInstance`; after a client that left early the thread blocks, with no
    instance to which a client could connect. -/
theorem server_not_listening :
    (∃ t, machine.Run notMadeActions t ∧ t.pc = .accepting ∧ t.nextPipe = none) ∧
    ∃ t, machine.Run clientGoneActions t ∧ t.blocked ∧ ¬t.listens := by
  obtain ⟨t, hrun, hblocked, hpending⟩ : ∃ t, machine.Run clientGoneActions t ∧
      (t.pc = .waiting ∧ t.event = false ∧ t.stop = false) ∧ t.pending = none :=
    machine.exists_runIf .start (by rfl) (by decide +kernel)
  refine ⟨machine.exists_runIf .start (by rfl) (by decide +kernel), t, hrun, hblocked,
    fun hlistens => ?_⟩
  obtain ⟨⟨p, hp, -⟩, -⟩ := hlistens
  rw [hpending] at hp
  cases hp

end WKOpenVR.Driver.IpcServer
