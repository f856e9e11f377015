import WKOpenVR.Machine

/-!
# The source of the face frames

The host publishes the last `ReplyUpdate` it was handed as a frame of the module it runs. The
replies come from the processes of the modules as datagrams, which may be late, lost or doubled.
`OnServerPacket` does not look at the port a reply comes from, and what a run keeps of the replies
is reset only when it starts (`SpawnAndRunCoreAsync`): a late reply of an earlier process is
published for the module that runs now (`late_reply_published`). Where a run is handed the replies
of its own process only, its frames are from there (`frames_from_process`).
-/

namespace WKOpenVR.Face.FrameSource

/-- Where the host is in its runs. A module is given by its `UuidHash`. -/
inductive Stage
  | between
  /-- After the reset, before `Process.Start`. -/
  | starting (module : UInt64)
  | running (module : UInt64) (process : ℕ)
  deriving DecidableEq

/-- A frame, and the process that was spawned for the run it is published in. -/
structure Frame (D : Type*) where
  moduleUuidHash : UInt64
  process : ℕ
  data : D
  deriving DecidableEq

structure State (D : Type*) where
  stage : Stage := .between
  latestUpdate : Option D := none
  /-- The number of processes that were spawned. -/
  spawned : ℕ := 0
  /-- The replies that were sent, each by one of the processes. -/
  sent : List (ℕ × D) := []
  frames : List (Frame D) := []
  deriving DecidableEq

inductive Event (D : Type*)
  | start (module : UInt64)
  /-- `Process.Start`, which may fail. -/
  | spawn (started : Bool)
  | send (process : ℕ) (data : D)
  /-- `OnServerPacket` with a reply that was sent. -/
  | onServerPacket (process : ℕ) (data : D)
  /-- A round of the pull loop. -/
  | pull
  /-- The end of the run, after the teardown. -/
  | finish

variable {D : Type*} [DecidableEq D]

def State.step (s : State D) : Event D → Option (State D)
  | .start module =>
    match s.stage with
    | .between => some { s with stage := .starting module, latestUpdate := none }
    | .starting _ | .running _ _ => none
  | .spawn started =>
    match s.stage with
    | .starting module => some { s with
        stage := if started then .running module s.spawned else .between
        spawned := if started then s.spawned + 1 else s.spawned }
    | .between | .running _ _ => none
  | .send process data =>
    if process < s.spawned then some { s with sent := s.sent ++ [(process, data)] } else none
  | .onServerPacket process data =>
    if s.sent.contains (process, data) then some { s with latestUpdate := some data } else none
  | .pull =>
    match s.stage with
    | .running module process => some { s with
        frames := s.frames ++ s.latestUpdate.toList.map fun data => ⟨module, process, data⟩ }
    | .between | .starting _ => none
  | .finish =>
    match s.stage with
    | .running _ _ => some { s with stage := .between }
    | .between | .starting _ => none

def machine (D : Type*) [DecidableEq D] : Machine (State D) (Event D) where
  init := {{}}
  step := State.step

/-- The processes of which a run may be handed replies, from its reset to its end. -/
def Stage.admits : Stage → ℕ → Bool
  | .between, _ => true
  | .starting _, _ => false
  | .running _ own, process => process == own

/-- A run is handed replies of its own process only. -/
def OwnReplies (s : State D) : Event D → Prop
  | .onServerPacket process _ => s.stage.admits process = true
  | .start _ | .spawn _ | .send _ _ | .pull | .finish => True

instance : DecidableRel (OwnReplies (D := D))
  | s, .onServerPacket process _ => inferInstanceAs (Decidable (s.stage.admits process = true))
  | _, .start _ | _, .spawn _ | _, .send _ _ | _, .pull | _, .finish => .isTrue trivial

/-- The frames are from the replies of their processes, and so is the reply that is kept. -/
structure Inv (s : State D) : Prop where
  frames : ∀ f ∈ s.frames, (f.process, f.data) ∈ s.sent
  starting : ∀ module, s.stage = .starting module → s.latestUpdate = none
  running : ∀ module process, s.stage = .running module process →
    ∀ data ∈ s.latestUpdate, (process, data) ∈ s.sent

variable {s s' : State D}

theorem Inv.step {e : Event D} (h : Inv s) (hC : OwnReplies s e) (hs : s.step e = some s') :
    Inv s' := by
  cases e with
  | start module =>
    simp only [State.step] at hs
    split at hs <;> cases hs
    exact ⟨h.frames, fun _ _ => rfl, nofun⟩
  | spawn started =>
    simp only [State.step] at hs
    split at hs <;> cases hs
    next module hstage =>
    have hnone := h.starting module hstage
    refine ⟨h.frames, ?_, ?_⟩
    · intro _ _
      exact hnone
    · simp [hnone]
  | send process data =>
    simp only [State.step] at hs
    split_ifs at hs
    cases hs
    exact ⟨fun f hf => List.mem_append_left _ (h.frames f hf), h.starting,
      fun m p hp data hdata => List.mem_append_left _ (h.running m p hp data hdata)⟩
  -- A late packet of another process is what `OwnReplies` rules out.
  | onServerPacket process data =>
    simp only [State.step] at hs
    split_ifs at hs with hsent
    cases hs
    refine ⟨h.frames, ?_, ?_⟩
    · intro module (hstage : s.stage = _)
      rw [OwnReplies, hstage] at hC
      exact absurd hC Bool.false_ne_true
    · rintro module own (hstage : s.stage = _) _ ⟨⟩
      rw [OwnReplies, hstage] at hC
      exact eq_of_beq hC ▸ List.contains_iff_mem.1 hsent
  | pull =>
    simp only [State.step] at hs
    split at hs <;> cases hs
    next module process hstage =>
    refine ⟨?_, h.starting, h.running⟩
    rw [List.forall_mem_append, List.forall_mem_map]
    exact ⟨h.frames, fun data hdata => h.running _ _ hstage data (by simpa using hdata)⟩
  | finish =>
    simp only [State.step] at hs
    split at hs <;> cases hs
    exact ⟨h.frames, nofun, nofun⟩

/-- Every frame has the data of a reply that was sent by the process of its run. -/
theorem frames_from_process {es : List (Event D)} (h : (machine D).RunIf OwnReplies es s) :
    ∀ f ∈ s.frames, (f.process, f.data) ∈ s.sent := by
  have hinv : Inv s := by
    refine h.invariant (I := Inv) ?_ fun _ _ _ hinv hC => hinv.step hC
    rintro _ rfl
    exact ⟨nofun, nofun, nofun⟩
  exact hinv.frames

/-- A reply comes back late, and is doubled. -/
theorem frames_from_process_late :
    ∃ es s, (machine ℕ).RunIf OwnReplies es s ∧ s.frames = [⟨7, 0, 5⟩] ∧
      ∀ f ∈ s.frames, (f.process, f.data) ∈ s.sent := by
  refine ⟨[.start 7, .spawn true, .pull, .send 0 5, .onServerPacket 0 5, .pull, .finish,
    .onServerPacket 0 5, .start 8, .spawn true, .pull],
    (machine ℕ).exists_runIf_of (P := (·.frames = [⟨7, 0, 5⟩])) {} rfl (by decide) ?_⟩
  exact fun s hrun hs => ⟨hs, frames_from_process hrun⟩

/-- A reply of the process of the first module is handed over during the run of the second. -/
theorem late_reply_published :
    ∃ es s, (machine ℕ).Run es s ∧ s.frames = [⟨8, 1, 5⟩] ∧ s.sent = [(0, 5)] :=
  ⟨[.start 7, .spawn true, .send 0 5, .finish, .start 8, .spawn true, .onServerPacket 0 5, .pull],
    (machine ℕ).exists_runIf {} rfl (by decide)⟩

end WKOpenVR.Face.FrameSource
