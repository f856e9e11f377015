import WKOpenVR.Calibration.ProfileRegistry
import WKOpenVR.Text

/-!
# Loading the calibration profile

At its start the overlay loads the profile that is stored in the registry
(`LoadProfile`). A profile written by a newer build is refused: `ParseProfile` returns
with `validProfile` cleared, so that the newer profile is not overwritten by the next
save. But a save does not look at `validProfile`. `WriteProfile` writes nothing for an
invalid profile, and `SaveProfile` hands this empty text to the writer of the registry
like any other.

A session (`machine`) is the overlay with its calibration and the writer of
`ProfileRegistry`. After a load that has refused the stored profile, it is kept by all
saves made while `validProfile` is false exactly if these are skipped, as the last text
handed to the writer had the hash of the empty one, and the writer has nothing else left
to write (`refused_kept_iff`). At the start of the overlay this is not so: the first save
erases the newer profile (`newer_profile_erased`).
-/

namespace WKOpenVR.Calibration.ProfileLoad

open ProfileRegistry (State)
open Text (ascii)

/-- A value of the JSON library. -/
inductive Json
  | null
  | bool (b : Bool)
  | number (x : ℚ)
  | string (s : String)
  | array (values : List Json)
  | object (fields : List (String × Json))

def profileSchemaVersion : ℤ := 7

/-- The schema version of a profile, `0` if it has none. It is truncated to an integer. -/
def profileVersion (obj : List (String × Json)) : ℤ :=
  match obj.lookup "schema_version" with
  | some (.number x) => x.num.tdiv x.den
  | _ => 0

/-- The calibration of the overlay, `CalibrationContext`. -/
structure Context (α : Type*) where
  validProfile : Bool
  /-- Everything else. -/
  fields : α

/-- What is left open of the format of a profile: the JSON parser, and how the fields of a
    profile that is not refused are read and written. -/
structure Format (α : Type*) where
  /-- `picojson::parse`. -/
  parse : Blob → Except String Json
  /-- The rest of `ParseProfile`, with what it has set when it throws. -/
  populate : List (String × Json) → Context α → Context α
  /-- The rest of `WriteProfile`. -/
  render : α → Blob
  /-- The fields after `Clear`. -/
  clear : α → α

/-- The overlay: its calibration, and the writer of the registry. -/
structure Session (α : Type*) where
  ctx : Context α
  writer : State

variable {α : Type*} (format : Format α) (ctx : Context α) (str : Blob)

/-- `ParseProfile`. What it throws is caught by `LoadProfile`. -/
def parseProfile : Context α :=
  match format.parse str with
  | .ok (.array (.object obj :: _)) =>
    if profileVersion obj > profileSchemaVersion then { ctx with validProfile := false }
    else format.populate obj ctx
  | _ => ctx

/-- `LoadProfile`, for what was read from the registry. -/
def loadProfile : Context α :=
  if str = [] then ⟨false, format.clear ctx.fields⟩
  else parseProfile format { ctx with validProfile := false } str

def writeProfile : Blob :=
  if ctx.validProfile then format.render ctx.fields else []

inductive Action (α : Type*)
  /-- `LoadProfile`, whose read of the registry may fail. -/
  | load (ok : Bool)
  /-- Anything else that changes the calibration. -/
  | update (ctx : Context α)
  /-- `SaveProfile`. -/
  | save
  /-- The worker and `Stop`. -/
  | writer (a : ProfileRegistry.Action)

variable (s : Session α)

/-- The state after an action. The tick thread loads, saves and changes the calibration,
    and is the one that waits in `Stop`. -/
def step : Action α → Option (Session α)
  | .load ok =>
    if s.writer.stopping then none
    else
      let str := if ok then s.writer.registry.getD [] else []
      some { s with ctx := loadProfile format s.ctx str }
  | .update ctx => if s.writer.stopping then none else some { s with ctx }
  | .save =>
    (ProfileRegistry.step s.writer (.saveProfile (writeProfile format s.ctx))).map
      fun writer => { s with writer }
  | .writer (.saveProfile _) => none
  | .writer a => (ProfileRegistry.step s.writer a).map fun writer => { s with writer }

/-- A session, over any earlier content of the registry. -/
def machine : Machine (Session α) (Action α) where
  init := {s | s.writer ∈ ProfileRegistry.machine.init}
  step := step format

variable (blob : Blob)

/-- `blob` is stored by a newer build: it parses to a profile of a newer schema, and is
    refused. -/
def Newer : Prop :=
  blob ≠ [] ∧ ∃ obj rest, format.parse blob = .ok (.array (.object obj :: rest)) ∧
    profileSchemaVersion < profileVersion obj

/-- Saves are made while `validProfile` is false. -/
def Unloaded : Action α → Prop
  | .save => s.ctx.validProfile = false
  | _ => True

instance : DecidableRel (Unloaded (α := α)) := fun s a => by
  unfold Unloaded
  split <;> infer_instance

/-- Whatever happens from `s` on, with saves only while `validProfile` is false, the
    registry has `blob`. -/
def Kept : Prop :=
  ∀ as s', ((machine format).startingAt s).RunIf Unloaded as s' → s'.writer.registry = some blob

/-! ## The writer -/

variable {format s} {s' : Session α} {w w' : State} {blob}

theorem loadProfile_of_newer (h : Newer format blob) (ctx : Context α) :
    loadProfile format ctx blob = { ctx with validProfile := false } := by
  obtain ⟨hne, obj, rest, hparse, hlt⟩ := h
  rw [loadProfile, if_neg hne, parseProfile, hparse]
  exact if_pos hlt

/-- The writer writes nothing but `blob`, and skips an empty text. -/
structure Holding (blob : Blob) (w : State) : Prop where
  registry : w.registry = some blob
  unchanged : w.unchanged [] = true
  pending : ∀ b, w.pending = some b → b = blob
  writing : ∀ b, w.worker = .writing b → b = blob

theorem Holding.step {a : ProfileRegistry.Action} (h : Holding blob w)
    (ha : ∀ b, a = .saveProfile b → b = []) (hs : ProfileRegistry.step w a = some w') :
    Holding blob w' := by
  cases a with
  | saveProfile b =>
    -- The writer skips the empty text.
    obtain rfl := ha b rfl
    simp only [ProfileRegistry.step] at hs
    split_ifs at hs
    cases hs
    rw [State.saveProfile, if_pos h.unchanged]
    exact h
  | beginStop | endStop =>
    simp only [ProfileRegistry.step] at hs
    split_ifs at hs
    cases hs
    exact ⟨h.registry, h.unchanged, h.pending, h.writing⟩
  | take =>
    simp only [ProfileRegistry.step, State.take] at hs
    split at hs
    · split at hs
      next b hpending =>
        cases hs
        refine ⟨h.registry, h.unchanged, by simp, fun c hc => ?_⟩
        cases hc
        exact h.pending b hpending
      · split_ifs at hs
        cases hs
        exact ⟨h.registry, h.unchanged, h.pending, by simp⟩
    · cases hs
  | finishWrite ok =>
    simp only [ProfileRegistry.step, State.finishWrite] at hs
    split at hs
    next b hworker =>
      cases hs
      obtain rfl := h.writing b hworker
      exact ⟨by simp [h.registry], h.unchanged, h.pending, by simp⟩
    · cases hs

variable {a : Action α}

/-- A session only touches the writer by saves and by the writer's own actions. -/
theorem step_writer (hs : step format s a = some s') :
    s'.writer = s.writer ∨ ∃ b, ProfileRegistry.step s.writer b = some s'.writer ∧
      ∀ c, b = .saveProfile c → a = .save ∧ c = writeProfile format s.ctx := by
  cases a with
  | load ok =>
    simp only [ProfileLoad.step] at hs
    split_ifs at hs
    all_goals exact .inl (Option.some.inj hs ▸ rfl)
  | update ctx =>
    simp only [ProfileLoad.step] at hs
    split_ifs at hs
    exact .inl (Option.some.inj hs ▸ rfl)
  | save =>
    obtain ⟨w, hw, rfl⟩ := Option.map_eq_some_iff.1 hs
    refine .inr ⟨_, hw, fun c hc => ⟨rfl, ?_⟩⟩
    cases hc
    rfl
  | writer b =>
    cases b with
    | saveProfile c => cases hs
    | beginStop | endStop | take | finishWrite =>
      obtain ⟨w, hw, rfl⟩ := Option.map_eq_some_iff.1 hs
      exact .inr ⟨_, hw, by simp⟩

theorem kept_of_holding (h : Holding blob s.writer) : Kept format s blob := by
  intro as s' hrun
  have hholding : Holding blob s'.writer := by
    refine hrun.invariant (I := fun t => Holding blob t.writer) (fun t ht => ?_)
      fun t a t' hi ha hs => ?_
    · obtain rfl : t = s := ht
      exact h
    · rcases step_writer hs with heq | ⟨b, hb, hsave⟩
      · exact heq ▸ hi
      · refine hi.step (fun c hc => ?_) hb
        obtain ⟨rfl, rfl⟩ := hsave c hc
        have hvalid : t.ctx.validProfile = false := ha
        simp [writeProfile, hvalid]
  exact hholding.registry

/-! ## What is still to be written -/

/-- The worker is there for what is pending, and until it is told to stop. -/
structure Served (w : State) : Prop where
  pending : w.worker = .off → w.pending = none
  running : w.running = true → w.stop = false → w.worker ≠ .off

theorem Served.step {a : ProfileRegistry.Action} (h : Served w)
    (hs : ProfileRegistry.step w a = some w') : Served w' := by
  cases a with
  | saveProfile b =>
    simp only [ProfileRegistry.step] at hs
    split_ifs at hs with hstopping
    cases hs
    rw [State.saveProfile, State.submit]
    split_ifs with hunchanged hrunning
    · exact h
    · -- The worker that runs is not being stopped.
      have hworker : w.worker ≠ .off := by
        have hrunning : w.running = true := hrunning
        exact h.running hrunning (by simpa [State.stopping, hrunning] using hstopping)
      exact ⟨fun hoff => absurd hoff hworker, fun _ _ => hworker⟩
    · exact ⟨by simp, by simp⟩
  | beginStop | endStop =>
    simp only [ProfileRegistry.step] at hs
    split_ifs at hs
    cases hs
    exact ⟨h.pending, by simp⟩
  | take =>
    simp only [ProfileRegistry.step, State.take] at hs
    split at hs
    · split at hs
      · cases hs
        exact ⟨by simp, by simp⟩
      next hpending =>
        split_ifs at hs with hstop
        cases hs
        exact ⟨fun _ => hpending, fun _ hfalse => by simp [hstop] at hfalse⟩
    · cases hs
  | finishWrite ok =>
    simp only [ProfileRegistry.step, State.finishWrite] at hs
    split at hs
    · cases hs
      exact ⟨by simp, by simp⟩
    · cases hs

theorem served_of_run {as : List (Action α)} (h : (machine format).Run as s) : Served s.writer := by
  refine h.invariant (I := fun s => Served s.writer) (fun s hs => ?_) fun s a s' hi _ hs => ?_
  · obtain ⟨registry, hregistry⟩ : s.writer ∈ Set.range State.fresh := hs
    exact hregistry ▸ ⟨fun _ => rfl, by simp [State.fresh]⟩
  · rcases step_writer hs with heq | ⟨b, hb, -⟩
    · exact heq ▸ hi
    · exact hi.step hb

theorem Kept.registry (h : Kept format s blob) : s.writer.registry = some blob :=
  h [] s (.init rfl)

theorem Kept.step (h : Kept format s blob) (ha : Unloaded s a)
    (hs : step format s a = some s') : Kept format s' blob :=
  fun as _ hrun => h (a :: as) _ (hrun.cons ha hs)

/-- What is being written ends up in the registry. -/
theorem Kept.eq_of_writing {b : Blob} (h : Kept format s blob) (hb : s.writer.worker = .writing b) :
    b = blob := by
  have hs : ProfileLoad.step format s (.writer (.finishWrite true)) =
      some { s with writer := { s.writer with worker := .waiting, registry := some b } } := by
    simp [ProfileLoad.step, ProfileRegistry.step, State.finishWrite, hb]
  have hkept := h.step (a := .writer (.finishWrite true)) trivial hs
  exact Option.some.inj hkept.registry

/-- The worker writes what is pending. -/
theorem Kept.eq_of_pending {b : Blob} (h : Kept format s blob) (hw : Served s.writer)
    (hb : s.writer.pending = some b) : b = blob := by
  have hwaiting {s : Session α} (h : Kept format s blob) (hworker : s.writer.worker = .waiting)
      (hb : s.writer.pending = some b) : b = blob := by
    have hs : ProfileLoad.step format s (.writer .take) = some { s with
        writer := { s.writer with
          pending := none, worker := .writing b, attempts := s.writer.attempts + 1 } } := by
      simp [ProfileLoad.step, ProfileRegistry.step, State.take, hworker, hb]
    exact (h.step (a := .writer .take) trivial hs).eq_of_writing rfl
  cases hworker : s.writer.worker with
  | off => simp [hw.pending hworker] at hb
  | waiting => exact hwaiting h hworker hb
  | writing c =>
    -- The write in progress ends before.
    have hs : ProfileLoad.step format s (.writer (.finishWrite false)) =
        some { s with writer := { s.writer with worker := .waiting } } := by
      simp [ProfileLoad.step, ProfileRegistry.step, State.finishWrite, hworker]
    exact hwaiting (h.step (a := .writer (.finishWrite false)) trivial hs) rfl hb

/-- A save that is not skipped hands over the empty text. -/
theorem Kept.unchanged (h : Kept format s blob) (hw : Served s.writer)
    (hstopping : s.writer.stopping = false) (hvalid : s.ctx.validProfile = false)
    (hne : blob ≠ []) : s.writer.unchanged [] = true := by
  have hstep : ProfileRegistry.step s.writer (.saveProfile []) =
      some (s.writer.saveProfile []) := by
    simp [ProfileRegistry.step, hstopping]
  have hs : ProfileLoad.step format s .save =
      some { s with writer := s.writer.saveProfile [] } := by
    simp [ProfileLoad.step, writeProfile, hvalid, hstep]
  rcases ProfileRegistry.saveProfile_cases s.writer [] with ⟨hunchanged, -⟩ | ⟨-, -, hpending, -⟩
  · exact hunchanged
  · have heq := (h.step (a := .save) hvalid hs).eq_of_pending (hw.step hstep) hpending
    exact absurd heq.symm hne

/-- After the registry's profile of a newer build has been refused by `LoadProfile`, it
    is kept by all saves made while `validProfile` is false exactly if these saves are
    skipped and nothing else is left to be written. -/
theorem refused_kept_iff (as : List (Action α)) (s s' : Session α) (blob : Blob)
    (h : (machine format).Run as s) (hregistry : s.writer.registry = some blob)
    (hnewer : Newer format blob) (hload : step format s (.load true) = some s') :
    s'.ctx.validProfile = false ∧
    (Kept format s' blob ↔ s.writer.unchanged [] = true ∧
      (∀ b, s.writer.pending = some b → b = blob) ∧
        ∀ b, s.writer.worker = .writing b → b = blob) := by
  obtain ⟨hstopping, rfl⟩ : s.writer.stopping = false ∧
      { s with ctx := { s.ctx with validProfile := false } } = s' := by
    simpa [step, hregistry, loadProfile_of_newer hnewer] using hload
  have hserved : Served s.writer := served_of_run h
  refine ⟨rfl, fun hkept => ⟨?_, ?_, ?_⟩, fun ⟨hunchanged, hpending, hwriting⟩ => ?_⟩
  · exact hkept.unchanged hserved hstopping rfl hnewer.1
  · exact fun b hb => hkept.eq_of_pending hserved hb
  · exact fun b hb => hkept.eq_of_writing hb
  · exact kept_of_holding ⟨hregistry, hunchanged, hpending, hwriting⟩

/-! ## The newer profile at the start of the overlay -/

/-- A profile of the next schema. -/
def newerBlob : Blob := ascii "[\x7b\"schema_version\":8\x7d]"

/-- A format that can read this profile. -/
def newerFormat : Format Unit where
  parse str :=
    if str = newerBlob then .ok (.array [.object [("schema_version", .number 8)]])
    else .error "syntax error"
  populate _ ctx := { ctx with validProfile := true }
  render _ := ascii "[\x7b\"schema_version\":7\x7d]"
  clear := id

/-- The overlay at its start, with the newer profile in the registry. -/
def newerSession : Session Unit := ⟨⟨false, ()⟩, .fresh (some newerBlob)⟩

theorem newer_newerBlob : Newer newerFormat newerBlob :=
  ⟨by decide, [("schema_version", .number 8)], [], by simp [newerFormat], by decide +kernel⟩

/-- `refused_kept_iff` when a save before the load has failed to be written: the saves
    after the load are skipped. -/
theorem refused_kept_failed_save :
    ∃ s s', (machine newerFormat).Run [.save, .writer .take, .writer (.finishWrite false)] s ∧
      step newerFormat s (.load true) = some s' ∧ Kept newerFormat s' newerBlob := by
  obtain ⟨s, hrun, hregistry, hunchanged, hpending, hworker, hstopping⟩ :
      ∃ s, (machine newerFormat).Run [.save, .writer .take, .writer (.finishWrite false)] s ∧
        s.writer.registry = some newerBlob ∧ s.writer.unchanged [] = true ∧
          s.writer.pending = none ∧ s.writer.worker = .waiting ∧ s.writer.stopping = false :=
    (machine newerFormat).exists_runIf newerSession ⟨some newerBlob, rfl⟩ (by decide +kernel)
  refine ⟨s, _, hrun, if_neg (by simp [hstopping]), ?_⟩
  refine (refused_kept_iff _ s _ _ hrun hregistry newer_newerBlob
    (if_neg (by simp [hstopping]))).2.2 ⟨hunchanged, ?_, ?_⟩
  · simp [hpending]
  · simp [hworker]

/-- The first save after the load erases the newer profile. -/
theorem newer_profile_erased :
    Newer newerFormat newerBlob ∧ newerSession.writer.registry = some newerBlob ∧
    ∃ s, ((machine newerFormat).startingAt newerSession).RunIf Unloaded
      [.load true, .save, .writer .take, .writer (.finishWrite true)] s ∧
      s.ctx.validProfile = false ∧ s.writer.registry = some [] :=
  ⟨newer_newerBlob, rfl, Machine.exists_runIf _ newerSession rfl (by decide +kernel)⟩

end WKOpenVR.Calibration.ProfileLoad
