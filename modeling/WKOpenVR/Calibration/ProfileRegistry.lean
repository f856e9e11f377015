import WKOpenVR.Machine

/-!
# Saving the calibration profile

`SaveProfile` serializes the calibration on the tick thread, and skips the save if
the FNV-1a hash of the result is that of the last one. Otherwise it records the hash
and hands the result to a worker (`ProfileRegistryWriter`), which has one pending
slot and writes it to the registry. A write may fail.

The hash is recorded when the profile is handed over, before the worker knows
whether it can write it. So what a save guarantees depends on what became of the
last one:

* After a save of `c`, if only `c` is saved from then on and every write attempted
  from then on succeeds, the registry ends up with `c` exactly if the save was not
  skipped, or `c` was still pending, or was in the registry (`persisted_iff`).
* A profile whose write failed is never written by saving it again
  (`failed_save_not_retried`).
-/

namespace WKOpenVR.Calibration

/-- A serialized profile. -/
abbrev Blob := List UInt8

/-- The hash of `SaveProfile`, FNV-1a of 64 bits. -/
def fnv1a (serialized : Blob) : UInt64 :=
  serialized.foldl (fun hash c => (hash ^^^ c.toUInt64) * 0x100000001b3) 0xcbf29ce484222325

namespace ProfileRegistry

/-- The thread of the `ProfileRegistryWriter`. -/
inductive Worker
  /-- Not started, or left. -/
  | off
  | waiting
  /-- In `WriteRegistryKey`. -/
  | writing (blob : Blob)
  deriving DecidableEq

/-- The writer, with the registry and the hash that `SaveProfile` keeps. -/
structure State where
  lastSavedHash : UInt64
  /-- `pending_`, if `hasPending_`. -/
  pending : Option Blob
  stop : Bool
  running : Bool
  worker : Worker
  /-- The number of writes attempted so far. -/
  attempts : ℕ
  /-- The `Config` value. -/
  registry : Option Blob
  deriving DecidableEq

/-- The state at the start of the program, with what an earlier one has left in the
    registry. -/
def State.fresh (registry : Option Blob) : State where
  lastSavedHash := 0
  pending := none
  stop := false
  running := false
  worker := .off
  attempts := 0
  registry := registry

variable (s : State)

/-- `Submit`: it starts the worker if need be, and replaces what is pending. -/
def State.submit (blob : Blob) : State :=
  if s.running then { s with pending := some blob }
  else { s with running := true, stop := false, worker := .waiting, pending := some blob }

variable (serialized : Blob)

/-- The save of a profile is skipped: it is taken to be the last one. -/
def State.unchanged : Bool :=
  fnv1a serialized != 0 && fnv1a serialized == s.lastSavedHash

/-- `SaveProfile`, for a calibration that serializes to `serialized`. -/
def State.saveProfile : State :=
  if s.unchanged serialized then s
  else { s with lastSavedHash := fnv1a serialized }.submit serialized

/-- The tick thread is in `Stop`, waiting for the worker to leave. -/
def State.stopping : Bool := s.running && s.stop

/-- The locked section of the worker: it takes what is pending, or leaves if it is to
    stop. It waits while there is nothing to do. -/
def State.take : Option State :=
  match s.worker with
  | .waiting =>
    match s.pending with
    | some blob => some { s with
        pending := none, worker := .writing blob, attempts := s.attempts + 1 }
    | none => if s.stop then some { s with worker := .off } else none -- It leaves when drained.
  | _ => none

def State.finishWrite (ok : Bool) : Option State :=
  match s.worker with
  | .writing blob => some { s with
      worker := .waiting
      registry := if ok then some blob else s.registry }
  | _ => none

inductive Action
  | saveProfile (serialized : Blob)
  /-- The first section of `Stop`. -/
  | beginStop
  /-- The second section of `Stop`, after the worker has been joined. -/
  | endStop
  | take
  | finishWrite (ok : Bool)
  deriving DecidableEq

/-- The state after an action. `SaveProfile` and `Stop` are called on one thread. -/
def step : Action → Option State
  | .saveProfile serialized => if s.stopping then none else some (s.saveProfile serialized)
  | .beginStop => if s.running && !s.stop then some { s with stop := true } else none
  | .endStop => if s.stopping && s.worker = .off then some { s with running := false } else none
  | .take => s.take
  | .finishWrite ok => s.finishWrite ok

/-- The saves of a program, over any earlier content of the registry. -/
def machine : Machine State Action where
  init := Set.range State.fresh
  step := step

/-- Nothing is pending or being written. -/
def State.drained : Prop :=
  s.pending = none ∧ ∀ blob, s.worker ≠ .writing blob

/-- What happens after a save of `c`, when `n` writes have been attempted: only `c`
    is saved, and the writes attempted since succeed. -/
def After (c : Blob) (n : ℕ) (s : State) : Action → Prop
  | .saveProfile serialized => serialized = c
  | .finishWrite ok => ok = true ∨ s.attempts = n
  | _ => True

/-! ## What has been saved -/

/-- `blob` is the last profile handed to the worker: its hash is the one recorded,
    and it is what the worker is still to write, or writes last. -/
structure LastSaved (s : State) (blob : Blob) : Prop where
  hash : s.lastSavedHash = fnv1a blob
  pending : ∀ b, s.pending = some b → b = blob
  writing : s.pending = none → ∀ b, s.worker = .writing b → b = blob

/-- After the actions `as`, one of the profiles saved is the last one handed to the
    worker; or none has been handed to it. -/
def Recorded (as : List Action) (s : State) : Prop :=
  s.drained ∧ s.lastSavedHash = 0 ∨ ∃ blob, .saveProfile blob ∈ as ∧ LastSaved s blob

variable {as : List Action} {s} {s' : State} {c : Blob} {n : ℕ}

/-- A save either is skipped or makes its profile the pending one. -/
theorem saveProfile_cases (s : State) (c : Blob) :
    s.unchanged c = true ∧ s.saveProfile c = s ∨
      s.unchanged c = false ∧ (s.saveProfile c).lastSavedHash = fnv1a c ∧
        (s.saveProfile c).pending = some c ∧ (s.saveProfile c).attempts = s.attempts := by
  rw [State.saveProfile]
  cases hu : s.unchanged c
  · refine .inr ⟨rfl, ?_⟩
    simp only [Bool.false_eq_true, if_false, State.submit]
    split_ifs <;> exact ⟨rfl, rfl, rfl⟩
  · exact .inl ⟨rfl, if_pos rfl⟩

theorem Recorded.saveProfile (h : Recorded as s) (c : Blob) :
    Recorded (as ++ [.saveProfile c]) (s.saveProfile c) := by
  rcases saveProfile_cases s c with ⟨-, heq⟩ | ⟨-, hhash, hpending, -⟩
  · rw [heq]
    refine h.imp_right ?_
    rintro ⟨blob, hmem, hlast⟩
    exact ⟨blob, List.mem_append_left _ hmem, hlast⟩
  · refine .inr ⟨c, List.mem_append_right _ (List.mem_singleton_self _), hhash, fun b hb => ?_,
      fun hnone => ?_⟩
    · exact Option.some.inj (hb.symm.trans hpending)
    · rw [hpending] at hnone
      cases hnone

/-- The worker's and the stopping steps write nothing new. -/
theorem Recorded.of_le (h : Recorded as s) (a : Action) (hhash : s'.lastSavedHash = s.lastSavedHash)
    (hdrained : s.drained → s'.drained) (hlast : ∀ blob, LastSaved s blob → LastSaved s' blob) :
    Recorded (as ++ [a]) s' := by
  rcases h with ⟨hd, hzero⟩ | ⟨blob, hmem, hl⟩
  · exact .inl ⟨hdrained hd, hhash.trans hzero⟩
  · exact .inr ⟨blob, List.mem_append_left _ hmem, hlast blob hl⟩

variable {a : Action}

theorem Recorded.step (h : Recorded as s) (hs : step s a = some s') : Recorded (as ++ [a]) s' := by
  cases a with
  | saveProfile serialized =>
    simp only [ProfileRegistry.step] at hs
    split_ifs at hs
    exact Option.some.inj hs ▸ h.saveProfile serialized
  | beginStop | endStop =>
    simp only [ProfileRegistry.step] at hs
    split_ifs at hs
    cases hs
    exact h.of_le _ rfl id fun _ hl => ⟨hl.hash, hl.pending, hl.writing⟩
  | take =>
    simp only [ProfileRegistry.step, State.take] at hs
    split at hs
    next hworker =>
      split at hs
      next blob hpending =>
        cases hs
        -- What was pending, the last profile, is now being written.
        refine h.of_le _ rfl (fun hd => ?_) fun b hl => ⟨hl.hash, by simp, fun _ b' hb' => ?_⟩
        · rw [hd.1] at hpending
          cases hpending
        · cases hb'
          exact hl.pending _ hpending
      next hpending =>
        split_ifs at hs
        cases hs
        exact h.of_le _ rfl (fun hd => ⟨hd.1, by simp⟩) fun _ hl => ⟨hl.hash, hl.pending, by simp⟩
    · cases hs
  | finishWrite ok =>
    simp only [ProfileRegistry.step, State.finishWrite] at hs
    split at hs
    · cases hs
      exact h.of_le _ rfl (fun hd => ⟨hd.1, by simp⟩) fun _ hl => ⟨hl.hash, hl.pending, by simp⟩
    · cases hs

theorem recorded_of_run (h : machine.Run as s) : Recorded as s := by
  refine h.history_invariant (fun s hs => ?_) fun as s a s' hr _ hs => hr.step hs
  obtain ⟨registry, rfl⟩ := hs
  exact .inl ⟨⟨rfl, by simp [State.fresh]⟩, rfl⟩

/-- Without a collision, a save is skipped only if its profile is the last one handed
    to the worker. -/
theorem lastSaved_of_unchanged (h : Recorded as s)
    (hcoll : ∀ b, .saveProfile b ∈ as → fnv1a b = fnv1a c → b = c) (hu : s.unchanged c = true) :
    LastSaved s c := by
  obtain ⟨hne, heq⟩ : fnv1a c ≠ 0 ∧ fnv1a c = s.lastSavedHash := by
    simpa [State.unchanged] using hu
  rcases h with ⟨-, hzero⟩ | ⟨blob, hmem, hl⟩
  · exact absurd (heq.trans hzero) hne
  · obtain rfl := hcoll blob hmem (hl.hash.symm.trans heq.symm)
    exact hl

/-! ## What ends up in the registry -/

/-- The registry will end up with `c`: it is pending, or is being written by a write
    that succeeds, or is in the registry already. -/
structure Persisting (c : Blob) (n : ℕ) (s : State) : Prop where
  attempts : n ≤ s.attempts
  cases : s.pending = some c ∨ s.pending = none ∧
    (s.worker = .writing c ∧ n < s.attempts ∨
      s.registry = some c ∧ ∀ b, s.worker = .writing b → b = c)

theorem Persisting.step (h : Persisting c n s) (ha : After c n s a)
    (hs : step s a = some s') : Persisting c n s' := by
  obtain ⟨hn, hcases⟩ := h
  cases a with
  | saveProfile serialized =>
    simp only [ProfileRegistry.step] at hs
    split_ifs at hs
    cases hs
    obtain rfl : serialized = c := ha
    rcases saveProfile_cases s serialized with ⟨-, heq⟩ | ⟨-, -, hpending, hattempts⟩
    · rw [heq]
      exact ⟨hn, hcases⟩
    · exact ⟨hattempts ▸ hn, .inl hpending⟩
  | beginStop | endStop =>
    simp only [ProfileRegistry.step] at hs
    split_ifs at hs
    exact Option.some.inj hs ▸ ⟨hn, hcases⟩
  | take =>
    simp only [ProfileRegistry.step, State.take] at hs
    split at hs
    next hworker =>
      split at hs
      next blob hpending =>
        cases hs
        -- What is pending is `c`, and its write is attempted now.
        obtain rfl : blob = c := by simpa [hpending] using hcases
        exact ⟨hn.trans (Nat.le_succ _), .inr ⟨rfl, .inl ⟨rfl, Nat.lt_succ_of_le hn⟩⟩⟩
      next hpending =>
        split_ifs at hs
        cases hs
        have hreg : s.registry = some c := by simpa [hpending, hworker] using hcases
        exact ⟨hn, .inr ⟨hpending, .inr ⟨hreg, by simp⟩⟩⟩
    · cases hs
  | finishWrite ok =>
    simp only [ProfileRegistry.step, State.finishWrite] at hs
    split at hs
    next blob hworker =>
      cases hs
      refine ⟨hn, hcases.imp_right ?_⟩
      rintro ⟨hpending, ⟨hwriting, hlt⟩ | ⟨hreg, hwriting⟩⟩
      · -- The write was attempted after the save: it succeeds.
        obtain rfl : blob = c := by simpa [hworker] using hwriting
        have hok : ok = true := ha.resolve_right hlt.ne'
        exact ⟨hpending, .inr ⟨by simp [hok], by simp⟩⟩
      · obtain rfl := hwriting blob hworker
        exact ⟨hpending, .inr ⟨by simp [hreg], by simp⟩⟩
    · cases hs

/-- In a drained state the registry has ended up with `c`. -/
theorem Persisting.registry (h : Persisting c n s) (hd : s.drained) : s.registry = some c := by
  rcases h.cases with hpending | ⟨-, ⟨hwriting, -⟩ | ⟨hreg, -⟩⟩
  · rw [hd.1] at hpending
    cases hpending
  · exact absurd hwriting (hd.2 c)
  · exact hreg

/-- A save of `c` persists: whatever happens after it, as long as only `c` is saved
    and the writes attempted succeed, the registry is `c` once the worker has
    drained. -/
def Persists (c : Blob) (n : ℕ) (s : State) : Prop :=
  ∀ bs s', (machine.startingAt s).RunIf (After c n) bs s' → s'.drained → s'.registry = some c

theorem persists_of_persisting (h : Persisting c n s) : Persists c n s := by
  intro bs s' hrun hd
  refine Persisting.registry (n := n) ?_ hd
  refine hrun.invariant (fun t ht => ?_) fun t a t' ht ha hs => ht.step ha hs
  obtain rfl : t = s := ht
  exact h

/-- If nothing is pending, a failing write leaves the registry as it is. -/
theorem registry_of_persists (h : Persists c s.attempts s) (hpending : s.pending = none) :
    s.registry = some c := by
  cases hworker : s.worker with
  | writing blob =>
    -- The write was attempted before the save, so it may fail.
    have hrun : (machine.startingAt s).RunIf (After c s.attempts) ([] ++ [.finishWrite false])
        { s with worker := .waiting } := by
      refine .step (.init rfl) (.inr rfl) ?_
      simp [Machine.startingAt, machine, ProfileRegistry.step, State.finishWrite, hworker]
    exact h _ { s with worker := .waiting } hrun ⟨hpending, by simp⟩
  | off | waiting => exact h [] s (.init rfl) ⟨hpending, by simp [hworker]⟩

/-- What a save guarantees, in every state reached by a run in which no other profile
    has the hash of `c`: the save of `c` persists exactly if it is not skipped, or `c`
    is still pending, or is in the registry. -/
theorem persisted_iff (as : List Action) (s s' : State) (c : Blob) (h : machine.Run as s)
    (hcoll : ∀ b, .saveProfile b ∈ as → fnv1a b = fnv1a c → b = c)
    (hs : step s (.saveProfile c) = some s') :
    Persists c s.attempts s' ↔
      fnv1a c = 0 ∨ fnv1a c ≠ s.lastSavedHash ∨ s.pending = some c ∨ s.registry = some c := by
  simp only [ProfileRegistry.step] at hs
  split_ifs at hs
  cases hs
  rcases saveProfile_cases s c with ⟨hu, heq⟩ | ⟨hu, -, hpending, hattempts⟩
  · -- The save is skipped.
    have hlast := lastSaved_of_unchanged (recorded_of_run h) hcoll hu
    obtain ⟨hne, heq'⟩ : fnv1a c ≠ 0 ∧ fnv1a c = s.lastSavedHash := by
      simpa [State.unchanged] using hu
    rw [heq, or_iff_right hne, or_iff_right (not_not_intro heq')]
    cases hp : s.pending with
    | some b =>
      obtain rfl := hlast.pending b hp
      exact iff_of_true (persists_of_persisting ⟨le_rfl, .inl hp⟩) (.inl rfl)
    | none =>
      refine ⟨fun hper => .inr (registry_of_persists hper hp), fun hreg => ?_⟩
      refine persists_of_persisting ⟨le_rfl, .inr ⟨hp, .inr ⟨?_, hlast.writing hp⟩⟩⟩
      simpa using hreg
  · refine iff_of_true (persists_of_persisting ⟨hattempts.ge, .inl hpending⟩) ?_
    by_cases hzero : fnv1a c = 0
    · exact .inl hzero
    · refine .inr (.inl fun heq => ?_)
      simp [State.unchanged, ← heq, hzero] at hu

/-- `persisted_iff` after a failed write of another profile: the save persists. -/
theorem persisted_iff_other_profile : ∃ s s', machine.Run
      [.saveProfile [1], .take, .finishWrite false] s ∧
    step s (.saveProfile [2]) = some s' ∧ Persists [2] s.attempts s' := by
  obtain ⟨s, hrun, hstopping, hne⟩ :
      ∃ s, machine.Run [.saveProfile [1], .take, .finishWrite false] s ∧
      s.stopping = false ∧ fnv1a [2] ≠ s.lastSavedHash :=
    machine.exists_runIf _ (Set.mem_range_self none) (by decide)
  have hstep : step s (.saveProfile [2]) = some (s.saveProfile [2]) := by
    simp [ProfileRegistry.step, hstopping]
  refine ⟨s, _, hrun, hstep, (persisted_iff _ s _ [2] hrun ?_ hstep).2 (.inr (.inl hne))⟩
  have hcoll : fnv1a [1] ≠ fnv1a [2] := by decide
  intro b hb heq
  obtain rfl : b = [1] := by simpa using hb
  exact absurd heq hcoll

/-- A profile is saved, and its write fails. Saving it again is skipped: the worker has
    nothing to write, and the registry stays without it. -/
theorem failed_save_not_retried : ∃ s s', machine.Run
      [.saveProfile [1], .take, .finishWrite false] s ∧
    step s (.saveProfile [1]) = some s' ∧ s'.drained ∧ s'.registry = none := by
  obtain ⟨s, hrun, hworker, hstep, hpending, hreg⟩ :
      ∃ s, machine.Run [.saveProfile [1], .take, .finishWrite false] s ∧ s.worker = .waiting ∧
        step s (.saveProfile [1]) = some s ∧ s.pending = none ∧ s.registry = none :=
    machine.exists_runIf _ (Set.mem_range_self none) (by decide)
  exact ⟨s, s, hrun, hstep, ⟨hpending, by simp [hworker]⟩, hreg⟩

end ProfileRegistry

end WKOpenVR.Calibration
