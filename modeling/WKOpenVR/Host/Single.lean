import WKOpenVR.Host.Supervisor
import Mathlib.Data.Finset.Card

/-!
# A single host

The supervisor has at most one live host process, and never loses track of it:
under every interleaving of `Start`, `Restart`, `Stop`, the monitor and the exits
of hosts, a live process it has spawned is the one its handle refers to
(`single_host`). The handle is only dropped by a kill, which terminates the
process, and by the monitor reaping it. The latter waits for the process without
a lock; it then reaps only if the generation is still the one it has read with
the handle, in which case the process it waited for is the tracked one
(`Op.Valid`).
-/

namespace WKOpenVR.Host

open Finset

/-- A live process is the tracked one, and none is while attached to a host. -/
structure Tracked (s : Supervisor) : Prop where
  handle : ∀ p ∈ s.alive, s.processHandle = some p
  attached : s.attachedToExisting → s.alive = ∅

/-- What the monitor knows of the generation it has read: as long as it is the
    current one, the process waited for is the tracked one, and has exited when
    it is to be reaped. -/
def Op.Valid (s : Supervisor) : Op → Prop
  | .waitForHost _ p g => g ≤ s.spawnGeneration ∧ (s.spawnGeneration = g → s.processHandle = some p)
  | .reap _ g => g ≤ s.spawnGeneration ∧ (s.spawnGeneration = g → s.alive = ∅)
  | _ => True

/-- The handle changes only with the generation, and so do processes come to
    life. -/
def Evolves (s s' : Supervisor) : Prop :=
  s.spawnGeneration < s'.spawnGeneration ∨
    s'.spawnGeneration = s.spawnGeneration ∧ s'.processHandle = s.processHandle ∧ s'.alive ⊆ s.alive

variable {cfg : Config} {e : Answers} {op : Op} {rest : List Op} {s s' : Supervisor}

theorem Evolves.refl (s : Supervisor) : Evolves s s := .inr ⟨rfl, rfl, Finset.Subset.refl _⟩

/-- What the monitor knows stays true. -/
theorem Op.Valid.mono (h : op.Valid s) (he : Evolves s s') : op.Valid s' := by
  rcases he with hlt | ⟨hg, hp, ha⟩
  · cases op with
    | waitForHost _ _ _ | reap _ _ =>
      exact ⟨h.1.trans hlt.le, fun hg => absurd (hg ▸ hlt) (not_lt.2 h.1)⟩
    | _ => trivial
  · cases op with
    | waitForHost m p g => exact ⟨hg ▸ h.1, fun hg' => hp.trans (h.2 (hg ▸ hg'))⟩
    | reap m g =>
      exact ⟨hg ▸ h.1, fun hg' => subset_empty.1 (h.2 (hg ▸ hg') ▸ ha)⟩
    | _ => trivial

/-- Without a live tracked process, no process is alive. -/
theorem Tracked.alive_eq_empty (h : Tracked s) (ht : s.trackedAlive = false) : s.alive = ∅ := by
  refine eq_empty_of_forall_notMem fun p hp => ?_
  simp [Supervisor.trackedAlive, h.handle p hp, hp] at ht

theorem Tracked.of_alive_eq_empty (h : s.alive = ∅) : Tracked s := ⟨by simp [h], fun _ => h⟩

/-- A spawn keeps track: it only creates a process when no other is alive. -/
theorem Tracked.spawn (h : Tracked s) :
    Tracked (s.spawn cfg e).1 ∧ Evolves s (s.spawn cfg e).1 := by
  rcases spawn_cases cfg e s with hs | ⟨ht, hs⟩ | ⟨ht, hs⟩ <;> rw [hs]
  · exact ⟨h, .refl s⟩
  · exact ⟨⟨h.handle, fun _ => h.alive_eq_empty ht⟩, .inr ⟨rfl, rfl, Finset.Subset.refl _⟩⟩
  · refine ⟨⟨fun p hp => ?_, by simp⟩, .inl (Nat.lt_succ_self _)⟩
    obtain rfl : p = s.nextProcess := by simpa [h.alive_eq_empty ht] using hp
    rfl

/-- A kill leaves no process alive. -/
theorem Tracked.kill (h : Tracked s) : Tracked s.kill ∧ Evolves s s.kill := by
  rw [Supervisor.kill]
  split
  · exact ⟨h, .refl s⟩
  · rename_i p hp
    refine ⟨.of_alive_eq_empty ?_, .inl (Nat.lt_succ_self _)⟩
    dsimp only
    split_ifs with ha
    · exact h.attached ha
    · refine eq_empty_of_forall_notMem fun q hq => ?_
      obtain ⟨hne, hq⟩ := mem_erase.1 hq
      exact hne (Option.some.inj ((h.handle q hq).symm.trans hp))

theorem Tracked.effect (h : Tracked s) (hop : op.Valid s) :
    Tracked (op.effect cfg e s) ∧ Evolves s (op.effect cfg e s) := by
  rcases effect_tracked cfg e [] s op with ⟨-, he⟩ | ⟨rfl, he⟩ | ⟨m, rfl, -, he, -⟩ | hu
  · rw [he]
    exact h.spawn
  · rw [he]
    exact h.kill
  · -- The generation is the one of the wait, so the tracked process has exited.
    rw [he]
    exact ⟨.of_alive_eq_empty (hop.2 rfl), .inl (Nat.lt_succ_self _)⟩
  · refine ⟨⟨fun p hp => ?_, fun ha => ?_⟩,
      .inr ⟨hu.spawnGeneration, hu.processHandle, hu.alive.le⟩⟩
    · rw [hu.processHandle]
      exact h.handle p (hu.alive ▸ hp)
    · rw [hu.alive]
      rcases hu.attached with ha' | ⟨-, ha'⟩
      · exact h.attached (ha' ▸ ha)
      · simp [ha'] at ha

theorem Op.valid_of_routine (h : op.routine = true) : op.Valid s := by
  cases op with
  | waitForHost => cases h
  | reap => cases h
  | _ => trivial

/-- What an operation pushes is valid: the monitor reads the generation together with the
    handle, and a wait ends with the exit of the tracked process, if it is still tracked. -/
theorem Pushed.valid {o : Op} (hp : Pushed e s op o) (h : Tracked s) (hop : op.Valid s)
    (hen : op.enabled e s) : o.Valid s := by
  cases hp with
  | routine hr => exact Op.valid_of_routine hr
  | clearAttached => trivial
  | waitForHost hp => exact ⟨le_rfl, fun _ => hp⟩
  | reap hw =>
    refine ⟨hop.1, fun hg => eq_empty_of_forall_notMem fun q hq => ?_⟩
    obtain rfl := Option.some.inj ((h.handle q hq).symm.trans (hop.2 hg))
    simp [Op.enabled, hw, hq, hg] at hen

/-- The operations of a stack stay valid. -/
theorem next_valid (h : Tracked s) (hop : op.Valid s) (hen : op.enabled e s)
    (hrest : ∀ o ∈ rest, o.Valid s) : ∀ o ∈ op.next cfg e rest s, o.Valid s :=
  fun o ho => (next_pushed cfg e rest s op o ho).elim (hrest o) (·.valid h hop hen)

/-- The invariant of the system: it keeps track of the live process, and what the
    threads are about to do is valid. -/
structure Supervised (s : System) : Prop where
  tracked : Tracked s.sup
  monitor : ∀ ops ∈ s.sup.monitorThread, ∀ o ∈ ops, o.Valid s.sup
  clients : ∀ i, ∀ o ∈ s.clients i, o.Valid s.sup

theorem ops_valid (c : Call) : ∀ o ∈ c.ops cfg, o.Valid s := by
  cases c with
  | start =>
    rw [Call.ops, start]
    split_ifs <;> simp [Op.Valid]
  | stop => simp [Call.ops, stop, Op.Valid]
  | restart => simp [Call.ops, restart, Op.Valid]

/-- An operation keeps the monitor thread, joins it, or starts it. -/
theorem effect_monitor_valid (h : ∀ ops ∈ s.monitorThread, ∀ o ∈ ops, o.Valid s)
    (he : Evolves s (op.effect cfg e s)) :
    ∀ ops ∈ (op.effect cfg e s).monitorThread, ∀ o ∈ ops, o.Valid (op.effect cfg e s) := by
  by_cases hs : op = .startMonitor
  · subst hs
    simp [Op.effect, Op.Valid]
  · by_cases hj : op = .joinMonitor
    · subst hj
      simp [Op.effect]
    · rw [effect_monitorThread hs hj]
      exact fun ops ho o hm => (h ops ho o hm).mono he

theorem Supervised.step {s s' : System} {a : Action} (h : Supervised s)
    (hs : step cfg s a = some s') : Supervised s' := by
  cases a with
  | call i c =>
    rw [Host.step] at hs
    split_ifs at hs
    cases hs
    refine ⟨h.tracked, h.monitor, fun j => ?_⟩
    by_cases hj : j = i
    · subst hj
      simpa using ops_valid c
    · simpa [hj] using h.clients j
  | client i e =>
    obtain ⟨op, rest, hop, hen, rfl⟩ := step_client hs
    have hc := h.clients i
    rw [hop, List.forall_mem_cons] at hc
    -- The pending operations of the others stay valid, as the supervisor only evolves.
    obtain ⟨ht, he⟩ := h.tracked.effect hc.1
    refine ⟨ht, effect_monitor_valid h.monitor he, fun j => ?_⟩
    by_cases hj : j = i
    · subst hj
      simpa using fun o ho => (next_valid h.tracked hc.1 hen hc.2 o ho).mono he
    · simpa [hj] using fun o ho => (h.clients j o ho).mono he
  | monitor e =>
    obtain ⟨op, rest, hop, hen, rfl⟩ := step_monitor hs
    have hm := h.monitor _ hop
    rw [List.forall_mem_cons] at hm
    obtain ⟨ht, he⟩ : Tracked (op.effect cfg e s.sup) ∧ Evolves s.sup (op.effect cfg e s.sup) :=
      h.tracked.effect hm.1
    refine ⟨⟨ht.handle, ht.attached⟩, ?_, fun j o ho => (h.clients j o ho).mono he⟩
    rintro ops ⟨⟩ o ho
    exact (next_valid h.tracked hm.1 hen hm.2 o ho).mono he
  | exit p =>
    rw [Host.step] at hs
    split_ifs at hs
    cases hs
    have he : Evolves s.sup { s.sup with alive := s.sup.alive.erase p } :=
      .inr ⟨rfl, rfl, erase_subset ..⟩
    refine ⟨⟨fun q hq => h.tracked.handle q (mem_of_mem_erase hq), fun ha => ?_⟩,
      fun ops ho o hm => (h.monitor ops ho o hm).mono he, fun j o ho => (h.clients j o ho).mono he⟩
    simp only [h.tracked.attached ha, erase_empty]
  | advance ms =>
    cases hs
    have he : Evolves s.sup { s.sup with now := s.sup.now + ms } :=
      .inr ⟨rfl, rfl, Finset.Subset.refl _⟩
    exact ⟨⟨h.tracked.handle, h.tracked.attached⟩,
      fun ops ho o hm => (h.monitor ops ho o hm).mono he, fun j o ho => (h.clients j o ho).mono he⟩

/-- A single host: in every run of the supervisor, at most one process it has
    spawned is alive, and its handle refers to it. -/
theorem single_host (cfg : Config) (as : List Action) (s : System) (h : (machine cfg).Run as s) :
    s.sup.alive.card ≤ 1 ∧ ∀ p ∈ s.sup.alive, s.sup.processHandle = some p := by
  have hinit (s : System) (hs : s ∈ (machine cfg).init) : Supervised s := by
    obtain rfl : s = _ := hs
    exact ⟨.of_alive_eq_empty rfl, by simp [Supervisor.fresh], by simp⟩
  have hinv : Supervised s := h.invariant hinit fun _ _ _ hi _ hs => hi.step hs
  refine ⟨Finset.card_le_one.2 fun p hp q hq => ?_, hinv.tracked.handle⟩
  exact Option.some.inj ((hinv.tracked.handle p hp).symm.trans (hinv.tracked.handle q hq))

/-- A host that is restarted: the client `0` starts the supervisor, the client
    `1` restarts the host, and the monitor, which waited for the first process,
    finds that the generation has changed. -/
def restartWhileWaiting : List Action :=
  [Action.call 0 .start] ++ List.replicate 4 (Action.client 0 {}) ++
    [Action.client 0 { creates := true }] ++ [Action.client 0 {}] ++
    List.replicate 4 (Action.monitor {}) ++ [Action.call 1 .restart] ++
    List.replicate 6 (Action.client 1 {}) ++ [Action.client 1 { creates := true }] ++
    [Action.monitor { wait := .object }, .monitor {}, .monitor {}]

theorem single_host_restarted : ∃ s, (machine ⟨true, true, false⟩).Run restartWhileWaiting s ∧
    s.sup.alive = {1} ∧ s.sup.alive.card ≤ 1 ∧ ∀ p ∈ s.sup.alive, s.sup.processHandle = some p := by
  refine Machine.exists_runIf_of _ (P := (·.sup.alive = {1})) ⟨.fresh, fun _ => []⟩ (by rfl)
    (by decide +kernel) ?_
  exact fun s hrun hs => ⟨hs, single_host _ _ s hrun⟩

end WKOpenVR.Host
