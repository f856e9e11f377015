import WKOpenVR.Host.Supervisor

/-!
# Stopping the supervisor

`Stop` requests the stop, kills the host, disables the lease, and only then
joins the monitor thread. The monitor checks for a stop before its operations,
but not atomically with them. So the guarantees of `Stop` depend on the monitor
not having passed such a check already: in every run in which

* the monitor does not spawn after the kill of `Stop`,
* it does not write the lease after `Stop` has disabled it, and
* no host is attached to when `Stop` kills (the kill ignores such a host),

no host is tracked or running after `Stop`, and the lease is disabled
(`stop_final`). Without these conditions, the monitor spawns a host that
outlives `Stop`, or writes the lease `alive` again (`stop_not_final`).
-/

namespace WKOpenVR.Host

open List

/-- `Start` followed by `Stop`, by the client `0`. -/
def stopMachine (cfg : Config) : Machine System Action where
  init := {⟨.fresh, fun i => if i = 0 then start cfg ++ stop else []⟩}
  step := step cfg

/-- The next operation of the monitor. -/
def System.monitorOp (s : System) : Option Op := s.sup.monitorThread.bind List.head?

/-- No call but those of the client `0`, and no action of the monitor that gets
    past `Stop`: while `Stop` has still to kill, the monitor may spawn, and while
    it has still to disable the lease, the monitor may write it. -/
def Undisturbed (s : System) : Action → Prop
  | .call _ _ => False
  | .client i _ => (s.clients i).head? = some .kill → s.sup.attachedToExisting = false
  | .monitor _ => ∀ op ∈ s.monitorOp,
      (op.spawns → .kill ∈ s.clients 0) ∧
      (op.writesLease → .markOwnerLeaseDisabled ∈ s.clients 0)
  | .exit _ => True
  | .advance _ => True

instance : DecidableRel Undisturbed
  | _, .call _ _ => inferInstanceAs (Decidable False)
  | _, .client _ _ => inferInstanceAs (Decidable (_ → _))
  | s, .monitor _ => inferInstanceAs (Decidable (∀ op ∈ s.monitorOp, _ ∧ _))
  | _, .exit _ => inferInstanceAs (Decidable True)
  | _, .advance _ => inferInstanceAs (Decidable True)

/-- The operations that may stand anywhere in the stack of the monitor: neither
    those of `Start` and `Stop` alone, nor the one which clears the attachment,
    which is only ever the next. -/
def Op.plain : Op → Bool
  | .resetForStart => false
  | .ensureOwnerLease => false
  | .markOwnerLeaseDisabled => false
  | .clearAttached => false
  | _ => true

/-- A host is tracked or attached to. -/
def Supervisor.Hosted (s : Supervisor) : Prop := s.processHandle.isSome ∨ s.attachedToExisting

/-- The stacks of `Start` followed by `Stop`, one of them at a heartbeat. -/
def phases : List (List Op) :=
  (.heartbeat :: .spawn :: .startMonitor :: stop) :: (start ⟨true, true, true⟩ ++ stop).tails

/-- The invariant of `Start` followed by `Stop`, by what is still to be done. -/
structure Stopping (s : System) : Prop where
  phase : s.clients 0 ∈ phases
  others : ∀ i ≠ 0, s.clients i = []
  fresh : .resetForStart ∈ s.clients 0 → s.sup.running = false ∧ s.sup.monitorThread = none
  plain : ∀ op ops, s.sup.monitorThread = some (op :: ops) →
    (op = .clearAttached ∨ op.plain) ∧ ∀ o ∈ ops, o.plain
  notStarted : .startMonitor ∈ s.clients 0 → s.sup.monitorThread = none
  /-- Without a host, `running_` is only true until the monitor stores it. -/
  running : s.sup.running → s.sup.Hosted ∨ ∃ b, s.monitorOp = some (.storeNotRunning b)
  cleared : s.monitorOp = some .clearAttached → s.sup.running = false
  killed : .kill ∉ s.clients 0 → ¬s.sup.Hosted
  disabled : .markOwnerLeaseDisabled ∉ s.clients 0 →
    s.sup.ownerLease = none ∨ s.sup.ownerLease = some .disabled
  joined : .joinMonitor ∉ s.clients 0 → s.sup.monitorThread = none

open Supervisor

variable {cfg : Config} {s s' : System} {e : Answers} {op : Op} {rest : List Op}

theorem stopping_init (hs : s ∈ (stopMachine cfg).init) : Stopping s := by
  obtain rfl : s = _ := hs
  refine ⟨?_, by simp +contextual, fun _ => ⟨rfl, rfl⟩, by simp [fresh],
    fun _ => rfl, by simp [fresh], fun _ => rfl, by simp [stop], by simp [stop],
    by simp [stop]⟩
  simp only [if_pos, start]
  split_ifs <;> decide

/-- The running flag: set without a host only if it was before, or by a reap. -/
theorem effect_running (rest : List Op) {s : Supervisor}
    (hclear : op = .clearAttached ∨ op = .resetForStart → s.running = false)
    (h : (op.effect cfg e s).running) :
    (op.effect cfg e s).Hosted ∨
    ((∃ m g, op = .reap m g) ∧ (op.next cfg e rest s).head? = some (.storeNotRunning false)) ∨
    (s.running ∧ ¬s.Hosted ∧ ∀ b, op ≠ .storeNotRunning b) := by
  rcases effect_tracked cfg e rest s op with ⟨hop, he⟩ | ⟨rfl, he⟩ | ⟨m, rfl, -, -, hn⟩ | hu
  · have hne : ∀ b, op ≠ .storeNotRunning b := by rintro b rfl; simp [Op.spawns] at hop
    rw [he] at h ⊢
    rcases spawn_cases cfg e s with hs | ⟨-, hs⟩ | ⟨-, hs⟩ <;> rw [hs] at h ⊢
    · by_cases hh : s.Hosted
      · exact .inl hh
      · exact .inr (.inr ⟨h, hh, hne⟩)
    · exact .inl (.inr rfl)
    · exact .inl (.inl rfl)
  · rw [he] at h ⊢
    rw [kill] at h ⊢
    split at h
    · by_cases hh : s.Hosted
      · exact .inl hh
      · exact .inr (.inr ⟨h, hh, by simp⟩)
    · simp at h
  · exact .inr (.inl ⟨⟨m, _, rfl⟩, hn⟩)
  · rcases hu.running with ⟨hr, hne⟩ | ⟨-, hr⟩
    · rw [hr] at h
      rcases hu.attached with ha | ⟨hop, -⟩
      · rw [Supervisor.Hosted, hu.processHandle, ha]
        by_cases hh : s.Hosted
        · exact .inl hh
        · exact .inr (.inr ⟨h, hh, hne⟩)
      · simp [hclear hop] at h
    · simp [hr] at h

/-- Only spawning sets the running flag. -/
theorem effect_running_of_not_spawns {s : Supervisor} (hop : op.spawns = false)
    (h : s.running = false) : (op.effect cfg e s).running = false := by
  rcases effect_tracked cfg e [] s op with ⟨hs, -⟩ | ⟨rfl, he⟩ | ⟨m, -, -, he, -⟩ | hu
  · simp [hop] at hs
  · rw [he, kill]
    split
    · exact h
    · rfl
  · rw [he]
    exact h
  · rcases hu.running with ⟨hr, -⟩ | ⟨-, hr⟩
    · rw [hr, h]
    · exact hr

/-- Only spawning brings about a host. -/
theorem effect_not_hosted {s : Supervisor} (hop : op.spawns = false) (h : ¬s.Hosted) :
    ¬(op.effect cfg e s).Hosted := by
  rcases effect_tracked cfg e [] s op with ⟨hs, -⟩ | ⟨rfl, he⟩ | ⟨m, -, hp, -, -⟩ | hu
  · simp [hop] at hs
  · rw [he, kill]
    split
    · exact h
    · simp [Supervisor.Hosted]
  · exact absurd (.inl hp) h
  · rw [Supervisor.Hosted, hu.processHandle]
    rcases hu.attached with ha | ⟨-, ha⟩
    · rw [ha]
      exact h
    · rw [ha]
      exact fun hh => h (.inl (hh.resolve_right (by simp)))

theorem Op.plain_of_routine {o : Op} (h : o.routine = true) : o.plain := by
  cases o with
  | resetForStart | ensureOwnerLease | markOwnerLeaseDisabled | clearAttached => cases h
  | _ => rfl

/-- The operations pushed are plain, but for the one clearing the attachment. -/
theorem next_plain (cfg : Config) (e : Answers) (s : Supervisor) (op : Op)
    (h : ∀ o ∈ rest, o.plain) :
    (op = .storeNotRunning true ∧ op.next cfg e rest s = .clearAttached :: rest) ∨
      ∀ o ∈ op.next cfg e rest s, o.plain := by
  by_cases hop : op = .storeNotRunning true
  · subst hop
    exact .inl ⟨rfl, rfl⟩
  · refine .inr fun o ho => ?_
    rcases next_pushed cfg e rest s op o ho with hr | hp
    · exact h o hr
    · cases hp with
      | routine hr => exact Op.plain_of_routine hr
      | clearAttached => exact absurd rfl hop
      | waitForHost => rfl
      | reap => rfl

theorem Stopping.monitor (h : Stopping s) (hu : Undisturbed s (.monitor e))
    (hs : step cfg s (.monitor e) = some s') : Stopping s' := by
  obtain ⟨op, rest, hop, -, rfl⟩ := step_monitor hs
  have hmon : s.monitorOp = some op := by rw [System.monitorOp, hop]; rfl
  obtain ⟨hspawns, hwrites⟩ := hu op hmon
  obtain ⟨hhead, hplain⟩ := h.plain op rest hop
  have hlive (ht : s.sup.monitorThread = none) : False := by simp [hop] at ht
  -- The attachment is only cleared once the host is not running.
  have hclear : op = .clearAttached ∨ op = .resetForStart → s.sup.running = false := by
    rintro (rfl | rfl)
    · exact h.cleared hmon
    · simp [Op.plain] at hhead
  refine ⟨h.phase, h.others, fun hr => (hlive (h.fresh hr).2).elim, fun o ops ho => ?_,
    fun hm => (hlive (h.notStarted hm)).elim, fun hr => ?_, fun hc => ?_, fun hk => ?_,
    fun hd => ?_, fun hj => (hlive (h.joined hj)).elim⟩
  · have hnext : op.next cfg e rest s.sup = o :: ops := Option.some.inj ho
    rcases next_plain cfg e s.sup op hplain with ⟨-, hn⟩ | hn
    · rw [hnext, List.cons.injEq] at hn
      exact ⟨.inl hn.1, hn.2 ▸ hplain⟩
    · rw [hnext, forall_mem_cons] at hn
      exact ⟨.inr hn.1, hn.2⟩
  · rcases effect_running rest hclear hr with hh | ⟨-, hn⟩ | ⟨hr', hh, hne⟩
    · exact .inl hh
    · exact .inr ⟨false, hn⟩
    · obtain ⟨b, hb⟩ := (h.running hr').resolve_left hh
      exact absurd (Option.some.inj (hmon.symm.trans hb)) (hne b)
  · have hn : (op.next cfg e rest s.sup).head? = some .clearAttached := hc
    rcases next_plain cfg e s.sup op hplain with ⟨rfl, -⟩ | hp
    · rfl
    · exact absurd (hp _ (mem_of_head? hn)) (by simp [Op.plain])
  · have hop' : op.spawns = false := by simpa using fun hsp => hk (hspawns hsp)
    exact effect_not_hosted hop' (h.killed hk)
  · have hop' : op.writesLease = false := by simpa using fun hw => hd (hwrites hw)
    have hlease : (op.effect cfg e s.sup).ownerLease = s.sup.ownerLease := by
      refine effect_ownerLease hop' ?_ ?_ <;> rintro rfl <;> simp [Op.plain] at hhead
    simpa only [hlease] using h.disabled hd

/-- The system after an operation of the client `0`. -/
def System.clientStep (s : System) (cfg : Config) (e : Answers) (op : Op) (rest : List Op) :
    System :=
  ⟨op.effect cfg e s.sup, Function.update s.clients 0 (op.next cfg e rest s.sup)⟩

@[simp] theorem clientStep_clients_zero :
    (s.clientStep cfg e op rest).clients 0 = op.next cfg e rest s.sup := by
  simp [System.clientStep]

theorem clientStep_clients {i : ℕ} (hi : i ≠ 0) :
    (s.clientStep cfg e op rest).clients i = s.clients i :=
  Function.update_of_ne hi ..

/-- An operation of `Start`, before it starts the monitor. -/
theorem Stopping.starting {next : List Op} (h : Stopping s) (hop : s.clients 0 = op :: rest)
    (hstart : .startMonitor :: stop <:+ rest) (hnext : op.next cfg e rest s.sup = next)
    (hphase : next ∈ phases) (hrest : rest ⊆ next) (hreset : .resetForStart ∉ next)
    (hmon : op ≠ .startMonitor ∧ op ≠ .joinMonitor ∧ op ≠ .clearAttached ∧ ∀ m g, op ≠ .reap m g) :
    Stopping (s.clientStep cfg e op rest) := by
  obtain ⟨hsm, hjoin, hclr, hreap⟩ := hmon
  have hmem {o : Op} (ho : o ∈ .startMonitor :: stop) : o ∈ next := hrest (hstart.subset ho)
  have hnone : s.sup.monitorThread = none := by
    refine h.notStarted ?_
    rw [hop]
    exact mem_cons_of_mem _ (hstart.subset mem_cons_self)
  have hnone' : (op.effect cfg e s.sup).monitorThread = none :=
    (effect_monitorThread hsm hjoin).trans hnone
  have hclear : op = .clearAttached ∨ op = .resetForStart → s.sup.running = false := by
    rintro (rfl | rfl)
    · exact absurd rfl hclr
    · exact (h.fresh (hop ▸ mem_cons_self)).1
  refine ⟨by simpa [hnext] using hphase, fun i hi => (clientStep_clients hi).trans (h.others i hi),
    ?_, ?_, fun _ => hnone', fun hr => ?_, ?_, ?_, ?_, fun _ => hnone'⟩
  · simp [hnext, hreset]
  · simp [System.clientStep, hnone']
  · rcases effect_running rest hclear hr with hh | ⟨⟨m, g, rfl⟩, -⟩ | ⟨hr', hh, -⟩
    · exact .inl hh
    · exact absurd rfl (hreap m g)
    · have := h.running hr'
      simp [hh, System.monitorOp, hnone] at this
  · simp [System.monitorOp, System.clientStep, hnone']
  · simp [hnext, hmem (o := .kill) (by simp [stop])]
  · simp [hnext, hmem (o := .markOwnerLeaseDisabled) (by simp [stop])]

/-- `Start` starting the monitor. -/
theorem Stopping.startMonitor (h : Stopping s) (hop : s.clients 0 = .startMonitor :: stop) :
    Stopping (s.clientStep cfg e .startMonitor stop) := by
  have hnone : s.sup.monitorThread = none := h.notStarted (hop ▸ mem_cons_self)
  refine ⟨?_, fun i hi => (clientStep_clients hi).trans (h.others i hi), ?_, ?_, ?_,
    fun hr => ?_, ?_, ?_, ?_, ?_⟩
  · rw [clientStep_clients_zero]
    exact (by decide : stop ∈ phases)
  · simp [Op.next, stop]
  · rintro o ops ⟨⟩
    simp [Op.plain]
  · simp [Op.next, stop]
  · have := h.running hr
    simp only [System.monitorOp, hnone, Option.bind_none, reduceCtorEq, exists_false, or_false]
      at this
    exact .inl this
  · rintro ⟨⟩
  · simp [Op.next, stop]
  · simp [Op.next, stop]
  · simp [Op.next, stop]

/-- The operations of `Stop`, with what is still to be done. -/
theorem stop_cases (hstop : op :: rest <:+ stop) (cfg : Config) (e : Answers) (s : Supervisor) :
    rest ∈ phases ∧ op.next cfg e rest s = rest ∧
    (.resetForStart ∉ rest ∧ .startMonitor ∉ rest) ∧
    (op.spawns = false ∧ op ≠ .startMonitor ∧ op ≠ .clearAttached ∧ op ≠ .resetForStart ∧
      ∀ m g, op ≠ .reap m g) ∧
    (.markOwnerLeaseDisabled ∉ op :: rest → op.writesLease = false ∧ op ≠ .ensureOwnerLease) := by
  simp only [stop, suffix_cons_iff, List.cons.injEq, suffix_nil, reduceCtorEq, or_false]
    at hstop
  rcases hstop with ⟨rfl, rfl⟩ | ⟨rfl, rfl⟩ | ⟨rfl, rfl⟩ | ⟨rfl, rfl⟩ | ⟨rfl, rfl⟩ | ⟨rfl, rfl⟩
  all_goals exact ⟨by decide, rfl, by decide, ⟨rfl, by simp, by simp, by simp, by simp⟩, by decide⟩

/-- An operation of `Stop`: what it has brought about before stays. -/
theorem Stopping.stopping (h : Stopping s) (hop : s.clients 0 = op :: rest)
    (hstop : op :: rest <:+ stop) (hen : op.enabled e s.sup)
    (hu : op = .kill → s.sup.attachedToExisting = false) :
    Stopping (s.clientStep cfg e op rest) := by
  obtain ⟨hphase, hnext, ⟨hreset, hsm⟩, ⟨hspawns, hsm', hclr, hrst, hreap⟩, hwrites⟩ :=
    stop_cases hstop cfg e s.sup
  have hmem {o : Op} (ho : o ≠ op) (h' : o ∉ rest) : o ∉ s.clients 0 := by
    rw [hop, mem_cons, not_or]
    exact ⟨ho, h'⟩
  have hsame (hj : op ≠ .joinMonitor) :
      (op.effect cfg e s.sup).monitorThread = s.sup.monitorThread := effect_monitorThread hsm' hj
  have hmon (hj : op ≠ .joinMonitor) : (s.clientStep cfg e op rest).monitorOp = s.monitorOp :=
    congrArg (·.bind List.head?) (hsame hj)
  -- Once the monitor can be joined, it has no operation left.
  have hjoin (hj : op = .joinMonitor) : s.monitorOp = none := by
    subst hj
    rcases (by simpa [Op.enabled] using hen : _ ∨ _) with ht | ht <;> simp [System.monitorOp, ht]
  refine ⟨by simpa [hnext] using hphase,
    fun i hi => (clientStep_clients hi).trans (h.others i hi), by simp [hnext, hreset],
    fun o ops ho => ?_, by simp [hnext, hsm], fun hr => ?_, fun hc => ?_, fun hk => ?_,
    fun hd => ?_, fun hj => ?_⟩
  · by_cases hj : op = .joinMonitor
    · subst hj
      cases ho
    · exact h.plain o ops ((hsame hj).symm.trans ho)
  · rcases effect_running rest (by simp [hclr, hrst]) hr with hh | ⟨⟨m, g, hr⟩, -⟩ | ⟨hr', hh, -⟩
    · exact .inl hh
    · exact absurd hr (hreap m g)
    · obtain ⟨b, hb⟩ := (h.running hr').resolve_left hh
      refine .inr ⟨b, (hmon fun hj => ?_).trans hb⟩
      simp [hjoin hj] at hb
  · by_cases hj : op = .joinMonitor
    · subst hj
      cases hc
    · exact effect_running_of_not_spawns hspawns (h.cleared ((hmon hj).symm.trans hc))
  · rw [clientStep_clients_zero, hnext] at hk
    by_cases hop' : op = .kill
    · subst hop'
      simp only [System.clientStep, Op.effect, kill, Supervisor.Hosted]
      split <;> simp_all
    · exact effect_not_hosted hspawns (h.killed (hmem (Ne.symm hop') hk))
  · rw [clientStep_clients_zero, hnext] at hd
    by_cases hop' : op = .markOwnerLeaseDisabled
    · subst hop'
      simp only [System.clientStep, Op.effect, writeLease]
      cases s.sup.ownerLease <;> simp
    · have hd' := hmem (Ne.symm hop') hd
      obtain ⟨hw, he⟩ := hwrites (hop ▸ hd')
      simpa only [System.clientStep, effect_ownerLease hw he hop'] using h.disabled hd'
  · rw [clientStep_clients_zero, hnext] at hj
    by_cases hop' : op = .joinMonitor
    · subst hop'
      rfl
    · exact (hsame hop').trans (h.joined (hmem (Ne.symm hop') hj))

theorem Stopping.client (h : Stopping s) (hu : Undisturbed s (.client 0 e))
    (hs : step cfg s (.client 0 e) = some s') : Stopping s' := by
  obtain ⟨op, rest, hop, hen, rfl⟩ := step_client hs
  have hphase := h.phase
  rw [hop, phases, mem_cons, List.cons.injEq, mem_tails] at hphase
  simp only [start, if_true, cons_append, nil_append, suffix_cons_iff, List.cons.injEq] at hphase
  -- Most operations of `Start` just go on.
  have hrest (hstart : .startMonitor :: stop <:+ rest) (hnext : op.next cfg e rest s.sup = rest)
      (hphase : rest ∈ phases) (hreset : .resetForStart ∉ rest) hmon :=
    h.starting hop hstart hnext hphase (List.Subset.refl rest) hreset hmon
  rcases hphase with
    ⟨rfl, rfl⟩ | ⟨rfl, rfl⟩ | ⟨rfl, rfl⟩ | ⟨rfl, rfl⟩ | ⟨rfl, rfl⟩ | ⟨rfl, rfl⟩ | hstop
  · exact hrest (by decide) rfl (by decide) (by decide) (by simp)
  · exact hrest (by decide) rfl (by decide) (by decide) (by simp)
  · exact hrest (by decide) rfl (by decide) (by decide) (by simp)
  · cases hstopped : s.sup.stopRequested with
    | true =>
      exact h.starting hop (by decide) (if_pos hstopped) (by decide) (by simp) (by decide) (by simp)
    | false =>
      exact h.starting hop (by decide) (if_neg (by simp [hstopped])) (by decide) (by simp)
        (by decide) (by simp)
  · exact hrest (by decide) rfl (by decide) (by decide) (by simp)
  · exact h.startMonitor hop
  · exact h.stopping hop hstop hen fun hk => hu (by rw [hop, hk]; rfl)

/-- Every undisturbed step keeps the invariant. -/
theorem Stopping.step {a : Action} (h : Stopping s) (hu : Undisturbed s a)
    (hs : step cfg s a = some s') : Stopping s' := by
  cases a with
  | call i c => exact hu.elim
  | client i e =>
    by_cases hi : i = 0
    · subst hi
      exact h.client hu hs
    · -- The other clients have nothing to do.
      simp [Host.step, h.others i hi] at hs
  | monitor e => exact h.monitor hu hs
  | exit p =>
    rw [Host.step] at hs
    split_ifs at hs
    cases hs
    exact ⟨h.phase, h.others, h.fresh, h.plain, h.notStarted, h.running, h.cleared, h.killed,
      h.disabled, h.joined⟩
  | advance ms =>
    cases hs
    exact ⟨h.phase, h.others, h.fresh, h.plain, h.notStarted, h.running, h.cleared, h.killed,
      h.disabled, h.joined⟩

/-- Stopping is final: along every undisturbed run of `Start` and `Stop` with the
    monitor, once `Stop` has returned, no host is tracked, none is running, and
    the lease (if there is one) is disabled. -/
theorem stop_final (cfg : Config) (as : List Action) (s : System)
    (h : (stopMachine cfg).RunIf Undisturbed as s) (hstop : s.clients 0 = []) :
    s.sup.processHandle = none ∧ s.sup.running = false ∧
      (s.sup.ownerLease = none ∨ s.sup.ownerLease = some .disabled) := by
  have hinv : Stopping s := h.invariant (fun _ => stopping_init) fun _ _ _ hi hC hs => hi.step hC hs
  have hhosted : ¬s.sup.Hosted := hinv.killed (by simp [hstop])
  have hmon : s.monitorOp = none := by
    rw [System.monitorOp, hinv.joined (by simp [hstop])]
    rfl
  refine ⟨?_, ?_, hinv.disabled (by simp [hstop])⟩
  · by_contra hp
    exact hhosted (.inl (Option.isSome_iff_ne_none.2 hp))
  · by_contra hr
    have := hinv.running (by simpa using hr)
    simp [hhosted, hmon] at this

/-- The supervisor of a module, in a release build. -/
def Config.release : Config := ⟨true, true, false⟩

/-- `Start`, with a lease, and with a spawn that succeeds or not. -/
def startActions (spawned : Bool) : List Action :=
  [.client 0 {}, .client 0 { creates := true }, .client 0 {}, .client 0 {},
    .client 0 { creates := spawned }, .client 0 {}]

/-- `Stop` up to disabling the lease. -/
def stopActions : List Action := List.replicate 4 (.client 0 {})

/-- The monitor waits for its host when `Stop` kills it. -/
def stopWhileWaiting : List Action :=
  startActions true ++ List.replicate 4 (Action.monitor {}) ++ stopActions ++
    [Action.monitor { wait := .object }, .monitor {}, .client 0 {}, .client 0 {}]

theorem stop_final_while_waiting : ∃ s,
    (stopMachine .release).RunIf Undisturbed stopWhileWaiting s ∧
      s.sup.processHandle = none ∧ s.sup.running = false ∧
      (s.sup.ownerLease = none ∨ s.sup.ownerLease = some .disabled) := by
  refine Machine.exists_runIf_of _ (P := (·.clients 0 = [])) _ (by rfl) (by decide) ?_
  exact fun s hrun hs => stop_final _ _ s hrun hs

/-- The first spawn fails, and `Stop` comes when the monitor, after its backoff,
    has checked for a stop and is about to spawn. -/
def stopWhileRespawning : List Action :=
  startActions false ++ List.replicate 38 (Action.monitor {}) ++ stopActions ++
    [Action.monitor { creates := true }, .monitor {}, .client 0 {}, .client 0 {}]

/-- `Stop` comes when the monitor has checked for a stop and is about to write
    the lease. -/
def stopWhileHeartbeating : List Action :=
  startActions true ++ List.replicate 2 (Action.monitor {}) ++ stopActions ++
    List.replicate 5 (Action.monitor {}) ++ [Action.client 0 {}, .client 0 {}]

/-- Stopping is not final in general: a host spawned by the monitor survives
    `Stop`, and so does a heartbeat of the monitor. -/
theorem stop_not_final :
    (∃ s, (stopMachine .release).Run stopWhileRespawning s ∧ s.clients 0 = [] ∧
      s.sup.processHandle = some 0 ∧ s.sup.running) ∧
    ∃ s, (stopMachine .release).Run stopWhileHeartbeating s ∧ s.clients 0 = [] ∧
      s.sup.ownerLease = some .alive :=
  ⟨Machine.exists_runIf _ _ (by rfl) (by decide), Machine.exists_runIf _ _ (by rfl) (by decide)⟩

end WKOpenVR.Host
