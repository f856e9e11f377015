import WKOpenVR.Host.Supervisor
import Mathlib.Data.List.DropRight

/-!
# The circuit breaker

The supervisor halts, and respawns no more, after `circuitBreakerThreshold` fast
exits of its host. What counts is recorded as the run goes (`breakerEvents`): the
exits the monitor handles for the generation that is then current, and the
resets. In every run, the supervisor is halted if and only if that many fast
exits have been handled since the last reset (`halted_iff`).

A host that exits because another instance runs (`isCleanSingletonExit`) neither
counts as a fast exit nor, however long it has lived, as a slow one, which would
reset the counter. The lifetime of a host is what the monitor measures: from when
it first saw the generation to when it reaps the process.
-/

namespace WKOpenVR.Host

open List

/-! ## Events -/

/-- What the circuit breaker goes by. -/
inductive BreakerEvent
  /-- The reset by `Start`, `Restart` or `Stop`. -/
  | reset
  /-- An exit handled for the then-current generation. -/
  | exit (code uptimeMs : ℕ)
  deriving DecidableEq, Repr

namespace BreakerEvent

/-- A fast exit, other than of a duplicate host. -/
def fast : BreakerEvent → Bool
  | .reset => false
  | .exit code uptimeMs => uptimeMs < fastExitThresholdMs ∧ !isCleanSingletonExit code

/-- A reset, or a slow exit, other than of a duplicate host. -/
def resets : BreakerEvent → Bool
  | .reset => true
  | .exit code uptimeMs => fastExitThresholdMs ≤ uptimeMs ∧ !isCleanSingletonExit code

/-- A reset, or any slow exit. -/
def resetOrSlow : BreakerEvent → Bool
  | .reset => true
  | .exit _ uptimeMs => fastExitThresholdMs ≤ uptimeMs

end BreakerEvent

/-- The number of fast exits since the last event that `resets`. -/
def fastSince (resets : BreakerEvent → Bool) (es : List BreakerEvent) : ℕ :=
  (es.rtakeWhile fun ev => !resets ev).countP BreakerEvent.fast

def Op.breakerEvents (e : Answers) (s : Supervisor) : Op → List BreakerEvent
  | .resetForStart => [.reset]
  | .resetBreaker => [.reset]
  | .reap m generation =>
    if s.spawnGeneration = generation ∧ s.processHandle.isSome then
      [.exit e.exitCode (s.now - m.trackedSince)] else []
  | _ => []

def breakerEvents (s : System) : Action → List BreakerEvent
  | .client i e => ((s.clients i).head?.map (Op.breakerEvents e s.sup)).getD []
  | .monitor e => ((s.sup.monitorThread.bind List.head?).map (Op.breakerEvents e s.sup)).getD []
  | _ => []

section Since

variable {resets : BreakerEvent → Bool} {es : List BreakerEvent} {ev : BreakerEvent}

theorem fastSince_of_resets (h : resets ev = true) : fastSince resets (es ++ [ev]) = 0 := by
  simp [fastSince, h]

theorem fastSince_of_not_resets (h : resets ev = false) :
    fastSince resets (es ++ [ev]) = fastSince resets es + if ev.fast then 1 else 0 := by
  rw [fastSince, rtakeWhile_concat, if_pos (by simp [h]), countP_append,
    countP_singleton, fastSince]

end Since

/-! ## The counter -/

/-- The counter is what the events say, and the supervisor is halted when it has
    reached the threshold. -/
structure Counts (s : Supervisor) (es : List BreakerEvent) : Prop where
  counter : s.consecutiveFastExits = fastSince BreakerEvent.resets es
  halted : s.halted = true ↔ circuitBreakerThreshold ≤ s.consecutiveFastExits

variable {cfg : Config} {e : Answers} {op : Op} {rest : List Op} {s s' : Supervisor}
  {es : List BreakerEvent}

/-- Without an event, the counter stays as it is. -/
theorem Counts.of_eq (h : Counts s es) (hc : s'.consecutiveFastExits = s.consecutiveFastExits)
    (hh : s'.halted = s.halted) : Counts s' (es ++ []) := by
  rw [append_nil]
  exact ⟨hc.trans h.counter, by rw [hh, hc, h.halted]⟩

/-- A reset clears the counter. -/
theorem Counts.reset (hc : s.consecutiveFastExits = 0) (hh : s.halted = false) :
    Counts s (es ++ [.reset]) := by
  refine ⟨?_, ?_⟩
  · rw [hc, fastSince_of_resets rfl]
  · simp [hc, hh, circuitBreakerThreshold]

open BreakerEvent

variable {m : Monitor}

/-- The exit of the tracked process counts as its event says, if the supervisor is
    not halted yet. -/
theorem Counts.reap (h : Counts s es) (hh : s.halted = false) :
    Counts (s.reap m e) (es ++ [.exit e.exitCode (s.now - m.trackedSince)]) := by
  have hlt : s.consecutiveFastExits < circuitBreakerThreshold := by
    by_contra hle
    rw [h.halted.2 (not_lt.1 hle)] at hh
    cases hh
  simp only [Supervisor.reap, Supervisor.exitAction, decideHostExitAction, Bool.not_true,
    Bool.false_eq_true, if_false, hh, Bool.false_or]
  by_cases hcode : isCleanSingletonExit e.exitCode
  · -- A duplicate host: the counter stays as it is, below the threshold.
    have hev : resets (.exit e.exitCode (s.now - m.trackedSince)) = false := by
      simp [resets, hcode]
    rw [if_pos hcode]
    refine ⟨?_, ?_⟩
    · rw [fastSince_of_not_resets hev, ← h.counter]
      simp [fast, hcode]
    · simpa using hlt
  · rw [if_neg hcode]
    by_cases hfast : s.now - m.trackedSince < fastExitThresholdMs
    · have hev : resets (.exit e.exitCode (s.now - m.trackedSince)) = false := by
        simp [resets, hfast]
      rw [if_pos hfast]
      refine ⟨?_, ?_⟩
      · rw [fastSince_of_not_resets hev, ← h.counter]
        split_ifs <;> simp_all [fast]
      · split_ifs with hle
        · simpa using hle
        · simpa using hle
    · have hev : resets (.exit e.exitCode (s.now - m.trackedSince)) = true := by
        simpa [resets, hcode] using hfast
      rw [if_neg hfast, if_neg (by decide)]
      refine ⟨?_, ?_⟩
      · rw [fastSince_of_resets hev]
      · simp [circuitBreakerThreshold]

/-! ## The monitor -/

/-- The operations that carry the local variables of the monitor loop. -/
def Op.ofMonitor : Op → Bool
  | .loop _ | .readTracked _ | .readHalted _ | .readAttached _ | .probeAttached _ => true
  | .retryUnlessStopped _ | .respawn _ | .waitForHost .. | .reap .. | .readBaseline _ => true
  | _ => false

/-- The operations on the process that the monitor has read. -/
def Op.watches : Op → Bool
  | .waitForHost .. | .reap .. => true
  | _ => false

theorem Op.ofMonitor_of_watches (h : op.watches = true) : op.ofMonitor = true := by
  cases op <;> first | rfl | cases h

theorem afterWait_ofMonitor {g : ℕ} {w : WaitResult} : (afterWait cfg m g w).ofMonitor = true := by
  cases w with
  | timeout =>
    rw [afterWait]
    split_ifs <;> rfl
  | _ => rfl

theorem countP_afterRead : (afterRead cfg s m).countP Op.ofMonitor = 1 := by
  simp only [afterRead]
  split
  · split <;> rfl
  · split <;> rfl

theorem countP_afterReap {g : ℕ} : (afterReap s m g e).countP Op.ofMonitor = 1 := by
  rw [afterReap]
  split
  · split
    · rfl
    · split_ifs <;> rfl
  · rfl

/-- The monitor loop has one copy of its variables: an operation passes them on at
    most once. -/
theorem countP_next_le (cfg : Config) (e : Answers) (rest : List Op) (s : Supervisor) (op : Op) :
    (op.next cfg e rest s).countP Op.ofMonitor ≤ (op :: rest).countP Op.ofMonitor := by
  cases op with
  | readTracked m =>
    rw [Op.next, countP_append, countP_afterRead, countP_cons_of_pos rfl, Nat.add_comm]
  | reap m g =>
    rw [Op.next, countP_append, countP_afterReap, countP_cons_of_pos rfl, Nat.add_comm]
  | waitForHost m p g =>
    rw [Op.next, countP_cons_of_neg (by simp [Op.ofMonitor]),
      countP_cons_of_pos afterWait_ofMonitor, countP_cons_of_pos rfl]
  | _ =>
    simp only [Op.next, restart, afterSpawn]
    try split_ifs
    all_goals simp [countP_cons, Op.ofMonitor]

theorem Op.not_watches_of_routine (h : op.routine = true) : op.watches = false := by
  cases op with
  | waitForHost => cases h
  | reap => cases h
  | _ => rfl

theorem afterRead_halted {o : Op} (hh : s.halted = true)
    (ho : o ∈ afterRead cfg s m) : o.watches = false := by
  simp only [afterRead, hh, if_true] at ho
  split at ho
  · rw [mem_singleton.1 ho]
    rfl
  · simp only [mem_cons, not_mem_nil, or_false] at ho
    rcases ho with rfl | rfl <;> rfl

/-- The monitor comes to watch a process by waiting for it, once it has read it with
    the supervisor not halted. -/
theorem watches_next {o : Op} (ho : o ∈ op.next cfg e rest s) (hw : o.watches = true) :
    o ∈ rest ∨ (∃ m p g, op = .waitForHost m p g) ∨
      ∃ m, op = .readTracked m ∧ s.halted = false := by
  rcases next_pushed cfg e rest s op o ho with hr | hp
  · exact .inl hr
  · cases hp with
    | routine hr => rw [Op.not_watches_of_routine hr] at hw; cases hw
    | clearAttached => cases hw
    | reap => exact .inr (.inl ⟨_, _, _, rfl⟩)
    | @waitForHost m =>
      rcases mem_append.1 ho with hm | hr
      · cases hh : s.halted with
        | false => exact .inr (.inr ⟨m, rfl, rfl⟩)
        | true => rw [afterRead_halted hh hm] at hw; cases hw
      · exact .inl hr

/-! ## The system -/

/-- What an operation does to the circuit breaker: nothing, a reset, or the handling
    of an exit. -/
theorem effect_breaker (cfg : Config) (e : Answers) (s : Supervisor) (op : Op) :
    ((op.effect cfg e s).consecutiveFastExits = s.consecutiveFastExits ∧
      (op.effect cfg e s).halted = s.halted ∧ op.breakerEvents e s = []) ∨
    ((op.effect cfg e s).consecutiveFastExits = 0 ∧
      (op.effect cfg e s).halted = false ∧ op.breakerEvents e s = [.reset]) ∨
    ∃ m g, op = .reap m g ∧ op.effect cfg e s = s.reap m e ∧
      op.breakerEvents e s = [.exit e.exitCode (s.now - m.trackedSince)] := by
  have hspawn : (s.spawn cfg e).1.consecutiveFastExits = s.consecutiveFastExits ∧
      (s.spawn cfg e).1.halted = s.halted := by
    rcases spawn_cases cfg e s with hs | ⟨-, hs⟩ | ⟨-, hs⟩ <;> rw [hs] <;> exact ⟨rfl, rfl⟩
  cases op with
  | spawn | respawn _ => exact .inl ⟨hspawn.1, hspawn.2, rfl⟩
  | kill =>
    rw [Op.effect, Supervisor.kill]
    split <;> exact .inl ⟨rfl, rfl, rfl⟩
  | ensureOwnerLease =>
    rw [Op.effect]
    split_ifs <;> exact .inl ⟨rfl, rfl, rfl⟩
  | resetForStart | resetBreaker => exact .inr (.inl ⟨rfl, rfl, rfl⟩)
  | reap m g =>
    rw [Op.effect, Op.breakerEvents]
    split_ifs
    · exact .inr (.inr ⟨m, g, rfl, rfl, rfl⟩)
    · exact .inl ⟨rfl, rfl, rfl⟩
  | _ => exact .inl ⟨rfl, rfl, rfl⟩

/-- The counter follows the events. -/
theorem Counts.effect (h : Counts s es) (hw : op.watches = true → s.halted = false) :
    Counts (op.effect cfg e s) (es ++ op.breakerEvents e s) := by
  rcases effect_breaker cfg e s op with ⟨hc, hh, hev⟩ | ⟨hc, hh, hev⟩ | ⟨m, g, rfl, he, hev⟩
  · rw [hev]
    exact h.of_eq hc hh
  · rw [hev]
    exact .reset hc hh
  · rw [he, hev]
    exact h.reap (hw rfl)

/-- Only an exit that is handled halts the supervisor. -/
theorem effect_halted (hw : op.watches = false) (hh : s.halted = false) :
    (op.effect cfg e s).halted = false := by
  rcases effect_breaker cfg e s op with ⟨-, hh', -⟩ | ⟨-, hh', -⟩ | ⟨m, g, rfl, -⟩
  · exact hh'.trans hh
  · exact hh'
  · cases hw

/-- A stack of the monitor: one copy of its variables, and the supervisor is not
    halted while it watches a process. -/
structure Watchful (s : Supervisor) (ops : List Op) : Prop where
  single : ops.countP Op.ofMonitor ≤ 1
  watches : ∀ o ∈ ops, o.watches = true → s.halted = false

theorem Watchful.of_eq (h : Watchful s rest) (hh : s'.halted = s.halted) : Watchful s' rest :=
  ⟨h.single, fun o ho hw => hh.trans (h.watches o ho hw)⟩

/-- The monitor stays watchful. -/
theorem Watchful.next (h : Watchful s (op :: rest)) :
    Watchful (op.effect cfg e s) (op.next cfg e rest s) := by
  refine ⟨(countP_next_le cfg e rest s op).trans h.single, fun o ho hw => ?_⟩
  rcases watches_next ho hw with hr | ⟨m, p, g, rfl⟩ | ⟨m, rfl, hh⟩
  · -- The operation is not of the monitor, as the one that watches is.
    have hpos : 0 < rest.countP Op.ofMonitor :=
      countP_pos_iff.2 ⟨o, hr, Op.ofMonitor_of_watches hw⟩
    have hop : op.watches = false := by
      refine Bool.eq_false_iff.2 fun hop => ?_
      have := h.single
      rw [countP_cons_of_pos (Op.ofMonitor_of_watches hop)] at this
      omega
    exact effect_halted hop (h.watches o (mem_cons_of_mem _ hr) hw)
  · exact h.watches _ mem_cons_self rfl
  · exact hh

/-- The invariant: the counter is right, and only the monitor watches the process. -/
structure Guarded (s : System) (es : List BreakerEvent) : Prop where
  counts : Counts s.sup es
  monitor : ∀ ops ∈ s.sup.monitorThread, Watchful s.sup ops
  clients : ∀ i, (s.clients i).countP Op.ofMonitor = 0

theorem ops_ofMonitor (c : Call) : (c.ops cfg).countP Op.ofMonitor = 0 := by
  cases c with
  | start =>
    rw [Call.ops, start]
    split_ifs <;> rfl
  | stop => rfl
  | restart => rfl

/-- An operation of a client keeps the monitor thread, joins it, or starts it. -/
theorem effect_monitor_watchful (h : ∀ ops ∈ s.monitorThread, Watchful s ops)
    (hw : op.watches = false) :
    ∀ ops ∈ (op.effect cfg e s).monitorThread, Watchful (op.effect cfg e s) ops := by
  by_cases hs : op = .startMonitor
  · subst hs
    rintro ops ⟨⟩
    exact ⟨le_rfl, by simp [Op.watches]⟩
  · by_cases hj : op = .joinMonitor
    · subst hj
      simp [Op.effect]
    · rw [effect_monitorThread hs hj]
      exact fun ops ho => ⟨(h ops ho).single, fun o hm hwo =>
        effect_halted hw ((h ops ho).watches o hm hwo)⟩

theorem Guarded.step {s s' : System} {a : Action} (h : Guarded s es)
    (hs : step cfg s a = some s') : Guarded s' (es ++ breakerEvents s a) := by
  cases a with
  | call i c =>
    rw [Host.step] at hs
    split_ifs at hs
    cases hs
    refine ⟨h.counts.of_eq rfl rfl, h.monitor, fun j => ?_⟩
    by_cases hj : j = i
    · subst hj
      simpa using ops_ofMonitor c
    · simpa [hj] using h.clients j
  | client i e =>
    obtain ⟨op, rest, hop, hen, rfl⟩ := step_client hs
    have hc := h.clients i
    rw [hop, countP_eq_zero] at hc
    -- Only the monitor watches the process, and a client has none of its operations.
    have hw : op.watches = false := by
      refine Bool.eq_false_iff.2 fun hw => ?_
      exact hc op mem_cons_self (Op.ofMonitor_of_watches hw)
    refine ⟨?_, effect_monitor_watchful h.monitor hw, fun j => ?_⟩
    · have heffect : Counts (op.effect cfg e s.sup) (es ++ op.breakerEvents e s.sup) :=
        h.counts.effect (by simp [hw])
      simpa [breakerEvents, hop] using heffect
    · by_cases hj : j = i
      · subst hj
        have hle := countP_next_le cfg e rest s.sup op
        rw [← hop, h.clients j] at hle
        simpa using hle
      · simpa [hj] using h.clients j
  | monitor e =>
    obtain ⟨op, rest, hop, hen, rfl⟩ := step_monitor hs
    have hm := h.monitor _ hop
    have hev : breakerEvents s (.monitor e) = op.breakerEvents e s.sup := by
      simp [breakerEvents, hop]
    have hcounts : Counts (op.effect cfg e s.sup) (es ++ op.breakerEvents e s.sup) :=
      h.counts.effect (hm.watches op mem_cons_self)
    refine ⟨?_, ?_, h.clients⟩
    · rw [hev]
      exact ⟨hcounts.counter, hcounts.halted⟩
    · rintro ops ⟨⟩
      have hnext : Watchful (op.effect cfg e s.sup) (op.next cfg e rest s.sup) := hm.next
      exact hnext.of_eq rfl
  | exit p =>
    rw [Host.step] at hs
    split_ifs at hs
    cases hs
    exact ⟨h.counts.of_eq rfl rfl, fun ops ho => (h.monitor ops ho).of_eq rfl, h.clients⟩
  | advance ms =>
    cases hs
    exact ⟨h.counts.of_eq rfl rfl, fun ops ho => (h.monitor ops ho).of_eq rfl, h.clients⟩

/-- The circuit breaker: in every run, the supervisor is halted if and only if
    `circuitBreakerThreshold` fast exits have been handled since the last reset; and
    an exit observed for another generation than the current one changes neither
    the circuit breaker nor the tracked process. -/
theorem halted_iff (cfg : Config) (as : List Action) (s : System) (es : List BreakerEvent)
    (h : ((machine cfg).recording breakerEvents).Run as (s, es)) :
    (s.sup.halted = true ↔ circuitBreakerThreshold ≤ fastSince BreakerEvent.resets es) ∧
    ∀ e s' m g rest, s.sup.monitorThread = some (.reap m g :: rest) → g ≠ s.sup.spawnGeneration →
      step cfg s (.monitor e) = some s' →
        s'.sup.consecutiveFastExits = s.sup.consecutiveFastExits ∧ s'.sup.halted = s.sup.halted ∧
        s'.sup.processHandle = s.sup.processHandle ∧ s'.sup.alive = s.sup.alive := by
  have hinv : Guarded s es := by
    refine h.invariant (I := fun p => Guarded p.1 p.2) ?_ fun p a p' hi _ hs => ?_
    · rintro ⟨s, es⟩ ⟨hs, rfl : es = []⟩
      obtain rfl : s = _ := hs
      refine ⟨⟨rfl, ?_⟩, ?_, fun i => rfl⟩
      · simp [Supervisor.fresh, circuitBreakerThreshold]
      · simp [Supervisor.fresh]
    · obtain ⟨hs, hes⟩ := Machine.recording_step hs
      rw [hes]
      exact hi.step hs
  refine ⟨?_, fun e s' m g rest hm hg hs => ?_⟩
  · rw [← hinv.counts.counter]
    exact hinv.counts.halted
  · obtain ⟨op, rest', hop, -, rfl⟩ := step_monitor hs
    obtain ⟨rfl, rfl⟩ := List.cons.inj (Option.some.inj (hm.symm.trans hop))
    -- The reap is not for the current generation.
    have he : Op.effect cfg e s.sup (.reap m g) = s.sup := if_neg fun h => hg h.1.symm
    simp only [he, and_self]

/-- The answers when hosts start as asked, and exit with `code`. -/
def exitAnswers (code : ℕ) : Answers := { creates := true, wait := .object, exitCode := code }

/-- The client `0` starts the supervisor, and the monitor reads the first host. -/
def startHost : List Action :=
  .call 0 .start :: List.replicate 6 (.client 0 (exitAnswers 0)) ++
    List.replicate 4 (.monitor (exitAnswers 0))

/-- The host `p` exits with `code` after `ms`, and the monitor does `n` operations. -/
def exitHost (p code ms n : ℕ) : List Action :=
  .advance ms :: .exit p :: List.replicate n (.monitor (exitAnswers code))

/-- Four fast exits, each with the respawn after a second. -/
def fourFastExits : List Action :=
  startHost ++ exitHost 0 1 10 43 ++ exitHost 1 1 10 43 ++ exitHost 2 1 10 43 ++ exitHost 3 1 10 43

/-- `halted_iff` after a fifth one. -/
theorem halted_iff_fifth_exit : ∃ s es,
    ((machine ⟨true, false, false⟩).recording breakerEvents).Run
      (fourFastExits ++ exitHost 4 1 10 3) (s, es) ∧
    fastSince BreakerEvent.resets es = 5 ∧ s.sup.halted = true := by
  obtain ⟨⟨s, es⟩, hrun, hfive⟩ :
      ∃ p, ((machine ⟨true, false, false⟩).recording breakerEvents).Run
        (fourFastExits ++ exitHost 4 1 10 3) p ∧ fastSince BreakerEvent.resets p.2 = 5 :=
    Machine.exists_runIf _ (⟨.fresh, fun _ => []⟩, []) ⟨rfl, rfl⟩ (by decide +kernel)
  exact ⟨s, es, hrun, hfive, (halted_iff _ _ s es hrun).1.2 hfive.ge⟩

/-- A slow exit of a duplicate host is no reset: after four fast exits and such an
    exit, the next fast one halts the supervisor. -/
theorem slow_duplicate_does_not_reset : ¬∀ cfg as s es,
    ((machine cfg).recording breakerEvents).Run as (s, es) →
      (s.sup.halted = true ↔ circuitBreakerThreshold ≤ fastSince BreakerEvent.resetOrSlow es) := by
  intro h
  obtain ⟨⟨s, es⟩, hrun, hhalted, hone⟩ :
      ∃ p, ((machine ⟨true, false, false⟩).recording breakerEvents).Run
        (fourFastExits ++ exitHost 4 3 2000 28 ++ exitHost 5 1 10 3) p ∧
        p.1.sup.halted = true ∧ fastSince BreakerEvent.resetOrSlow p.2 = 1 :=
    Machine.exists_runIf _ (⟨.fresh, fun _ => []⟩, []) ⟨rfl, rfl⟩ (by decide +kernel)
  have hle := (h _ _ s es hrun).1 hhalted
  rw [hone] at hle
  exact absurd hle (by decide)

end WKOpenVR.Host
