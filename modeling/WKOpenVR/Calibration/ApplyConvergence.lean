import WKOpenVR.Calibration.ApplyTracking

/-!
# The transforms the driver holds

The scans of the overlay, the send queue, its worker with the client, and the driver, as
one system (`System`). A scan reads the status of the queue, and computes its requests;
they are then enqueued one by one, while the worker sends what is queued. A send may fail,
the client may connect within it, and the queue may be full. The driver loses all
transforms when the client connects.

What the overlay keeps is what it has enqueued. It is what the driver will hold, once all
that is pending has been sent (`Inv.cached`), unless something was lost since the last scan
(`clean`). A scan notices a failure, or a request that was dropped, by the counters in the
status. It notices a new connection only if the send in which it was made has ended, and if
it is not taken for the first one. If this is so in every scan (`Settled`), the driver
holds, once everything is sent, what the last scan has computed (`converges`). Both can
fail in the code (`transforms_lost`).
-/

namespace WKOpenVR.Calibration.ProfileApply

open Text Ipc.SendQueue List Option Nat

variable {K : Type*}

/-- The entry the worker is sending. -/
def entries : Worker (Request K) → List (Entry (Request K))
  | .sending entry _ => [entry]
  | _ => []

/-- The overlay, the queue with its worker, and the driver. -/
structure System (K : Type*) where
  overlay : Overlay K
  queue : State (Request K)
  /-- `ConnectionGeneration` of the client of the worker. -/
  generation : ℕ
  /-- The transforms in the driver. -/
  driver : ℕ → Option (SetDeviceTransform K)
  /-- The last scan. -/
  last : Option (Scan K)
  /-- Since the status was last read by a scan, no send has failed, no request was dropped,
      and the client has not connected again. -/
  clean : Bool

namespace System

def fresh : System K where
  overlay := .fresh
  queue := .fresh
  generation := 0
  driver _ := none
  last := none
  clean := true

variable (s : System K)

/-- What is still to reach the driver, in order. -/
def pending : List (Entry (Request K)) :=
  entries s.queue.worker ++ s.queue.queue ++ s.overlay.outbox

/-- What the driver will hold once all that is pending has reached it. -/
def eventual : ℕ → Option (SetDeviceTransform K) := holdAll s.driver s.pending

/-- The next request of the scan is enqueued, by a call that starts the queue if needed. -/
def enqueue : Option (System K) :=
  match s.overlay.outbox with
  | [] => none
  | e :: outbox =>
    let queue := s.queue.start.enqueue e.request e.key
    some { s with
      overlay := { s.overlay with outbox }
      queue
      clean := s.clean && decide (queue.status.dropped = s.queue.start.status.dropped) }

/-- The client connects, within a send. -/
def connect : Option (System K) :=
  match s.queue.worker with
  | .sending _ _ => some { s with
      generation := s.generation + 1
      driver := fun _ => none
      clean := s.clean && decide (s.generation = 0) }
  | _ => none

/-- A request reaches the driver, if the client has connected. -/
def write : Option (System K) :=
  if s.generation = 0 then none
  else s.queue.write.map fun queue => { s with
    queue, driver := holdAll s.driver (entries s.queue.worker) }

variable [FloatArith K]

/-- A scan, when the requests of the last one have been enqueued. Without a VR system it does
    not read the status. -/
def scan (s : System K) (scan : Scan K) : Option (System K) :=
  match s.overlay.outbox with
  | [] => some { s with
      overlay := s.overlay.scanAndApplyProfile s.queue.status scan
      last := some scan
      clean := s.clean || scan.devices.isSome }
  | _ => none

end System

inductive Event (K : Type*)
  | scan (scan : Scan K)
  | enqueue
  | take
  | connect
  | write
  | finish (isConnected ok : Bool)

variable [FloatArith K] (s : System K)

def System.step : Event K → Option (System K)
  | .scan scan => s.scan scan
  | .enqueue => s.enqueue
  | .take => s.queue.take.map fun queue => { s with queue }
  | .connect => s.connect
  | .write => s.write
  | .finish isConnected ok =>
    (s.queue.finish ⟨isConnected, s.generation⟩ ok).map fun queue => { s with
      queue, clean := s.clean && ok }

/-- The overlay with the worker of its send queue. -/
def applyMachine : Machine (System K) (Event K) where
  init := {.fresh}
  step := System.step

/-- A scan can notice that the client has connected again: the send in which it did has
    ended, and the scan does not take it for the first connection. The numbers of its
    payloads are near themselves. -/
def Settled : Event K → Prop
  | .scan scan =>
    (s.generation ≤ 1 ∨ s.generation = s.queue.status.connectionGeneration ∧
      ¬s.overlay.firstConnect s.queue.status) ∧ scan.ctx.NearItself
  | _ => True

instance : DecidableRel (Settled (K := K)) := fun _ e =>
  match e with
  | .scan _ => inferInstanceAs (Decidable (_ ∧ _))
  | .enqueue | .take | .connect | .write | .finish _ _ => inferInstanceAs (Decidable True)

/-! ## The invariant -/

structure Inv (s : System K) : Prop where
  queue : Ipc.SendQueue.Inv s.queue
  stop : s.queue.stop = false
  /-- The counters are reset once, when they are zero. -/
  status : s.queue.started = false → s.queue.status = {}
  keyed : ∀ e ∈ s.pending, Keyed e
  seen_generation : s.overlay.lastSeenGeneration ≤ s.queue.status.connectionGeneration
  seen_failures : s.overlay.lastSeenFailures ≤ s.queue.status.sendFailures
  seen_dropped : s.overlay.lastSeenDropped ≤ s.queue.status.dropped
  generation : s.queue.status.connectionGeneration ≤ s.generation
  /-- The next scan can see that something was lost. -/
  lost : s.clean = false → s.overlay.lastSeenFailures < s.queue.status.sendFailures ∨
    s.overlay.lastSeenDropped < s.queue.status.dropped ∨
    s.overlay.lastSeenGeneration < s.generation ∧ 2 ≤ s.generation
  /-- A new connection was made since the last scan, if it is not published yet. -/
  unpublished : s.queue.status.connectionGeneration < s.generation → 2 ≤ s.generation →
    s.clean = false
  /-- The driver holds what is written, unless the client has connected again since. -/
  written : ∀ e writes, s.queue.worker = .sending e writes → writes ≠ 0 →
    s.generation ≠ 0 ∧ (hold s.driver e = s.driver ∨
      s.queue.status.connectionGeneration < s.generation ∧ 2 ≤ s.generation)
  driver : s.generation = 0 → s.driver = fun _ => none
  /-- What the overlay keeps is what the driver will hold. -/
  cached : s.clean = true → ∀ id p, s.overlay.lastApplied id = some p → s.eventual id = some p
  answered : ∀ id, s.overlay.Answered id
  computed : ∀ scan ∈ s.last, ∀ id < maxTrackedDeviceCount, (scan.device id).isSome = true →
    (s.overlay.computed id).isSome = true

variable {s} {s' : System K}

theorem Inv.fresh : Inv (System.fresh : System K) where
  queue := inv_fresh
  stop := rfl
  status _ := rfl
  keyed _ he := by cases he
  seen_generation := le_refl _
  seen_failures := le_refl _
  seen_dropped := le_refl _
  generation := le_refl _
  lost h := by cases h
  unpublished h := absurd h (lt_irrefl 0)
  written _ _ h := by cases h
  driver _ := rfl
  cached _ _ _ hp := by cases hp
  answered _ _ hpayload := by cases hpayload
  computed _ hscan := by cases hscan

/-- If something was lost, the scan forgets what was sent. -/
theorem Inv.forgets (h : Inv s) {scan : Scan K} (hsettled : Settled s (.scan scan))
    (hclean : s.clean = false) : s.overlay.forgets s.queue.status := by
  obtain ⟨hgeneration, -⟩ := hsettled
  rcases h.lost hclean with hlt | hlt | ⟨hlt, htwo⟩
  · refine ⟨.inr (.inl (ne_of_gt hlt)), fun hfirst => ?_⟩
    have := hfirst.2.1
    omega
  · refine ⟨.inr (.inr (ne_of_gt hlt)), fun hfirst => ?_⟩
    have := hfirst.2.2
    omega
  · rcases hgeneration with hone | ⟨hpublished, hfirst⟩
    · omega
    · exact ⟨.inl (by omega), hfirst⟩

theorem Inv.scan_none (h : Inv s) {scan : Scan K} (hnone : scan.devices.isNone = true) :
    Inv { s with
      overlay := s.overlay.scanAndApplyProfile s.queue.status scan
      last := some scan
      clean := s.clean || scan.devices.isSome } := by
  have hdevices := isNone_iff_eq_none.1 hnone
  have hoverlay : s.overlay.scanAndApplyProfile s.queue.status scan =
      { s.overlay with enabled := scan.ctx.validProfile, computed := fun _ => none } := by
    rw [Overlay.scanAndApplyProfile, if_pos hnone]
  rw [hoverlay, hdevices, isSome_none, Bool.or_false]
  refine ⟨h.queue, h.stop, h.status, h.keyed, h.seen_generation, h.seen_failures, h.seen_dropped,
    h.generation, h.lost, h.unpublished, h.written, h.driver, h.cached,
    fun id payload hpayload => ?_, fun scan' hscan id _ hdevice => ?_⟩
  · cases hpayload
  · obtain rfl : scan = scan' := by simpa using hscan
    rw [Scan.device, hdevices] at hdevice
    cases hdevice

theorem Inv.scan_some (h : Inv s) {scan : Scan K} (hsettled : Settled s (.scan scan))
    (hvr : ¬scan.devices.isNone = true) (hempty : s.overlay.outbox = []) : Inv { s with
      overlay := s.overlay.scanAndApplyProfile s.queue.status scan
      last := some scan
      clean := s.clean || scan.devices.isSome } := by
  have hclean : (s.clean || scan.devices.isSome) = true := by
    rw [Bool.not_eq_true, isNone_eq_false_iff] at hvr
    rw [hvr, Bool.or_true]
  obtain ⟨hseen, hfailures, hdropped⟩ := Overlay.scan_seen s.overlay s.queue.status hvr
  -- What is kept is what the driver will hold, unless the scan forgets it.
  have hsync : Overlay.Synced (holdAll s.driver (entries s.queue.worker ++ s.queue.queue))
      (s.overlay.scanAndApplyProfile s.queue.status scan) := by
    refine Overlay.synced_scan hvr hempty (fun hkept id p hp => ?_) hsettled.2
    have hclean : s.clean = true := by
      by_contra hlost
      exact hkept (h.forgets hsettled (Bool.eq_false_iff.2 hlost))
    have hcached := h.cached hclean id p hp
    rwa [System.eventual, System.pending, hempty, append_nil] at hcached
  rw [hclean]
  constructor
  case keyed =>
    exact forall_mem_append.2
      ⟨fun e he => h.keyed e (mem_append_left _ he), hsync.tracking.keyed⟩
  -- The last connection is published, or it is the first one (`Settled`).
  case unpublished =>
    intro hlt htwo
    rcases hsettled.1 with hone | ⟨hpublished, -⟩
    · exact absurd (htwo.trans hone) (by decide)
    · exact absurd hpublished (ne_of_gt hlt)
  case cached =>
    intro _ id p hp
    rw [System.eventual, System.pending, holdAll, foldl_append]
    exact hsync.tracking.tracked id p hp
  case computed =>
    intro scan' hscan id hid hdevice
    obtain rfl : scan = scan' := by simpa using hscan
    exact Overlay.scan_computed hvr hid hdevice
  case answered => exact hsync.answered
  case queue => exact h.queue
  case stop => exact h.stop
  case status => exact h.status
  case seen_generation => exact hseen.le
  case seen_failures => exact hfailures.le
  case seen_dropped => exact hdropped.le
  case generation => exact h.generation
  case lost => exact fun hlost => by cases hlost
  case written => exact h.written
  case driver => exact h.driver

theorem Inv.scan (h : Inv s) {scan : Scan K} (hsettled : Settled s (.scan scan))
    (hs : s.scan scan = some s') : Inv s' := by
  rw [System.scan] at hs
  split at hs
  next hempty =>
    cases hs
    by_cases hvr : scan.devices.isNone = true
    · exact h.scan_none hvr
    · exact h.scan_some hsettled hvr hempty
  · cases hs

/-! ## The queue and the worker -/

omit [FloatArith K] in
theorem hold_hold (d : ℕ → Option (SetDeviceTransform K)) (e : Entry (Request K)) :
    hold (hold d e) e = hold d e := by
  obtain ⟨request, key⟩ := e
  cases request with
  | setDeviceTransform payload => simp [hold]
  | setAlignmentSpeedParams params => rfl
  | setTrackingSystemFallback payload => rfl

/-- The first request starts the queue, with the counters at zero. -/
theorem Inv.start (h : Inv s) : Inv { s with queue := s.queue.start } ∧
    s.queue.start.started = true := by
  have hqueue := h.queue.start
  rw [State.start] at hqueue ⊢
  split_ifs at hqueue ⊢ with hstarted
  · exact ⟨h, hstarted⟩
  · have hoff := Bool.eq_false_iff.2 hstarted
    have hstatus := h.status hoff
    have hworker := h.queue.worker hoff
    have hseen := h.seen_generation
    have hfailures := h.seen_failures
    have hdropped := h.seen_dropped
    have hlost := h.lost
    have hunpublished := h.unpublished
    have hkeyed := h.keyed
    have hcached := h.cached
    rw [hstatus] at hseen hfailures hdropped hlost hunpublished
    rw [System.pending, hworker] at hkeyed
    rw [System.eventual, System.pending, hworker] at hcached
    exact ⟨⟨hqueue, rfl, (fun h' => by cases h'), hkeyed, hseen, hfailures, hdropped, zero_le _,
      hlost, hunpublished, (fun _ _ hw => by cases hw), h.driver, hcached, h.answered, h.computed⟩,
      rfl⟩

variable {queue : State (Request K)}

theorem Inv.take (h : Inv s) (hs : s.queue.take = some queue) : Inv { s with queue } := by
  have hqueue := h.queue.take hs
  obtain ⟨hworker, ⟨hstop, -⟩ | ⟨-, entry, rest, hrest, rfl⟩⟩ := take_cases hs
  · rw [h.stop] at hstop
    cases hstop
  have hpending : entries s.queue.worker ++ s.queue.queue = [entry] ++ rest := by
    rw [hworker, hrest]
    rfl
  have hkeyed := h.keyed
  have hcached := h.cached
  rw [System.pending, hpending] at hkeyed
  rw [System.eventual, System.pending, hpending] at hcached
  refine ⟨hqueue, h.stop, fun hstarted => ?_, hkeyed, h.seen_generation, h.seen_failures,
    h.seen_dropped, h.generation, h.lost, h.unpublished,
    fun e writes hw hne => ?_, h.driver, hcached,
    h.answered, h.computed⟩
  · rw [h.queue.worker hstarted] at hworker
    cases hworker
  · -- Nothing is written yet.
    cases hw
    exact absurd rfl hne

theorem Inv.connect (h : Inv s) (hs : s.connect = some s') : Inv s' := by
  rw [System.connect] at hs
  split at hs
  next entry writes hworker =>
    cases hs
    have hagain : s.generation ≠ 0 → (s.clean && decide (s.generation = 0)) = false := by
      intro hne
      rw [decide_eq_false hne, Bool.and_false]
    refine ⟨h.queue, h.stop, h.status, h.keyed, h.seen_generation, h.seen_failures, h.seen_dropped,
      le_succ_of_le h.generation, fun hclean => ?_,
      fun _ htwo => hagain (ne_of_gt (le_of_succ_le_succ htwo)), fun e writes' hw hne => ?_,
      fun hzero => absurd hzero (succ_ne_zero _), fun hclean => ?_, h.answered, h.computed⟩
    · by_cases hzero : s.generation = 0
      · -- The first connection loses nothing.
        refine (h.lost (by simpa [hzero] using hclean)).imp_right fun hlost => ?_
        refine hlost.imp_right fun hlt => ?_
        exact absurd hlt.2 (by rw [hzero]; decide)
      · exact .inr (.inr ⟨lt_succ_of_le (h.seen_generation.trans h.generation),
          succ_le_succ (one_le_iff_ne_zero.2 hzero)⟩)
    · have hone := one_le_iff_ne_zero.2 (h.written e writes' hw hne).1
      exact ⟨succ_ne_zero _, .inr ⟨lt_succ_of_le h.generation, succ_le_succ hone⟩⟩
    · simp only [Bool.and_eq_true, decide_eq_true_eq] at hclean
      have hcached := h.cached hclean.1
      rwa [System.eventual, h.driver hclean.2] at hcached
  · cases hs

theorem Inv.write (h : Inv s) (hs : s.write = some s') : Inv s' := by
  rw [System.write] at hs
  split_ifs at hs with hzero
  obtain ⟨queue, hwrite, rfl⟩ := map_eq_some_iff.1 hs
  have hqueue := h.queue.write hwrite
  obtain ⟨entry, writes, hworker, -, rfl⟩ := write_cases hwrite
  rw [hworker]
  have hkeyed := h.keyed
  have hcached := h.cached
  rw [System.pending, hworker] at hkeyed
  rw [System.eventual, System.pending, hworker] at hcached
  refine ⟨hqueue, h.stop, fun hstarted => ?_, hkeyed, h.seen_generation, h.seen_failures,
    h.seen_dropped, h.generation, h.lost, h.unpublished, fun e writes' hw _ => ?_,
    fun hzero' => absurd hzero' hzero, fun hclean id p hp => ?_, h.answered, h.computed⟩
  · exact h.status hstarted
  · cases hw
    exact ⟨hzero, .inl (hold_hold s.driver entry)⟩
  · rw [← hcached hclean id p hp]
    simp [System.eventual, System.pending, entries, holdAll, hold_hold]

theorem Inv.finish (h : Inv s) {isConnected ok : Bool}
    (hs : s.queue.finish ⟨isConnected, s.generation⟩ ok = some queue) :
    Inv { s with queue, clean := s.clean && ok } := by
  have hqueue := h.queue.finish hs
  obtain ⟨entry, writes, hworker, hcases⟩ := finish_cases hs
  have hstarted : s.queue.started ≠ false := by
    intro hoff
    rw [h.queue.worker hoff] at hworker
    cases hworker
  have hkeyed : ∀ e ∈ s.queue.queue ++ s.overlay.outbox, Keyed e := by
    intro e he
    refine h.keyed e ?_
    rw [System.pending, hworker]
    exact mem_cons_of_mem _ he
  rcases hcases with ⟨rfl, hne, rfl⟩ | ⟨rfl, rfl⟩
  · rw [Bool.and_true]
    refine ⟨hqueue, h.stop, fun hoff => absurd hoff hstarted, hkeyed,
      h.seen_generation.trans h.generation, h.seen_failures, h.seen_dropped, le_refl _, h.lost,
      fun hlt => absurd hlt (lt_irrefl _), (fun _ _ hw => by cases hw), h.driver,
      fun hclean id p hp => ?_, h.answered, h.computed⟩
    -- The driver holds the entry, as the client has not connected since it was written.
    have hheld : hold s.driver entry = s.driver := by
      rcases (h.written entry writes hworker hne).2 with hheld | ⟨hlt, htwo⟩
      · exact hheld
      · rw [h.unpublished hlt htwo] at hclean
        cases hclean
    rw [← h.cached hclean id p hp]
    simp [System.eventual, System.pending, hworker, entries, holdAll, hheld]
  · rw [Bool.and_false]
    exact ⟨hqueue, h.stop, fun hoff => absurd hoff hstarted, hkeyed,
      h.seen_generation.trans h.generation, le_succ_of_le h.seen_failures, h.seen_dropped,
      le_refl _, fun _ => .inl (lt_succ_of_le h.seen_failures),
      fun hlt => absurd hlt (lt_irrefl _), (fun _ _ hw => by cases hw), h.driver,
      (fun hclean => by cases hclean), h.answered, h.computed⟩

omit [FloatArith K] in
/-- The last request of a key in the queue is the one that was enqueued, if it has the key. -/
theorem latest_accepted {q : State (Request K)} (hq : Ipc.SendQueue.Inv q) (e : Entry (Request K))
    (h : (q.enqueue e.request e.key).status.dropped = q.status.dropped) (k : String) :
    latest k (q.enqueue e.request e.key).queue = latest k (q.queue ++ [e]) := by
  rcases enqueue_cases q e.request e.key with heq | ⟨-, -, ⟨queue, hkey, hqueue, heq⟩ | ⟨-, -, heq⟩⟩
  · rw [heq] at h
    exact absurd h (succ_ne_self _)
  · rw [heq, latest_append, latest_singleton]
    change (ofKey k queue).getLast? = _
    split_ifs with hk
    · rw [← hk, ofKey_coalesce (hq.keys e.key hkey) hqueue]
      rfl
    · rw [ofKey_coalesce_of_ne hk hqueue]
      rfl
  · rw [heq]
    rfl

/-- A request that is accepted stays pending, in the queue. -/
theorem Inv.accept (h : Inv s) {e : Entry (Request K)} {outbox : List (Entry (Request K))}
    (houtbox : s.overlay.outbox = e :: outbox) (hstarted : s.queue.started = true) : Inv { s with
      overlay := { s.overlay with outbox }
      queue := s.queue.enqueue e.request e.key
      clean := s.clean && decide
        ((s.queue.enqueue e.request e.key).status.dropped = s.queue.status.dropped) } := by
  have hinv := h.queue.enqueue e.request e.key
  have hlatest := latest_accepted h.queue e
  have hmem (e' : Entry (Request K)) (he' : e' ∈ (s.queue.enqueue e.request e.key).queue) :=
    mem_of_enqueue he'
  obtain ⟨queue, depth, coalesced, dropped, calls, accepted, heq, hdropped⟩ :=
    enqueue_frame s.queue e.request e.key
  rw [heq] at hinv hlatest hmem ⊢
  have hkeyed : ∀ e' ∈ entries s.queue.worker ++ queue ++ outbox, Keyed e' := by
    intro e' he'
    refine h.keyed e' ?_
    rw [System.pending, houtbox]
    simp only [mem_append, mem_cons] at he' ⊢
    rcases he' with (hflight | hqueue) | hout
    · exact .inl (.inl hflight)
    · rcases hmem e' hqueue with hold | rfl
      · exact .inl (.inr hold)
      · exact .inr (.inl rfl)
    · exact .inr (.inr hout)
  refine ⟨hinv, h.stop, fun hoff => ?_, hkeyed, h.seen_generation, h.seen_failures,
    h.seen_dropped.trans hdropped, h.generation, fun hclean => ?_, fun hlt htwo => ?_, h.written,
    h.driver, fun hclean id p hp => ?_, h.answered, h.computed⟩
  · rw [hstarted] at hoff
    cases hoff
  · rcases Bool.and_eq_false_iff.1 hclean with hlost | hmore
    · exact (h.lost hlost).imp_right (Or.imp_left fun hlt => hlt.trans_le hdropped)
    · have hne : dropped ≠ s.queue.status.dropped := of_decide_eq_false hmore
      exact .inr (.inl (h.seen_dropped.trans_lt (lt_of_le_of_ne hdropped hne.symm)))
  · rw [h.unpublished hlt htwo, Bool.false_and]
  · -- The last request for each device is the same.
    rw [Bool.and_eq_true, decide_eq_true_eq] at hclean
    change holdAll s.driver (entries s.queue.worker ++ queue ++ outbox) id = some p
    rw [← h.cached hclean.1 id p hp, System.eventual, holdAll_apply _ hkeyed,
      holdAll_apply _ h.keyed, System.pending, houtbox]
    have hqueue : latest (deviceKey id) queue = latest (deviceKey id) (s.queue.queue ++ [e]) :=
      hlatest hclean.2 (deviceKey id)
    rw [append_cons _ e outbox, latest_append, latest_append, hqueue, latest_append _ _ outbox,
      append_assoc _ s.queue.queue [e], latest_append _ (entries s.queue.worker)]

theorem Inv.enqueue (h : Inv s) (hs : s.enqueue = some s') : Inv s' := by
  rw [System.enqueue] at hs
  split at hs
  · cases hs
  next e outbox houtbox =>
    cases hs
    obtain ⟨hstart, hstarted⟩ := h.start
    exact hstart.accept houtbox hstarted

/-! ## Runs -/

theorem inv_of_applyRun {es : List (Event K)} (h : applyMachine.RunIf Settled es s) : Inv s := by
  refine h.invariant (fun s hs => ?_) fun s e s' hi hsettled hs => ?_
  · obtain rfl : s = .fresh := hs
    exact .fresh
  · cases e with
    | scan scan => exact hi.scan hsettled hs
    | enqueue => exact hi.enqueue hs
    | take =>
      obtain ⟨queue, hqueue, rfl⟩ := map_eq_some_iff.1 hs
      exact hi.take hqueue
    | connect => exact hi.connect hs
    | write => exact hi.write hs
    | finish isConnected ok =>
      obtain ⟨queue, hqueue, rfl⟩ := map_eq_some_iff.1 hs
      exact hi.finish hqueue

/-- The requests of the scan are all enqueued, and the queue has been drained. -/
def System.drained (s : System K) : Prop := s.overlay.outbox = [] ∧ s.queue.drained

omit [FloatArith K] in
theorem pending_of_drained (h : s.drained) : s.pending = [] := by
  obtain ⟨houtbox, hqueue, hworker⟩ := h
  rw [System.pending, houtbox, hqueue, append_nil, append_nil]
  cases hw : s.queue.worker with
  | off => rfl
  | waiting => rfl
  | sending entry writes =>
    rw [hw] at hworker
    cases hworker

/-- If every scan can notice that the client has connected again, then, once the requests of
    the last scan have been sent, with nothing lost since its start, the driver holds for
    every device a transform near the payload that the scan has computed for it. -/
theorem converges (es : List (Event K)) (s : System K) (h : applyMachine.RunIf Settled es s)
    (scan : Scan K) (hlast : s.last = some scan) (hclean : s.clean = true) (hdrained : s.drained)
    (id : ℕ) (hid : id < maxTrackedDeviceCount) (hdevice : (scan.device id).isSome = true) :
    ∃ payload held, s.overlay.computed id = some payload ∧ s.driver id = some held ∧
      transformPayloadNearEqual held payload = true := by
  have hinv := inv_of_applyRun h
  obtain ⟨payload, hpayload⟩ :=
    isSome_iff_exists.1 (hinv.computed scan hlast id hid hdevice)
  obtain ⟨p, hp, hnear⟩ := hinv.answered id payload hpayload
  have hheld := hinv.cached hclean id p hp
  rw [System.eventual, pending_of_drained hdrained] at hheld
  exact ⟨payload, p, hpayload, hheld, hnear⟩

/-- A scan that finds trackers of the system "lighthouse", which is calibrated. -/
def scanOf (trackers : List ℕ) : Scan ℚ where
  ctx := profileFor (ascii "lighthouse")
  devices := some fun id =>
    if id ∈ trackers then some ⟨false, none, some (ascii "lighthouse"), [], []⟩ else none
  eyeToHeadLeft _ _ := 0
  snapThisCycle := false

def enqueueAll (n : ℕ) : List (Event ℚ) := List.replicate n .enqueue

def send : List (Event ℚ) := [.take, .write, .finish true true]

/-- An entry is sent, and the client connects before it reaches the driver. -/
def sendConnecting : List (Event ℚ) := [.take, .connect, .write, .finish true true]

/-- Two trackers are found, and their transforms sent over the first connection. -/
def firstScan : List (Event ℚ) :=
  [.scan (scanOf [1, 2])] ++ enqueueAll 4 ++ sendConnecting ++ send ++ send ++ send ++
    [.scan (scanOf [1, 2])]

/-- A third tracker is found, and the client connects again while its transform is sent; the
    next scan sends everything again. -/
def noticed : List (Event ℚ) :=
  firstScan ++ [.scan (scanOf [1, 2, 3])] ++ enqueueAll 1 ++ sendConnecting ++
    [.scan (scanOf [1, 2, 3])] ++ enqueueAll 5 ++ send ++ send ++ send ++ send ++ send

theorem converges_noticed : ∃ s : System ℚ, applyMachine.RunIf Settled noticed s ∧
    ∃ payload held, s.overlay.computed 1 = some payload ∧ s.driver 1 = some held ∧
      transformPayloadNearEqual held payload = true := by
  obtain ⟨s, hrun, hlast, hclean, houtbox, hqueue, hworker⟩ :
      ∃ s : System ℚ, applyMachine.RunIf Settled noticed s ∧
        (s.last.any fun scan => (scan.device 1).isSome) = true ∧ s.clean = true ∧
        s.overlay.outbox.length = 0 ∧ s.queue.queue.length = 0 ∧ s.queue.worker.inFlight = 0 :=
    applyMachine.exists_runIf .fresh (by rfl) (by decide +kernel)
  obtain ⟨scan, hscan, hdevice⟩ := (any_eq_true _ _).1 hlast
  exact ⟨s, hrun, converges noticed s hrun scan hscan hclean
    ⟨length_eq_zero_iff.1 houtbox, length_eq_zero_iff.1 hqueue, hworker⟩ 1 (by decide)
    hdevice⟩

/-- After the run everything is sent, with nothing lost since the start of the last scan, and
    the driver holds no transform for a tracker that the scan has found. -/
def Missing (es : List (Event ℚ)) (id : ℕ) : Prop :=
  ∃ s : System ℚ, applyMachine.Run es s ∧ s.clean = true ∧ s.drained ∧ s.driver id = none ∧
    ∃ scan, s.last = some scan ∧ scan.ctx.NearItself ∧ (scan.device id).isSome = true

theorem missing_of_exec {es : List (Event ℚ)} {id : ℕ}
    (hexec : (applyMachine.exec (fun _ _ => True) (.fresh : System ℚ) es).any fun s =>
      decide (s.clean = true ∧ (s.overlay.outbox.length = 0 ∧ s.queue.queue.length = 0 ∧
        s.queue.worker.inFlight = 0) ∧ (s.driver id).isNone = true ∧
        (s.last.any fun scan => decide (scan.ctx.NearItself ∧ (scan.device id).isSome = true)) =
          true)) : Missing es id := by
  obtain ⟨s, hrun, hclean, ⟨houtbox, hqueue, hworker⟩, hdriver, hlast⟩ :=
    applyMachine.exists_runIf _ (by rfl) hexec
  obtain ⟨scan, hscan, hdevice⟩ := (any_eq_true _ _).1 hlast
  exact ⟨s, hrun, hclean, ⟨length_eq_zero_iff.1 houtbox, length_eq_zero_iff.1 hqueue, hworker⟩,
    isNone_iff_eq_none.1 hdriver, scan, hscan, of_decide_eq_true hdevice⟩

/-- The client connects again before a scan has seen the first connection. -/
def takenForFirst : List (Event ℚ) :=
  [.scan (scanOf [1, 2])] ++ enqueueAll 4 ++ sendConnecting ++ send ++ send ++ sendConnecting ++
    [.scan (scanOf [1, 2])]

/-- The client connects again in a send that has not ended when the scan reads the status. -/
def notPublished : List (Event ℚ) :=
  firstScan ++ [Event.scan (scanOf [1, 2, 3])] ++ enqueueAll 1 ++
    [Event.take, .connect, .scan (scanOf [1, 2, 3]), .write, .finish true true]

/-- In both runs the transform of the first tracker is not sent again. -/
theorem transforms_lost : Missing takenForFirst 1 ∧ Missing notPublished 1 :=
  ⟨missing_of_exec (by decide +kernel), missing_of_exec (by decide +kernel)⟩

end WKOpenVR.Calibration.ProfileApply
