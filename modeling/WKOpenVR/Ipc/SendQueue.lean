import WKOpenVR.Channel

/-!
# The IPC send queue

`IpcSendQueue` sends requests to the driver off the calling thread. `Enqueue` puts
a request into a bounded queue, under a key: a request with a non-empty key replaces
a queued one of the same key. A worker takes the requests from the front, and sends
each outside of the lock. `Stop` discards the queue and joins the worker.

The threads interleave section by section (`machine`): an `Enqueue`, the worker
taking an entry or leaving, each of its pipe writes, the accounting after a send,
and the two locked sections of `Stop`.

For each key the queue refines a channel (`lane_refines`): a latest-value channel
for a non-empty key, one in which all values wait for the empty key. What a channel
guarantees, the cap and the accounting of the calls are put together in
`sendQueue_refines_channel`.
-/

namespace WKOpenVR.Ipc.SendQueue

open List Option

def maxQueue : ℕ := 256

/-- The most pipe writes of one `SendBlocking`: it sends again once, when the pipe
    has broken. -/
def maxWrites : ℕ := 2

/-- A queued request, `Entry`. -/
structure Entry (β : Type*) where
  request : β
  key : String

structure Status where
  connected : Bool := false
  queueDepth : ℕ := 0
  sent : ℕ := 0
  sendFailures : ℕ := 0
  coalesced : ℕ := 0
  dropped : ℕ := 0
  connectionGeneration : ℕ := 0

/-- The client of the worker after a send: `IsConnected`, `ConnectionGeneration`. -/
structure Client where
  isConnected : Bool := true
  connectionGeneration : ℕ := 1

/-- The worker thread. -/
inductive Worker (β : Type*)
  /-- Not started, or left. -/
  | off
  /-- About to take an entry. -/
  | waiting
  /-- Sending an entry, having written it `writes` times. -/
  | sending (entry : Entry β) (writes : ℕ)

/-- The queue with its worker, and what has happened so far. -/
structure State (β : Type*) where
  queue : List (Entry β)
  started : Bool
  stop : Bool
  status : Status
  worker : Worker β
  /-- The `Enqueue` calls since the status was reset. -/
  calls : ℕ
  /-- The entries discarded by `Stop` since the status was reset. -/
  discarded : ℕ
  /-- The entries accepted so far, queued or coalesced. -/
  accepted : List (Entry β)
  /-- The entries that reached the driver so far. -/
  received : List (Entry β)
  /-- The entries lost so far, by a failed send or discarded by `Stop`. -/
  lost : List (Entry β)

variable {β : Type*} {request : β} {key : String} {queue queue' : List (Entry β)}

/-- A queue that has not been started. -/
def State.fresh : State β where
  queue := []
  started := false
  stop := false
  status := {}
  worker := .off
  calls := 0
  discarded := 0
  accepted := []
  received := []
  lost := []

variable (s : State β)

/-- `Start`: it returns if the queue is started. -/
def State.start : State β :=
  if s.started then s
  else { s with
    stop := false, status := {}, started := true, worker := .waiting, calls := 0, discarded := 0 }

/-- The first section of `Stop`. -/
def State.beginStop : State β :=
  if s.started then
    { s with
      stop := true
      queue := []
      status := { s.status with queueDepth := 0 }
      discarded := s.discarded + s.queue.length
      lost := s.lost ++ s.queue }
  else s

/-- The second section of `Stop`, after the worker has been joined. -/
def State.endStop : Option (State β) :=
  match s.worker with
  | .off => if s.started && s.stop then some { s with started := false } else none
  | _ => none

/-- The search for a queued entry with the key, whose request is replaced. -/
def coalesce (request : β) (key : String) : List (Entry β) → Option (List (Entry β))
  | [] => none
  | entry :: queue =>
    if entry.key = key then some ({ entry with request } :: queue)
    else (coalesce request key queue).map (entry :: ·)

/-- A call refused, by a full queue or without a worker. -/
def State.drop : State β :=
  { s with status := { s.status with dropped := s.status.dropped + 1 }, calls := s.calls + 1 }

/-- A call accepted, leaving a queue and a status. -/
def State.accept (entry : Entry β) (queue : List (Entry β)) (status : Status) : State β :=
  { s with
    queue, status
    calls := s.calls + 1
    accepted := s.accepted ++ [entry] }

def State.enqueue (request : β) (coalesceKey : String) : State β :=
  if !s.started || s.stop then s.drop
  else
    -- An entry with an empty key is never looked for.
    match if coalesceKey = "" then none else coalesce request coalesceKey s.queue with
    | some queue =>
      s.accept ⟨request, coalesceKey⟩ queue { s.status with coalesced := s.status.coalesced + 1 }
    | none =>
      if s.queue.length ≥ maxQueue then s.drop
      else
        s.accept ⟨request, coalesceKey⟩ (s.queue ++ [⟨request, coalesceKey⟩])
          { s.status with queueDepth := s.queue.length + 1 }

/-- The worker's locked section: it leaves, or takes the front of the queue. It
    waits while there is nothing to do. -/
def State.take : Option (State β) :=
  match s.worker with
  | .waiting =>
    if s.stop then some { s with worker := .off }
    else
      match s.queue with
      | [] => none -- The worker stays in its wait.
      | entry :: queue => some { s with
          queue
          status := { s.status with queueDepth := queue.length }
          worker := .sending entry 0 }
  | _ => none

/-- A pipe write of `SendBlocking` that reaches the driver. -/
def State.write : Option (State β) :=
  match s.worker with
  | .sending entry writes =>
    if writes < maxWrites then
      some { s with
        worker := .sending entry (writes + 1)
        received := s.received ++ [entry] }
    else none
  | _ => none

/-- The accounting after `SendBlocking` has returned the driver's answer, or has
    failed, whether the request has reached the driver or not. -/
def State.finish (client : Client) : Bool → Option (State β)
  | true =>
    match s.worker with
    | .sending _ writes =>
      -- The driver only answers a request that has reached it.
      if writes = 0 then none
      else some { s with
        status := { s.status with
          sent := s.status.sent + 1
          connected := true
          connectionGeneration := client.connectionGeneration }
        worker := .waiting }
    | _ => none
  | false =>
    match s.worker with
    | .sending entry _ => some { s with
        status := { s.status with
          sendFailures := s.status.sendFailures + 1
          connected := client.isConnected
          connectionGeneration := client.connectionGeneration }
        worker := .waiting
        lost := s.lost ++ [entry] }
    | _ => none

inductive Action (β : Type*)
  | start
  | beginStop
  | endStop
  | enqueue (request : β) (coalesceKey : String)
  | take
  | write
  | finish (client : Client) (ok : Bool)

def step : Action β → Option (State β)
  | .start => some s.start
  | .beginStop => some s.beginStop
  | .endStop => s.endStop
  | .enqueue request coalesceKey => some (s.enqueue request coalesceKey)
  | .take => s.take
  | .write => s.write
  | .finish client ok => s.finish client ok

/-- The queue with its worker and any number of callers. -/
def machine : Machine (State β) (Action β) where
  init := {.fresh}
  step := step

/-! ## Lanes -/

variable (k : String) (es : List (Entry β))

/-- The requests of a key, in their order. -/
def ofKey : List β :=
  (es.filter (·.key = k)).map Entry.request

/-- The entry being sent, if it is of the key. -/
def Worker.flight : Worker β → Option (Channel.Flight β)
  | .sending entry writes => if entry.key = k then some ⟨entry.request, writes⟩ else none
  | _ => none

/-- The entries of one key, as a channel. -/
def State.lane : Channel.State β where
  pending := ofKey k s.queue
  flight := s.worker.flight k
  accepted := ofKey k s.accepted
  arrived := ofKey k s.received
  lost := ofKey k s.lost

@[simp]
theorem ofKey_nil : ofKey k ([] : List (Entry β)) = [] := rfl

@[simp]
theorem ofKey_cons (e : Entry β) (es : List (Entry β)) :
    ofKey k (e :: es) = if e.key = k then e.request :: ofKey k es else ofKey k es := by
  simp only [ofKey, filter_cons, decide_eq_true_eq]
  split_ifs <;> rfl

@[simp]
theorem ofKey_append (fs : List (Entry β)) : ofKey k (es ++ fs) = ofKey k es ++ ofKey k fs := by
  simp [ofKey]

variable {e : Entry β}

theorem ofKey_concat_of_ne {k : String} (es : List (Entry β)) (h : e.key ≠ k) :
    ofKey k (es ++ [e]) = ofKey k es := by
  simp [h]

/-- Coalescing keeps the length of the queue. -/
theorem length_coalesce (h : coalesce request key queue = some queue') :
    queue'.length = queue.length := by
  induction queue generalizing queue' with
  | nil => cases h
  | cons e es ih =>
    rw [coalesce] at h
    split_ifs at h with he
    · cases h
      rfl
    · obtain ⟨es', hes, rfl⟩ := map_eq_some_iff.1 h
      simp [ih hes]

/-- Coalescing leaves the entries of other keys as they are. -/
theorem ofKey_coalesce_of_ne {k : String} (hk : key ≠ k)
    (h : coalesce request key queue = some queue') : ofKey k queue' = ofKey k queue := by
  induction queue generalizing queue' with
  | nil => cases h
  | cons e es ih =>
    rw [coalesce] at h
    split_ifs at h with he
    · cases h
      rw [ofKey_cons, ofKey_cons, he, if_neg hk, if_neg hk]
    · obtain ⟨es', hes, rfl⟩ := map_eq_some_iff.1 h
      rw [ofKey_cons, ofKey_cons, ih hes]

/-- Coalescing replaces the only entry of the key. -/
theorem ofKey_coalesce (hone : (ofKey key queue).length ≤ 1)
    (h : coalesce request key queue = some queue') : ofKey key queue' = [request] := by
  induction queue generalizing queue' with
  | nil => cases h
  | cons e es ih =>
    rw [coalesce] at h
    rw [ofKey_cons] at hone
    split_ifs at h hone with he
    · cases h
      have hnil : ofKey key es = [] := by simpa using hone
      simp [he, hnil]
    · obtain ⟨es', hes, rfl⟩ := map_eq_some_iff.1 h
      simp [he, ih hone hes]

/-- No entry is found only if there is none of the key. -/
theorem ofKey_of_coalesce_eq_none (h : coalesce request key queue = none) :
    ofKey key queue = [] := by
  induction queue with
  | nil => rfl
  | cons e es ih =>
    rw [coalesce] at h
    split_ifs at h with he
    rw [ofKey_cons, if_neg he]
    exact ih (map_eq_none_iff.1 h)

/-! ## The invariant of the queue -/

/-- The number of entries being sent. -/
def Worker.inFlight : Worker β → ℕ
  | .sending .. => 1
  | _ => 0

structure Inv (s : State β) : Prop where
  /-- A non-empty key is queued at most once. -/
  keys : ∀ k, k ≠ "" → (ofKey k s.queue).length ≤ 1
  length_le : s.queue.length ≤ maxQueue
  queueDepth : s.status.queueDepth = s.queue.length
  /-- Every call is accounted for. -/
  calls : s.calls = s.status.dropped + s.status.coalesced + s.status.sent +
    s.status.sendFailures + s.discarded + s.queue.length + s.worker.inFlight
  /-- There is nothing queued unless the queue runs. -/
  queue : s.started = false ∨ s.stop = true → s.queue = []
  /-- There is a worker only if the queue has been started. -/
  worker : s.started = false → s.worker = .off

variable {s} {s' : State β} {client : Client}

theorem inv_fresh : Inv (State.fresh (β := β)) :=
  ⟨fun _ _ => Nat.zero_le _, Nat.zero_le _, rfl, rfl, fun _ => rfl, fun _ => rfl⟩

open Worker

theorem Inv.start (h : Inv s) : Inv s.start := by
  rw [State.start]
  split_ifs with hstarted
  · exact h
  · -- The counters start over, with nothing queued and nothing being sent.
    have hq := h.queue (.inl (Bool.eq_false_iff.2 hstarted))
    refine ⟨h.keys, h.length_le, ?_, ?_, fun _ => hq, fun h => absurd h.symm (by simp)⟩
    · simp [hq]
    · simp [hq, inFlight]

theorem Inv.beginStop (h : Inv s) : Inv s.beginStop := by
  rw [State.beginStop]
  split_ifs with hstarted
  · refine ⟨fun _ _ => Nat.zero_le _, Nat.zero_le _, rfl, ?_, fun _ => rfl, h.worker⟩
    -- What was queued is now counted as discarded.
    rw [h.calls]
    simp only [length_nil]
    omega
  · exact h

theorem Inv.endStop (h : Inv s) (hs : s.endStop = some s') : Inv s' := by
  rw [State.endStop] at hs
  split at hs
  next hworker =>
    split_ifs at hs with hstop
    cases hs
    exact ⟨h.keys, h.length_le, h.queueDepth, h.calls,
      fun _ => h.queue (.inr (Bool.and_eq_true_iff.1 hstop).2), fun _ => hworker⟩
  · cases hs

theorem Inv.drop (h : Inv s) : Inv s.drop := by
  refine ⟨h.keys, h.length_le, h.queueDepth, ?_, h.queue, h.worker⟩
  simp only [State.drop, h.calls]
  omega

/-- The outcomes of `Enqueue`: the call is dropped; or, the queue running, it is
    coalesced or queued. -/
theorem enqueue_cases (s : State β) (request : β) (key : String) :
    s.enqueue request key = s.drop ∨ s.started = true ∧ s.stop = false ∧
      ((∃ queue, key ≠ "" ∧ coalesce request key s.queue = some queue ∧
          s.enqueue request key = s.accept ⟨request, key⟩ queue
            { s.status with coalesced := s.status.coalesced + 1 }) ∨
        (key ≠ "" → ofKey key s.queue = []) ∧ s.queue.length < maxQueue ∧
          s.enqueue request key = s.accept ⟨request, key⟩ (s.queue ++ [⟨request, key⟩])
            { s.status with queueDepth := s.queue.length + 1 }) := by
  rw [State.enqueue]
  split
  · exact .inl rfl
  next hrun =>
    rw [Bool.or_eq_true_iff, Bool.not_eq_true', not_or, Bool.not_eq_false, Bool.not_eq_true] at hrun
    split
    next queue hqueue =>
      split at hqueue
      · cases hqueue
      next hkey => exact .inr ⟨hrun.1, hrun.2, .inl ⟨queue, hkey, hqueue, rfl⟩⟩
    next hqueue =>
      split
      · exact .inl rfl
      next hfull =>
        refine .inr ⟨hrun.1, hrun.2, .inr ⟨fun hkey => ?_, not_le.1 hfull, rfl⟩⟩
        rw [if_neg hkey] at hqueue
        exact ofKey_of_coalesce_eq_none hqueue

/-- What `Enqueue` leaves alone: the worker, and the counters of the sends. -/
theorem enqueue_frame (s : State β) (request : β) (key : String) :
    ∃ queue depth coalesced dropped calls accepted, s.enqueue request key = { s with
      queue, calls, accepted
      status := { s.status with queueDepth := depth, coalesced, dropped } } ∧
    s.status.dropped ≤ dropped := by
  rcases enqueue_cases s request key with heq | ⟨-, -, ⟨queue, -, -, heq⟩ | ⟨-, -, heq⟩⟩
  · exact ⟨_, _, _, _, _, _, heq, Nat.le_succ _⟩
  · exact ⟨_, _, _, _, _, _, heq, le_refl _⟩
  · exact ⟨_, _, _, _, _, _, heq, le_refl _⟩

theorem mem_of_coalesce {request : β} {key : String} {queue queue' : List (Entry β)}
    (h : coalesce request key queue = some queue') (he : e ∈ queue') :
    e ∈ queue ∨ e = ⟨request, key⟩ := by
  induction queue generalizing queue' with
  | nil => cases h
  | cons e' es ih =>
    rw [coalesce] at h
    split_ifs at h with hkey
    · cases h
      rcases mem_cons.1 he with rfl | hrest
      · exact .inr (by rw [hkey])
      · exact .inl (mem_cons_of_mem _ hrest)
    · obtain ⟨es', hes, rfl⟩ := map_eq_some_iff.1 h
      rcases mem_cons.1 he with rfl | hrest
      · exact .inl mem_cons_self
      · exact (ih hes hrest).imp_left (mem_cons_of_mem _)

/-- What is queued after a call was queued before, or is the call's. -/
theorem mem_of_enqueue {request : β} {key : String}
    (he : e ∈ (s.enqueue request key).queue) : e ∈ s.queue ∨ e = ⟨request, key⟩ := by
  rcases enqueue_cases s request key with heq | ⟨-, -, ⟨queue, -, hqueue, heq⟩ | ⟨-, -, heq⟩⟩
  · rw [heq] at he
    exact .inl he
  · rw [heq] at he
    exact mem_of_coalesce hqueue he
  · rw [heq] at he
    exact (mem_append.1 he).imp_right mem_singleton.1

theorem Inv.enqueue (h : Inv s) (request : β) (key : String) : Inv (s.enqueue request key) := by
  rcases enqueue_cases s request key with heq | ⟨hstarted, hstop, hcases⟩
  · exact heq ▸ h.drop
  have hrun (h' : s.started = false ∨ s.stop = true) : False := by simp [hstarted, hstop] at h'
  rcases hcases with ⟨queue, hkey, hqueue, heq⟩ | ⟨hnone, hfull, heq⟩
  · -- Coalesced: the queue is as long as before, and its keys are the same.
    rw [heq]
    have hlength := length_coalesce hqueue
    refine ⟨fun k hk => ?_, hlength.trans_le h.length_le, h.queueDepth.trans hlength.symm, ?_,
      fun h' => (hrun h').elim, h.worker⟩
    · by_cases hkk : key = k
      · rw [← hkk]
        exact (congrArg List.length (ofKey_coalesce (h.keys key hkey) hqueue)).le
      · exact (congrArg List.length (ofKey_coalesce_of_ne hkk hqueue)).trans_le (h.keys k hk)
    · simp only [State.accept, h.calls, hlength]
      omega
  · -- Queued: no entry of this key was found, unless the key is empty.
    rw [heq]
    refine ⟨fun k hk => ?_, ?_, ?_, ?_, fun h' => (hrun h').elim, h.worker⟩
    · by_cases hkk : key = k
      · simp [State.accept, ← hkk, hnone (hkk ▸ hk)]
      · simpa [State.accept, hkk] using h.keys k hk
    · simpa [State.accept] using Nat.succ_le_of_lt hfull
    · simp [State.accept]
    · simp only [State.accept, h.calls, length_append, length_singleton]
      omega

/-- The worker leaves, or takes the front of the queue. -/
theorem take_cases (hs : s.take = some s') : s.worker = .waiting ∧
    (s.stop = true ∧ s' = { s with worker := .off } ∨
      s.stop = false ∧ ∃ entry queue, s.queue = entry :: queue ∧ s' = { s with
        queue, status := { s.status with queueDepth := queue.length }
        worker := .sending entry 0 }) := by
  rw [State.take] at hs
  split at hs
  next hworker =>
    refine ⟨hworker, ?_⟩
    split at hs
    next hstop => exact .inl ⟨hstop, (some.inj hs).symm⟩
    next hstop =>
      split at hs
      · cases hs
      next entry queue hqueue =>
        exact .inr ⟨Bool.eq_false_iff.2 hstop, entry, queue, hqueue, (some.inj hs).symm⟩
  · cases hs

theorem write_cases (hs : s.write = some s') : ∃ entry writes,
    s.worker = .sending entry writes ∧ writes < maxWrites ∧ s' = { s with
      worker := .sending entry (writes + 1), received := s.received ++ [entry] } := by
  rw [State.write] at hs
  split at hs
  next entry writes hworker =>
    split_ifs at hs with hlt
    exact ⟨entry, writes, hworker, hlt, (some.inj hs).symm⟩
  · cases hs

variable {ok : Bool}

/-- A send has ended, with an answer, or with the loss of the entry. -/
theorem finish_cases (hs : s.finish client ok = some s') :
    ∃ entry writes, s.worker = .sending entry writes ∧
      (ok = true ∧ writes ≠ 0 ∧ s' = { s with
          status := { s.status with
            sent := s.status.sent + 1, connected := true
            connectionGeneration := client.connectionGeneration }
          worker := .waiting } ∨
        ok = false ∧ s' = { s with
          status := { s.status with
            sendFailures := s.status.sendFailures + 1, connected := client.isConnected
            connectionGeneration := client.connectionGeneration }
          worker := .waiting
          lost := s.lost ++ [entry] }) := by
  cases ok with
  | true =>
    simp only [State.finish] at hs
    split at hs
    next entry writes hworker =>
      split_ifs at hs with hne
      exact ⟨entry, writes, hworker, .inl ⟨rfl, hne, (some.inj hs).symm⟩⟩
    · cases hs
  | false =>
    simp only [State.finish] at hs
    split at hs
    next entry writes hworker =>
      exact ⟨entry, writes, hworker, .inr ⟨rfl, (some.inj hs).symm⟩⟩
    · cases hs

theorem Inv.take (h : Inv s) (hs : s.take = some s') : Inv s' := by
  obtain ⟨hworker, ⟨-, rfl⟩ | ⟨-, entry, queue, hqueue, rfl⟩⟩ := take_cases hs
  · have hcalls := h.calls
    rw [hworker] at hcalls
    exact ⟨h.keys, h.length_le, h.queueDepth, hcalls, h.queue, fun _ => rfl⟩
  · have hcalls := h.calls
    rw [hworker, hqueue, length_cons] at hcalls
    refine ⟨fun k hk => ?_, ?_, rfl, ?_, fun h' => ?_, fun h' => ?_⟩
    · have hone := h.keys k hk
      rw [hqueue, ofKey_cons] at hone
      split_ifs at hone
      · exact (Nat.le_succ _).trans hone
      · exact hone
    · have hle := h.length_le
      rw [hqueue] at hle
      exact (Nat.le_succ _).trans hle
    · simp only [hcalls, inFlight]
      omega
    · have := h.queue h'
      rw [hqueue] at this
      cases this
    · rw [h.worker h'] at hworker
      cases hworker

theorem Inv.write (h : Inv s) (hs : s.write = some s') : Inv s' := by
  obtain ⟨entry, writes, hworker, -, rfl⟩ := write_cases hs
  have hcalls := h.calls
  rw [hworker] at hcalls
  refine ⟨h.keys, h.length_le, h.queueDepth, hcalls, h.queue, fun h' => ?_⟩
  rw [h.worker h'] at hworker
  cases hworker

theorem Inv.finish (h : Inv s) (hs : s.finish client ok = some s') : Inv s' := by
  have hcalls := h.calls
  have hworker' := h.worker
  obtain ⟨entry, writes, hworker, ⟨-, -, rfl⟩ | ⟨-, rfl⟩⟩ := finish_cases hs
  all_goals
    rw [hworker] at hcalls hworker'
    refine ⟨h.keys, h.length_le, h.queueDepth, ?_, h.queue, fun h' => by cases hworker' h'⟩
    simp only [hcalls, inFlight]
    omega

variable {as : List (Action β)}

theorem inv_of_run (h : machine.Run as s) : Inv s := by
  refine h.invariant (fun s hs => ?_) fun s a s' hi _ hs => ?_
  · obtain rfl : s = .fresh := hs
    exact inv_fresh
  · cases a with
    | start => exact some.inj hs ▸ hi.start
    | beginStop => exact some.inj hs ▸ hi.beginStop
    | endStop => exact hi.endStop hs
    | enqueue request key => exact some.inj hs ▸ hi.enqueue request key
    | take => exact hi.take hs
    | write => exact hi.write hs
    | finish => exact hi.finish hs

/-! ## Refinement -/

/-- The channel of a key: only the latest value matters, unless the key is empty. -/
def channel (k : String) : Machine (Channel.State β) (Channel.Event β) :=
  Channel.machine (decide (k ≠ "")) maxWrites

/-- What an action does to the channel of a key: an event of the channel, or nothing. -/
def LaneStep (k : String) (s s' : State β) : Prop :=
  s'.lane k = s.lane k ∨ ∃ e, (channel k).step (s.lane k) e = some (s'.lane k)

theorem laneStep_start (h : Inv s) : LaneStep k s s.start := by
  rw [State.start]
  split_ifs with hstarted
  · exact .inl rfl
  · -- A new worker has nothing to send yet, and there was no other.
    have hworker := h.worker (Bool.eq_false_iff.2 hstarted)
    left
    simp [State.lane, flight, hworker]

theorem laneStep_beginStop (s : State β) : LaneStep k s s.beginStop := by
  rw [State.beginStop]
  split_ifs
  · -- The channels of all keys are cleared.
    refine .inr ⟨.clear, ?_⟩
    simp [State.lane, channel, Channel.machine, Channel.step]
  · exact .inl rfl

theorem laneStep_endStop (hs : s.endStop = some s') : LaneStep k s s' := by
  rw [State.endStop] at hs
  split at hs
  · split_ifs at hs
    cases hs
    exact .inl rfl
  · cases hs

/-- An accepted call is a put, on the channel of its key. -/
theorem laneStep_accept {entry : Entry β} {queue : List (Entry β)} {status : Status}
    (hsame : ofKey entry.key queue =
      if entry.key = "" then ofKey entry.key s.queue ++ [entry.request] else [entry.request])
    (hother : entry.key ≠ k → ofKey k queue = ofKey k s.queue) :
    LaneStep k s (s.accept entry queue status) := by
  by_cases hk : entry.key = k
  · subst hk
    refine .inr ⟨.put entry.request, ?_⟩
    simp [State.lane, State.accept, channel, Channel.machine, Channel.step, hsame]
  · left
    simp [State.lane, State.accept, hother hk, hk]

theorem laneStep_enqueue (h : Inv s) (request : β) (key : String) :
    LaneStep k s (s.enqueue request key) := by
  rcases enqueue_cases s request key with heq | ⟨-, -, ⟨queue, hkey, hqueue, heq⟩ | ⟨hnone, -, heq⟩⟩
  · exact .inl (heq ▸ rfl)
  · rw [heq]
    refine laneStep_accept k ?_ fun hk => ofKey_coalesce_of_ne hk hqueue
    rw [if_neg hkey, ofKey_coalesce (h.keys key hkey) hqueue]
  · rw [heq]
    refine laneStep_accept k ?_ fun hk => ofKey_concat_of_ne _ hk
    split_ifs with hkey
    · simp
    · simp [hnone hkey]

theorem laneStep_take (hs : s.take = some s') : LaneStep k s s' := by
  obtain ⟨hworker, ⟨-, rfl⟩ | ⟨-, entry, queue, hqueue, rfl⟩⟩ := take_cases hs
  · left
    simp [State.lane, flight, hworker]
  · -- Only the channel of the key of the entry sees it go.
    by_cases hk : entry.key = k
    · refine .inr ⟨.take, ?_⟩
      simp [State.lane, channel, Channel.machine, Channel.step, flight, hworker, hqueue, hk]
    · left
      simp [State.lane, flight, hworker, hqueue, hk]

theorem laneStep_write (hs : s.write = some s') : LaneStep k s s' := by
  obtain ⟨entry, writes, hworker, hlt, rfl⟩ := write_cases hs
  by_cases hk : entry.key = k
  · refine .inr ⟨.arrive, ?_⟩
    simp [State.lane, channel, Channel.machine, Channel.step, flight, hworker, hk, hlt]
  · left
    simp [State.lane, flight, hworker, hk]

theorem laneStep_finish (hs : s.finish client ok = some s') : LaneStep k s s' := by
  obtain ⟨entry, writes, hworker, ⟨-, hne, rfl⟩ | ⟨-, rfl⟩⟩ := finish_cases hs
  · by_cases hk : entry.key = k
    · refine .inr ⟨.land true, ?_⟩
      simp [State.lane, channel, Channel.machine, Channel.step, flight, hworker, hk, hne]
    · left
      simp [State.lane, flight, hworker, hk]
  · by_cases hk : entry.key = k
    · refine .inr ⟨.land false, ?_⟩
      simp [State.lane, channel, Channel.machine, Channel.step, flight, hworker, hk]
    · left
      simp [State.lane, flight, hworker, hk]

/-- For each key, the queue refines a channel. -/
theorem lane_refines (h : machine.Run as s) (k : String) : ∃ es, (channel k).Run es (s.lane k) := by
  refine h.refines (State.lane · k) (fun as s hrun => inv_of_run hrun) (fun s hs => ?_)
    fun s a s' hi hs => ?_
  · obtain rfl : s = .fresh := hs
    rfl
  · cases a with
    | start => exact some.inj hs ▸ laneStep_start k hi
    | beginStop => exact some.inj hs ▸ laneStep_beginStop k s
    | endStop => exact laneStep_endStop k hs
    | enqueue request key => exact some.inj hs ▸ laneStep_enqueue k hi request key
    | take => exact laneStep_take k hs
    | write => exact laneStep_write k hs
    | finish => exact laneStep_finish k hs

/-- Nothing is queued or being sent. -/
def State.drained (s : State β) : Prop :=
  s.queue = [] ∧ s.worker.inFlight = 0

theorem lane_of_drained (h : s.drained) (k : String) :
    (s.lane k).pending = [] ∧ (s.lane k).flight = none := by
  obtain ⟨hqueue, hworker⟩ := h
  refine ⟨by simp [State.lane, hqueue], ?_⟩
  cases hw : s.worker <;> simp_all [State.lane, flight, inFlight]

/-- The send queue is, for each key, a channel: in every run,

    * the requests of a key reach the driver in the order in which they were
      accepted, each at most twice, as a broken pipe makes the worker send again;
    * the depth is the length of the queue, and within the cap;
    * when nothing is queued or being sent, and no request of the key has been lost,
      the last request of the key to reach the driver is the last one accepted, and
      for the empty key all of them have reached it;
    * every call since the counters were reset is accounted for. -/
theorem sendQueue_refines_channel (as : List (Action β)) (s : State β) (h : machine.Run as s) :
    (∀ k, ∃ es, (channel k).Run es (s.lane k)) ∧
    (∀ k, (ofKey k s.received).Sublist (Channel.repeated maxWrites (ofKey k s.accepted))) ∧
    s.status.queueDepth = s.queue.length ∧ s.queue.length ≤ maxQueue ∧
    (s.drained → ∀ k, ofKey k s.lost = [] →
      (ofKey k s.received).getLast? = (ofKey k s.accepted).getLast?) ∧
    (s.drained → ofKey "" s.lost = [] → (ofKey "" s.accepted).Sublist (ofKey "" s.received)) ∧
    s.calls = s.status.dropped + s.status.coalesced + s.status.sent + s.status.sendFailures +
      s.discarded + s.status.queueDepth + s.worker.inFlight := by
  have hinv := inv_of_run h
  refine ⟨lane_refines h, fun k => ?_, hinv.queueDepth, hinv.length_le, fun hd k hlost => ?_,
    fun hd hlost => ?_, hinv.queueDepth ▸ hinv.calls⟩
  · obtain ⟨es, hes⟩ := lane_refines h k
    exact Channel.arrived_sublist hes
  · obtain ⟨es, hes⟩ := lane_refines h k
    obtain ⟨hpending, hflight⟩ := lane_of_drained hd k
    exact Channel.getLast?_arrived hes hpending hflight hlost
  · obtain ⟨es, hes⟩ := lane_refines h ""
    obtain ⟨hpending, hflight⟩ := lane_of_drained hd ""
    exact Channel.accepted_sublist hes hpending hflight hlost

/-- Two requests under one key are coalesced, and a third is queued under the empty
    key; the first send is repeated. -/
def coalesceActions : List (Action ℕ) :=
  [.start, .enqueue 1 "d1", .enqueue 2 "d1", .enqueue 7 "", .take, .write, .write,
    .finish {} true, .take, .write, .finish {} true]

theorem sendQueue_refines_channel_coalesce : ∃ s : State ℕ, machine.Run coalesceActions s ∧
    ofKey "d1" s.received = [2, 2] ∧
    (ofKey "d1" s.received).getLast? = (ofKey "d1" s.accepted).getLast? := by
  refine machine.exists_runIf_of (P := fun s => ofKey "d1" s.received = [2, 2] ∧
    ofKey "d1" s.lost = [] ∧ s.queue.length = 0 ∧ s.worker.inFlight = 0) .fresh (by rfl)
      (by decide) ?_
  rintro s hrun ⟨hreceived, hlost, hqueue, hworker⟩
  have h := sendQueue_refines_channel _ s hrun
  exact ⟨hreceived, h.2.2.2.2.1 ⟨length_eq_zero_iff.1 hqueue, hworker⟩ _ hlost⟩

/-- In every run, at most one request of a key is queued, unless the key is empty; the last one
    queued is the last one accepted, unless one was lost; and while the queue is stopped, none
    is. -/
theorem queued_newest {s : State β} {as : List (Action β)} (h : machine.Run as s) :
    (∀ k, k ≠ "" → (ofKey k s.queue).length ≤ 1) ∧
    (∀ k, ofKey k s.lost = [] → ofKey k s.queue ≠ [] →
      (ofKey k s.queue).getLast? = (ofKey k s.accepted).getLast?) ∧
    (s.started = false ∨ s.stop = true → s.queue = []) := by
  refine ⟨(inv_of_run h).keys, fun k hlost hne => ?_, (inv_of_run h).queue⟩
  obtain ⟨es, hes⟩ := lane_refines h k
  exact (getLast?_append_of_ne_nil _ hne).symm.trans ((Channel.inv_of_run hes).last hlost)

theorem queued_newest_coalesce : ∃ s : State ℕ,
    machine.Run [.start, .enqueue 1 "d1", .enqueue 2 "d1"] s ∧ ofKey "d1" s.queue = [2] ∧
      (ofKey "d1" s.accepted).getLast? = some 2 := by
  refine machine.exists_runIf_of (P := fun s => ofKey "d1" s.queue = [2] ∧ ofKey "d1" s.lost = [])
    .fresh (by rfl) (by decide) fun s hrun ⟨hqueue, hlost⟩ => ⟨hqueue, ?_⟩
  have h := (queued_newest hrun).2.1 "d1" hlost (by simp [hqueue])
  simpa [hqueue] using h.symm

end WKOpenVR.Ipc.SendQueue
