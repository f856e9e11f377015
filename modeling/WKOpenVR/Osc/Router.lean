import WKOpenVR.Ring
import WKOpenVR.Frame
import WKOpenVR.Osc.RouteTable

/-!
# The send queue of the router

Modules publish OSC messages, and sidecars write them to a pipe; the router (`OscRouter`)
queues them as packets, in a ring of 1024 entries under a mutex, and a worker takes them
out, one at a time, and sends them. A packet that is too large is not queued, nor is one
for which there is no room; and what is taken out is sent, fails to be sent, or is
dropped as the socket is closed. Each of that has its counter.

One action of the machine is a critical section, or what the worker does with the packet
it has taken out. What the socket does is part of the action. The router refines a
bounded queue with its books (`Fifo`), in every interleaving (`step_refines`): packets
leave in the order in which they were accepted, and the books are balanced
(`sendQueue_fifo`).
-/

namespace WKOpenVR.Osc

open List

def sendQueueCapacity : ℕ := 1024

def sendQueueEntryMaxSize : ℕ := 512

instance : NeZero sendQueueCapacity := ⟨by decide⟩

abbrev Packet := List UInt8

/-- The router: the send queue, the packet its worker has taken out, the routes and the
    counters. -/
structure Router where
  queue : RingQueue sendQueueCapacity Packet
  inFlight : Option Packet
  routeTable : RouteTable
  packetsQueued : ℕ
  droppedCount : ℕ
  oversizedPackets : ℕ
  packetsSent : ℕ
  bytesSent : ℕ
  sendFailures : ℕ
  socketClosedDrops : ℕ
  unmatchedRoutes : ℕ
  pubPipeFrames : ℕ
  pubPipeInvalidFrames : ℕ
  pubPipeQueueDrops : ℕ

namespace Router

variable (r : Router)

def enqueueLocked (data : Packet) : Option (RingQueue sendQueueCapacity Packet) :=
  if data.length > sendQueueEntryMaxSize then none else r.queue.push? data

variable (address typetag : CStr) (args : List UInt8)

/-- The packet of `BuildAndEnqueue`. -/
def buildPacket : OscPacket sendQueueEntryMaxSize :=
  if args.isEmpty then .begin address typetag
  else (OscPacket.begin address typetag).writeRawArgs args

def buildAndEnqueue : Bool × Router :=
  if !(buildPacket address typetag args).ok then
    (false, { r with oversizedPackets := r.oversizedPackets + 1 })
  else
    match r.enqueueLocked (buildPacket address typetag args).data with
    | none =>
      (false, { r with
        droppedCount := r.droppedCount + 1
        routeTable := r.routeTable.bumpDropCount address })
    | some queue => (true, { r with queue := queue, packetsQueued := r.packetsQueued + 1 })

/-- What `PubPipeWorkerMain` reads from a client: its source identifier of 32 bytes, and
    then its frames, until the client is gone or a length is not accepted. -/
def readPubPipe (cs : List (List UInt8)) : List Packet :=
  let (source, cs) := Frame.readExact 32 cs
  if source.length < 32 then [] else Frame.frames sendQueueEntryMaxSize cs

variable (frame : List UInt8)

/-- The length of a frame is checked before it is read. -/
def frameAccepted : Bool :=
  !(frame.length == 0 || decide (frame.length > sendQueueEntryMaxSize))

/-- The routes of a message, if it is one, count a drop. -/
def countDrop (msg : OscMessage) : RouteTable :=
  match msg.valid, msg.address with
  | true, some address => r.routeTable.bumpDropCount address
  | _, _ => r.routeTable

/-- A frame is read by `PubPipeWorkerMain`. -/
def pubPipeFrame : Router :=
  if frameAccepted frame then
    let invalid := if (oscParseMessage frame).valid then 0 else 1
    match r.enqueueLocked frame with
    | none => { r with
        pubPipeInvalidFrames := r.pubPipeInvalidFrames + invalid
        droppedCount := r.droppedCount + 1
        routeTable := r.countDrop (oscParseMessage frame)
        pubPipeQueueDrops := r.pubPipeQueueDrops + 1 }
    | some queue => { r with
        pubPipeInvalidFrames := r.pubPipeInvalidFrames + invalid
        queue := queue
        packetsQueued := r.packetsQueued + 1
        pubPipeFrames := r.pubPipeFrames + 1 }
  else { r with pubPipeInvalidFrames := r.pubPipeInvalidFrames + 1 }

/-- The critical section of `SendWorkerMain`. -/
def dequeue : Router :=
  match r.queue.pop? with
  | none => r
  | some (entry, queue) => { r with queue := queue, inFlight := some entry }

variable (entry : Packet)

/-- The routes of a message that has been sent, if it is one, count a match. -/
def countRoutes (tick : UInt64) : Router :=
  match (oscParseMessage entry).valid, (oscParseMessage entry).address with
  | true, some address =>
    { r with
      routeTable := (r.routeTable.dispatch address tick).2
      unmatchedRoutes :=
        if (r.routeTable.dispatch address tick).1 then r.unmatchedRoutes
        else r.unmatchedRoutes + 1 }
  | _, _ => r

/-- What `SendWorkerMain` does with the packet it has taken out: `sent` is what the socket
    has returned, if it was open. -/
def send (isOpen : Bool) (sent : ℤ) (tick : UInt64) : Router :=
  if isOpen && decide (entry.length > 0) then
    if sent > 0 then
      { r with
        packetsSent := r.packetsSent + 1
        bytesSent := r.bytesSent + sent.toNat
        inFlight := none }.countRoutes entry tick
    else { r with sendFailures := r.sendFailures + 1, inFlight := none }
  else if !isOpen then { r with socketClosedDrops := r.socketClosedDrops + 1, inFlight := none }
  else { r with inFlight := none }

end Router

inductive RouterAction
  | publish (address typetag : CStr) (args : List UInt8)
  | frame (frame : List UInt8)
  | dequeue
  | send (isOpen : Bool) (sent : ℤ) (tick : UInt64)
  | subscribe (sub : UInt32) (pattern label : CStr)
  | unsubscribe (sub : UInt32)

/-- The router, with any number of publishers, and one worker. -/
def routerMachine : Machine Router RouterAction where
  init := {r | r.queue.count = 0 ∧ r.inFlight = none ∧ r.packetsQueued = 0 ∧ r.droppedCount = 0 ∧
    r.oversizedPackets = 0 ∧ r.packetsSent = 0 ∧ r.sendFailures = 0 ∧ r.socketClosedDrops = 0}
  step r
    | .publish address typetag args => some (r.buildAndEnqueue address typetag args).2
    | .frame frame => some (r.pubPipeFrame frame)
    | .dequeue =>
      match r.inFlight with
      | none => some r.dequeue
      | some _ => none
    | .send isOpen sent tick =>
      match r.inFlight with
      | none => none
      | some entry => some (r.send entry isOpen sent tick)
    | .subscribe sub pattern label =>
      some { r with routeTable := (r.routeTable.subscribe sub pattern label).2 }
    | .unsubscribe sub => some { r with routeTable := r.routeTable.unsubscribe sub }

/-! ## The bounded queue -/

/-- What is observed of the packets: the attempts to queue one, those that are accepted,
    and those that leave. -/
inductive PacketEvent
  | attempted
  | accepted (p : Packet)
  | departed (p : Packet)

variable (es : List PacketEvent)

/-- The packets accepted, in order. -/
def accepted : List Packet :=
  es.filterMap fun | .accepted p => some p | _ => none

/-- The packets that have left, in order. -/
def departed : List Packet :=
  es.filterMap fun | .departed p => some p | _ => none

def attempts : ℕ :=
  es.countP fun | .attempted => true | _ => false

/-- A bounded queue, with its books. -/
structure Fifo where
  waiting : List Packet
  inFlight : Option Packet
  queued : ℕ
  dropped : ℕ
  oversized : ℕ
  departed : ℕ

/-- The steps of the bounded queue, with what is observed. A packet is dropped only if the
    queue is full. -/
inductive Fifo.Step (f : Fifo) : List PacketEvent → Fifo → Prop
  | accept (p : Packet) (hroom : f.waiting.length < sendQueueCapacity) :
      Step f [.attempted, .accepted p]
        { f with waiting := f.waiting ++ [p], queued := f.queued + 1 }
  | drop (hfull : f.waiting.length = sendQueueCapacity) :
      Step f [.attempted] { f with dropped := f.dropped + 1 }
  | oversize : Step f [.attempted] { f with oversized := f.oversized + 1 }
  | take (p : Packet) (ps : List Packet) (hwaiting : f.waiting = p :: ps)
      (hfree : f.inFlight = none) : Step f [] { f with waiting := ps, inFlight := some p }
  | depart (p : Packet) (hflight : f.inFlight = some p) :
      Step f [.departed p] { f with inFlight := none, departed := f.departed + 1 }
  | idle : Step f [] f

/-- The books are balanced, given what has been observed. -/
structure Fifo.Balanced (f : Fifo) (es : List PacketEvent) : Prop where
  order : accepted es = Osc.departed es ++ f.inFlight.toList ++ f.waiting
  bounded : f.waiting.length ≤ sendQueueCapacity
  counted : f.queued + f.dropped + f.oversized = attempts es
  queued : f.queued = (accepted es).length
  departed : f.departed = (Osc.departed es).length

theorem Fifo.Balanced.step {f f' : Fifo} {es es' : List PacketEvent} (h : f.Balanced es)
    (hs : f.Step es' f') : f'.Balanced (es ++ es') := by
  obtain ⟨horder, hbounded, hcounted, hqueued, hdeparted⟩ := h
  simp only [accepted, Osc.departed, attempts] at horder hcounted hqueued hdeparted
  cases hs with
  | accept p hroom =>
    refine ⟨by simp [accepted, Osc.departed, horder], by simpa using hroom, ?_,
      by simp [accepted, hqueued], by simp [Osc.departed, hdeparted]⟩
    simp [attempts, ← hcounted]
    omega
  | drop | oversize =>
    refine ⟨by simp [accepted, Osc.departed, horder], hbounded, ?_,
      by simp [accepted, hqueued], by simp [Osc.departed, hdeparted]⟩
    simp [attempts, ← hcounted]
    omega
  | take p ps hwaiting hfree =>
    rw [hwaiting] at hbounded
    refine ⟨by simp [accepted, Osc.departed, horder, hwaiting, hfree],
      (Nat.le_succ _).trans hbounded, ?_, by simp [accepted, hqueued],
      by simp [Osc.departed, hdeparted]⟩
    simp [attempts, ← hcounted]
  | depart p hflight =>
    refine ⟨by simp [accepted, Osc.departed, horder, hflight], hbounded, ?_,
      by simp [accepted, hqueued], by simp [Osc.departed, hdeparted]⟩
    simp [attempts, ← hcounted]
  | idle =>
    rw [append_nil]
    exact ⟨horder, hbounded, hcounted, hqueued, hdeparted⟩

/-! ## Refinement -/

namespace Router

variable {r r' : Router} {data : Packet}

/-- The queue of the router, and its books. -/
def fifo (r : Router) : Fifo where
  waiting := r.queue.toList
  inFlight := r.inFlight
  queued := r.packetsQueued
  dropped := r.droppedCount
  oversized := r.oversizedPackets
  departed := r.packetsSent + r.sendFailures + r.socketClosedDrops

/-- No packet is empty: the worker would not count it. -/
def NonEmpty (r : Router) : Prop := ∀ p ∈ r.inFlight.toList ++ r.queue.toList, p ≠ []

variable {q : RingQueue sendQueueCapacity Packet}

theorem toList_enqueueLocked (h : r.enqueueLocked data = some q) :
    q.toList = r.queue.toList ++ [data] ∧ r.queue.toList.length < sendQueueCapacity := by
  unfold enqueueLocked at h
  split_ifs at h
  refine ⟨RingQueue.toList_push h, ?_⟩
  have hroom : r.queue.count ≠ sendQueueCapacity := fun hfull => by
    rw [RingQueue.push?_eq_none.2 hfull] at h
    cases h
  rw [RingQueue.length_toList]
  exact Nat.lt_of_le_of_ne r.queue.count_le hroom

/-- A packet that is not too large is refused only if the queue is full. -/
theorem full_of_enqueueLocked (hsize : data.length ≤ sendQueueEntryMaxSize)
    (h : r.enqueueLocked data = none) : r.queue.toList.length = sendQueueCapacity := by
  rw [enqueueLocked, if_neg (Nat.not_lt.2 hsize), RingQueue.push?_eq_none] at h
  rw [RingQueue.length_toList, h]

theorem NonEmpty.enqueue (hr : r.NonEmpty)
    (h : r.enqueueLocked data = some q) (hdata : data ≠ []) (hqueue : r'.queue = q)
    (hflight : r'.inFlight = r.inFlight) : r'.NonEmpty := by
  intro p hp
  rw [hqueue, hflight, (toList_enqueueLocked h).1, ← append_assoc, mem_append,
    mem_singleton] at hp
  rcases hp with hp | rfl
  · exact hr p hp
  · exact hdata

theorem wrote_buildPacket (address typetag : CStr) (args : List UInt8) :
    (buildPacket address typetag args).Wrote (address.encode ++ typetag.encode ++ args) := by
  have hbegin := OscPacket.wrote_begin (N := sendQueueEntryMaxSize) address typetag
  unfold buildPacket
  split_ifs with hargs
  · rw [isEmpty_iff.1 hargs, append_nil]
    exact hbegin
  · exact hbegin.append args

/-- A packet has an address. -/
theorem buildPacket_ne_nil {address typetag : CStr} {args : List UInt8}
    (h : (buildPacket address typetag args).ok = true) :
    (buildPacket address typetag args).data ≠ [] := by
  rw [(wrote_buildPacket address typetag args).data_eq h]
  simp [CStr.encode, padded]

end Router

def observed (r : Router) : RouterAction → List PacketEvent
  | .publish address typetag args =>
    .attempted :: if (r.buildAndEnqueue address typetag args).1 then
      [.accepted (Router.buildPacket address typetag args).data] else []
  | .frame frame =>
    if Router.frameAccepted frame then
      .attempted :: if (r.enqueueLocked frame).isSome then [.accepted frame] else []
    else []
  | .send .. => r.inFlight.toList.map .departed
  | .dequeue | .subscribe .. | .unsubscribe .. => []

namespace Router

variable {r r' : Router}

theorem publish_refines (hr : r.NonEmpty) (address typetag : CStr) (args : List UInt8) :
    r.fifo.Step (observed r (.publish address typetag args))
        (r.buildAndEnqueue address typetag args).2.fifo ∧
      (r.buildAndEnqueue address typetag args).2.NonEmpty := by
  simp only [observed, buildAndEnqueue]
  split
  · exact ⟨.oversize, hr⟩
  · rename_i hok
    split
    · rename_i hfull
      exact ⟨.drop (full_of_enqueueLocked (OscPacket.length_le _) hfull), hr⟩
    · rename_i q hq
      obtain ⟨hlist, hroom⟩ := toList_enqueueLocked hq
      refine ⟨?_, hr.enqueue hq (buildPacket_ne_nil (by simpa using hok)) rfl rfl⟩
      simp only [fifo, hlist]
      exact Fifo.Step.accept (f := r.fifo) _ hroom

theorem frame_refines (hr : r.NonEmpty) (frame : List UInt8) :
    r.fifo.Step (observed r (.frame frame)) (r.pubPipeFrame frame).fifo ∧
      (r.pubPipeFrame frame).NonEmpty := by
  simp only [observed, pubPipeFrame]
  split
  · rename_i hframe
    simp only [frameAccepted, Bool.not_eq_true', Bool.or_eq_false_iff, beq_eq_false_iff_ne,
      decide_eq_false_iff_not, Nat.not_lt] at hframe
    cases hq : r.enqueueLocked frame with
    | none => exact ⟨.drop (full_of_enqueueLocked hframe.2 hq), hr⟩
    | some q =>
      obtain ⟨hlist, hroom⟩ := toList_enqueueLocked hq
      have hne : frame ≠ [] := fun h => hframe.1 (by rw [h, length_nil])
      refine ⟨?_, hr.enqueue hq hne rfl rfl⟩
      simp only [fifo, hlist]
      exact Fifo.Step.accept (f := r.fifo) _ hroom
  · exact ⟨.idle, hr⟩

theorem dequeue_refines (hr : r.NonEmpty) (hfree : r.inFlight = none) :
    r.fifo.Step [] r.dequeue.fifo ∧ r.dequeue.NonEmpty := by
  unfold dequeue
  split
  · exact ⟨.idle, hr⟩
  · rename_i entry q hq
    have hlist := RingQueue.toList_pop hq
    refine ⟨.take entry q.toList hlist hfree, fun p hp => hr p ?_⟩
    rw [hfree, hlist]
    simpa using hp

theorem fifo_countRoutes (entry : Packet) (tick : UInt64) :
    (r.countRoutes entry tick).fifo = r.fifo := by
  unfold countRoutes
  split <;> rfl

/-- A packet that has been taken out is counted, as it is not empty. -/
theorem send_refines (hr : r.NonEmpty) {entry : Packet} (hflight : r.inFlight = some entry)
    (isOpen : Bool) (sent : ℤ) (tick : UInt64) :
    r.fifo.Step [.departed entry] (r.send entry isOpen sent tick).fifo ∧
      (r.send entry isOpen sent tick).NonEmpty := by
  have hlen : entry.length > 0 := length_pos_of_ne_nil (hr entry (by simp [hflight]))
  have hfifo : (r.send entry isOpen sent tick).fifo =
      { r.fifo with inFlight := none, departed := r.fifo.departed + 1 } := by
    cases isOpen with
    | true =>
      simp only [send, hlen, decide_true, Bool.and_self, if_true]
      split_ifs
      · rw [fifo_countRoutes]
        simp only [fifo, Fifo.mk.injEq, true_and]
        omega
      · simp only [fifo, Fifo.mk.injEq, true_and]
        omega
    | false => rfl
  have hqueue := congrArg Fifo.waiting hfifo
  have hnone := congrArg Fifo.inFlight hfifo
  refine ⟨hfifo ▸ .depart entry hflight, fun p hp => hr p ?_⟩
  rw [show (r.send entry isOpen sent tick).inFlight = none from hnone,
    show (r.send entry isOpen sent tick).queue.toList = r.queue.toList from hqueue] at hp
  exact mem_append_right _ hp

end Router

/-- Every action of the router is a step of the bounded queue. -/
theorem step_refines {r r' : Router} {a : RouterAction} (hr : r.NonEmpty)
    (hs : routerMachine.step r a = some r') : r.fifo.Step (observed r a) r'.fifo ∧ r'.NonEmpty := by
  cases a with
  | publish address typetag args =>
    cases hs
    exact Router.publish_refines hr address typetag args
  | frame frame =>
    cases hs
    exact Router.frame_refines hr frame
  | dequeue =>
    simp only [routerMachine] at hs
    split at hs
    · rename_i hfree
      cases hs
      exact Router.dequeue_refines hr hfree
    · cases hs
  | send isOpen sent tick =>
    simp only [routerMachine] at hs
    split at hs
    · cases hs
    · rename_i entry hflight
      cases hs
      simp only [observed, hflight]
      exact Router.send_refines hr hflight isOpen sent tick
  | subscribe _ _ _ | unsubscribe _ =>
    cases hs
    exact ⟨.idle, hr⟩

/-- In every run, the packets leave in the order in which they were accepted, at most
    1024 of them wait, every attempt to queue a packet is counted once, and the packets
    counted as queued are those sent, failed or dropped by a closed socket, and those
    that wait or are in flight. -/
theorem sendQueue_fifo {as : List RouterAction} {r : Router} {es : List PacketEvent}
    (h : (routerMachine.recording observed).Run as (r, es)) :
    accepted es = departed es ++ r.inFlight.toList ++ r.queue.toList ∧
      r.queue.count ≤ sendQueueCapacity ∧
      r.packetsQueued = (accepted es).length ∧
      r.packetsQueued + r.droppedCount + r.oversizedPackets = attempts es ∧
      r.packetsQueued = r.packetsSent + r.sendFailures + r.socketClosedDrops +
        (r.inFlight.toList.length + r.queue.count) := by
  have hinv : r.fifo.Balanced es ∧ r.NonEmpty := by
    refine Machine.RunIf.invariant (I := fun p => p.1.fifo.Balanced p.2 ∧ p.1.NonEmpty) h ?_ ?_
    · rintro ⟨r, es⟩
        ⟨⟨hcount, hflight, hqueued, hdropped, hoversized, hsent, hfailed, hclosed⟩, rfl⟩
      have hlist : r.queue.toList = [] := List.eq_nil_of_length_eq_zero (by simpa using hcount)
      refine ⟨⟨?_, ?_, ?_, ?_, ?_⟩, fun p hp => ?_⟩
      all_goals simp_all [Router.fifo, accepted, departed, attempts]
    · rintro ⟨r, es⟩ a ⟨r', es'⟩ ⟨hbalanced, hne⟩ - hs
      obtain ⟨hs, rfl⟩ := Machine.recording_step hs
      obtain ⟨hstep, hne'⟩ := step_refines hne hs
      exact ⟨hbalanced.step hstep, hne'⟩
  obtain ⟨⟨horder, hbounded, hcounted, hqueued, hdeparted⟩, -⟩ := hinv
  have hlen := congrArg List.length horder
  simp only [Router.fifo, List.length_append, RingQueue.length_toList] at *
  exact ⟨horder, hbounded, hqueued, hcounted, by omega⟩

def Router.fresh : Router where
  queue := ⟨.const _ [], 0, 0, 0, Nat.zero_le _, rfl⟩
  inFlight := none
  routeTable := .fresh fun _ => ⟨⟨[], [], 0, 0, 0⟩, 0, false⟩
  packetsQueued := 0
  droppedCount := 0
  oversizedPackets := 0
  packetsSent := 0
  bytesSent := 0
  sendFailures := 0
  socketClosedDrops := 0
  unmatchedRoutes := 0
  pubPipeFrames := 0
  pubPipeInvalidFrames := 0
  pubPipeQueueDrops := 0

theorem sendQueue_fifo_three_attempts : ∃ as r es,
    (routerMachine.recording observed).Run as (r, es) ∧
    (r.packetsSent = 1 ∧ r.queue.count = 1 ∧ r.oversizedPackets = 1) ∧
    accepted es = departed es ++ r.inFlight.toList ++ r.queue.toList ∧
      r.queue.count ≤ sendQueueCapacity ∧
      r.packetsQueued = (accepted es).length ∧
      r.packetsQueued + r.droppedCount + r.oversizedPackets = attempts es ∧
      r.packetsQueued = r.packetsSent + r.sendFailures + r.socketClosedDrops +
        (r.inFlight.toList.length + r.queue.count) := by
  have hexec : ∃ p, (routerMachine.recording observed).Run
      [.publish ⟨[47, 97], by decide⟩ ⟨[44, 105], by decide⟩ [0, 0, 0, 1],
        .publish ⟨[47, 97], by decide⟩ ⟨[44], by decide⟩ (List.replicate 512 0),
        .frame [47, 98, 0, 0, 44, 0, 0, 0], .dequeue, .send true 12 0] p ∧
      p.1.packetsSent = 1 ∧ p.1.queue.count = 1 ∧ p.1.oversizedPackets = 1 :=
    Machine.exists_runIf _ (.fresh, []) ⟨⟨rfl, rfl, rfl, rfl, rfl, rfl, rfl, rfl⟩, rfl⟩
      (by decide +kernel)
  obtain ⟨⟨r, es⟩, hrun, hr⟩ := hexec
  exact ⟨_, r, es, hrun, hr, sendQueue_fifo hrun⟩

end WKOpenVR.Osc
