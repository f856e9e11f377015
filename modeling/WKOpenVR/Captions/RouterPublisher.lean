import WKOpenVR.Captions.ChatboxText
import WKOpenVR.Osc.Router

/-!
# Publishing captions through the router

The captions host sends texts to the chatbox as OSC packets, over the publish pipe of the
router (`RouterPublisher`). For each packet it connects, writes its source identifier and
the packet as a frame, and disconnects; if the pipe breaks it tries once more. The router
reads what its clients write (`readPubPipe`) and parses the packets.

A text is cut to 144 bytes before it is encoded, and the address comes from a buffer of
the driver's configuration, with 48 bytes. So no packet is refused, and the router recovers
all of them, whenever and wherever the pipe breaks and however the reads are cut
(`recovered_of_shortAddress`). The publisher itself does not cut the address: it takes
packets of up to 1024 bytes, the router frames of up to 512, and without a bound on the
addresses all packets are recovered if and only if each has at most 512 bytes or is refused
by the publisher (`recovered_iff`).
-/

namespace WKOpenVR.Captions

open Text Osc WKOpenVR.Frame List

namespace RouterPublisher

/-- A string as `c_str` gives it: up to the first NUL. -/
def cstr (s : List UInt8) : CStr where
  bytes := s.takeWhile (· != 0)
  nul_free h := by simpa using List.mem_takeWhile_imp h

def sourceId : List UInt8 := ascii "translator" ++ List.replicate 22 0

/-- A call of `PublishChatbox` or `PublishTyping`. -/
inductive Call
  | chatbox (address text : List UInt8) (sendImmediate notify : Bool)
  | typing (active : Bool)

/-- The tag of a boolean argument, which has no data. -/
def boolTag (b : Bool) : UInt8 := if b then 84 else 70

theorem boolTag_ne_zero (b : Bool) : boolTag b ≠ 0 := by cases b <;> decide

/-- The address of the packet: the chatbox, unless the one given is absolute. -/
def packetAddress (address : List UInt8) : CStr :=
  if address.head? = some 47 then cstr address else cstr (ascii "/chatbox/input")

/-- The type tag of a text, `,sTT`. -/
def chatboxTag (sendImmediate notify : Bool) : CStr where
  bytes := [44, 115, boolTag sendImmediate, boolTag notify]
  nul_free := by simp [(boolTag_ne_zero _).symm]

/-- The type tag of a boolean, `,T`. -/
def typingTag (active : Bool) : CStr where
  bytes := [44, boolTag active]
  nul_free := by simp [(boolTag_ne_zero _).symm]

/-- The size that `EncodeChatboxPacket` and `EncodeBoolPacket` compute. -/
def packetSize (strings : List CStr) : ℕ := (strings.map CStr.advance).sum

/-- `EncodeChatboxPacket` and `EncodeBoolPacket`: the strings are written, unless they do not
    fit into the buffer. -/
def encodePacket (bufSize : ℕ) (strings : List CStr) : Option (List UInt8) :=
  if packetSize strings > bufSize then none else some (strings.flatMap CStr.encode)

namespace Call

def bufSize : Call → ℕ
  | chatbox .. => 1024
  | typing _ => 128

def address : Call → CStr
  | chatbox address .. => packetAddress address
  | typing _ => cstr (ascii "/chatbox/typing")

def typetag : Call → CStr
  | chatbox _ _ sendImmediate notify => chatboxTag sendImmediate notify
  | typing active => typingTag active

/-- The arguments that have data. -/
def args : Call → List CStr
  | chatbox _ text .. => [cstr (truncateTextForChatbox text vrchatChatboxByteLimit)]
  | typing _ => []

variable (c : Call)

def strings : List CStr := c.address :: c.typetag :: c.args

/-- The packet, unless it is refused. -/
def packet : Option (List UInt8) := encodePacket c.bufSize c.strings

/-- What the router is to recover. -/
def message : OscMessage :=
  ⟨some c.address, some c.typetag, c.args.flatMap CStr.encode, true⟩

end Call

variable {strings : List CStr}

/-- What is written to a connection. -/
def stream (packet : List UInt8) : List UInt8 := sourceId ++ frame packet

/-- What happens when the publisher tries to send a packet. -/
inductive Attempt
  /-- The pipe cannot be opened. -/
  | unavailable
  /-- The pipe takes this many bytes, and then breaks. -/
  | opened (bytes : ℕ)

/-- The loop of `PublishPacket`, with the attempts that are left: whether the packet was
    sent, and what was written to each connection. -/
def attemptLoop (stream : List UInt8) (outcome : ℕ → Attempt) : ℕ → Bool × List (List UInt8)
  | 0 => (false, [])
  | n + 1 =>
    match outcome n with
    | .unavailable => (false, [])
    | .opened bytes =>
      if bytes < sourceId.length then (false, [stream.take bytes]) -- `Connect` fails.
      else if bytes < stream.length then
        ((attemptLoop stream outcome n).1, stream.take bytes :: (attemptLoop stream outcome n).2)
      else (true, [stream])

/-- `PublishChatbox`, `PublishTyping`. -/
def Call.publish (c : Call) (outcome : ℕ → Attempt) : Bool × List (List UInt8) :=
  match c.packet with
  | none => (false, [])
  | some packet => attemptLoop (stream packet) outcome 2

/-- All packets of the calls are recovered by the router:

    * no packet is written past the end of its buffer;
    * whatever happens to the pipe, and however the reads of the router are cut, it
      recovers the messages of the calls that succeed, in order;
    * so it would from a single connection with the frames of all calls. -/
structure Recovered (calls : List Call) : Prop where
  inBounds : ∀ c ∈ calls, ∀ p ∈ c.packet, p.length ≤ c.bufSize
  published : ∀ (run : List (Call × (ℕ → Attempt))) (connections : List (List (List UInt8))),
    run.map Prod.fst = calls →
    connections.map List.flatten = run.flatMap (fun x => (x.1.publish x.2).2) →
    (connections.flatMap Router.readPubPipe).map oscParseMessage =
      (run.filter fun x => (x.1.publish x.2).1).map (·.1.message)
  framed : ∀ cs : List (List UInt8),
    cs.flatten = sourceId ++ (calls.filterMap Call.packet).flatMap frame →
    (Router.readPubPipe cs).map oscParseMessage =
      (calls.filter (·.packet.isSome)).map Call.message

/-- The packet has at most 512 bytes, or is refused. -/
def Call.Fits (c : Call) : Prop :=
  (c.strings.map fun s => roundUp4 (s.bytes.length + 1)).sum ≤ sendQueueEntryMaxSize ∨
    packetSize c.strings > c.bufSize

/-- No string of a packet within the limit is so long that it is not padded. -/
theorem short_of_mem {s : CStr} (h : (strings.flatMap CStr.encode).length ≤ sendQueueEntryMaxSize)
    (hs : s ∈ strings) : s.Short := by
  have hle : s.encode.length ≤ (strings.flatMap CStr.encode).length := by
    rw [length_flatMap]
    exact le_sum_of_mem (mem_map_of_mem hs)
  have hlength := s.length_encode
  rw [CStr.Short]
  simp only [sendQueueEntryMaxSize] at h
  omega

/-- The size of a packet within the limit is that of its strings, padded. -/
theorem length_flatMap_encode_le_iff :
    (strings.flatMap CStr.encode).length ≤ sendQueueEntryMaxSize ↔
      (strings.map fun s => roundUp4 (s.bytes.length + 1)).sum ≤ sendQueueEntryMaxSize := by
  constructor
  · intro h
    have hmap : strings.map (fun s => roundUp4 (s.bytes.length + 1)) =
        strings.map fun s => s.encode.length :=
      map_congr_left fun s hs => CStr.roundUp4_of_short (short_of_mem h hs)
    rwa [hmap, ← length_flatMap]
  · intro h
    rw [length_flatMap]
    exact (sum_le_sum fun s _ => s.length_encode_le).trans h

/-- It is also the size that was computed. -/
theorem length_flatMap_encode (h : (strings.flatMap CStr.encode).length ≤ sendQueueEntryMaxSize) :
    (strings.flatMap CStr.encode).length = packetSize strings := by
  rw [length_flatMap, packetSize]
  exact congrArg List.sum (map_congr_left fun s hs =>
    CStr.length_encode_of_short (short_of_mem h hs))

namespace Call

variable {c : Call} {p : List UInt8}

theorem eq_of_packet (h : c.packet = some p) :
    p = c.strings.flatMap CStr.encode ∧ packetSize c.strings ≤ c.bufSize := by
  rw [packet, encodePacket] at h
  split_ifs at h with hsize
  exact ⟨(Option.some.inj h).symm, not_lt.1 hsize⟩

theorem fits_iff_of_packet (h : c.packet = some p) : c.Fits ↔ p.length ≤ sendQueueEntryMaxSize := by
  obtain ⟨rfl, hsize⟩ := eq_of_packet h
  rw [length_flatMap_encode_le_iff, Fits, or_iff_left hsize.not_gt]

theorem packet_ne_nil (h : c.packet = some p) : p ≠ [] := by
  obtain ⟨rfl, -⟩ := eq_of_packet h
  simp [strings, CStr.encode, padded]

/-- A packet within the limit is parsed to its message. -/
theorem parse_packet (h : c.packet = some p) (hle : p.length ≤ sendQueueEntryMaxSize) :
    oscParseMessage p = c.message := by
  obtain ⟨rfl, -⟩ := eq_of_packet h
  have haddress : c.address.Short := short_of_mem hle (by simp [strings])
  have htypetag : c.typetag.Short := short_of_mem hle (by simp [strings])
  have hparse := oscParseMessage_encode haddress htypetag (c.args.flatMap CStr.encode)
  rwa [append_assoc] at hparse

end Call

/-! ## Connections -/

theorem length_sourceId : sourceId.length = 32 := by decide

section

variable {cs : List (List UInt8)} {p rest : List UInt8} {n : ℕ}

/-- The frames are what is read after the source identifier. -/
theorem readPubPipe_eq (h : cs.flatten = sourceId ++ rest) :
    ∃ cs', Router.readPubPipe cs = frames sendQueueEntryMaxSize cs' ∧ cs'.flatten = rest := by
  obtain ⟨cs', hsource, hcs'⟩ := readExact_append h
  rw [length_sourceId] at hsource
  exact ⟨cs', by simp [Router.readPubPipe, hsource, length_sourceId], hcs'⟩

/-- The router reads the frames of a connection up to a point where it cannot go on. -/
theorem readPubPipe_frames (ps : List (List UInt8)) (rest : List UInt8)
    (hps : ∀ p ∈ ps, p ≠ [] ∧ p.length ≤ sendQueueEntryMaxSize)
    (hrest : Stuck sendQueueEntryMaxSize rest)
    (h : cs.flatten = sourceId ++ (ps.flatMap frame ++ rest)) : Router.readPubPipe cs = ps := by
  obtain ⟨cs', hread, hcs'⟩ := readPubPipe_eq h
  rw [hread]
  exact frames_eq (by decide) ps rest hps hrest hcs'

theorem readPubPipe_stream (hne : p ≠ []) (hlt : p.length < 2 ^ 32) (h : cs.flatten = stream p) :
    Router.readPubPipe cs = if p.length ≤ sendQueueEntryMaxSize then [p] else [] := by
  split_ifs with hle
  · refine readPubPipe_frames [p] [] ?_ stuck_nil (by simpa [stream] using h)
    simpa using ⟨hne, hle⟩
  · exact readPubPipe_frames [] (frame p ++ []) nofun
      (stuck_frame (not_le.1 hle) hlt) (by simpa [stream] using h)

/-- Nothing is read from a connection that breaks before the end of the packet. -/
theorem readPubPipe_take (hlt : p.length < 2 ^ 32) (hn : n < (stream p).length)
    (h : cs.flatten = (stream p).take n) : Router.readPubPipe cs = [] := by
  by_cases hsource : n < sourceId.length
  · have hread := (readExact_eq 32 cs).1
    have hshort : (readExact 32 cs).1.length < 32 := by
      rw [hread, h, length_take, length_take]
      rw [length_sourceId] at hsource
      omega
    simp [Router.readPubPipe, hshort]
  · rw [stream, take_append, take_of_length_le (not_lt.1 hsource)] at h
    rw [stream, length_append] at hn
    refine readPubPipe_frames [] _ nofun (stuck_take hlt ?_) (by simpa using h)
    omega

/-- The router reads the packet once if it was sent, and not at all otherwise. -/
theorem readPubPipe_attemptLoop (hne : p ≠ []) (hle : p.length ≤ sendQueueEntryMaxSize)
    {outcome : ℕ → Attempt} {ok : Bool} {connections : List (List (List UInt8))}
    (h : attemptLoop (stream p) outcome n = (ok, connections.map List.flatten)) :
    connections.flatMap Router.readPubPipe = if ok then [p] else [] := by
  have hlt : p.length < 2 ^ 32 := hle.trans_lt (by decide)
  have hsourceLe : sourceId.length ≤ (stream p).length := by simp [stream]
  induction n generalizing ok connections with
  | zero =>
    obtain ⟨rfl, hnil⟩ := Prod.mk.inj h
    simp [map_eq_nil_iff.1 hnil.symm]
  | succ n ih =>
    rw [attemptLoop] at h
    split at h
    · obtain ⟨rfl, hnil⟩ := Prod.mk.inj h
      simp [map_eq_nil_iff.1 hnil.symm]
    next bytes _ =>
      split_ifs at h with hsource hbroken
      · obtain ⟨rfl, hone⟩ := Prod.mk.inj h
        obtain ⟨cs, rfl, hcs⟩ := map_eq_singleton_iff.1 hone.symm
        simp [readPubPipe_take hlt (hsource.trans_le hsourceLe) hcs]
      · obtain ⟨hok, hcons⟩ := Prod.mk.inj h
        obtain ⟨cs, connections, rfl, hcs, hrest⟩ := map_eq_cons_iff.1 hcons.symm
        rw [flatMap_cons, readPubPipe_take hlt hbroken hcs, nil_append]
        exact ih (Prod.ext hok hrest.symm)
      · obtain ⟨rfl, hone⟩ := Prod.mk.inj h
        obtain ⟨cs, rfl, hcs⟩ := map_eq_singleton_iff.1 hone.symm
        simp [readPubPipe_stream hne hlt hcs, hle]

end

variable {calls : List Call}

/-! ## Runs -/

open Call

variable {c : Call} {connections : List (List (List UInt8))}

/-- The router recovers the message of a call if it succeeds, and nothing otherwise. -/
theorem recovered_publish (hc : c.Fits) (outcome : ℕ → Attempt)
    (h : connections.map List.flatten = (c.publish outcome).2) :
    (connections.flatMap Router.readPubPipe).map oscParseMessage =
      if (c.publish outcome).1 then [c.message] else [] := by
  rw [publish] at h ⊢
  cases hp : c.packet with
  | none =>
    rw [hp] at h
    obtain rfl : connections = [] := map_eq_nil_iff.1 h
    rfl
  | some p =>
    simp only [hp] at h ⊢
    have hle := (fits_iff_of_packet hp).1 hc
    rw [readPubPipe_attemptLoop (packet_ne_nil hp) hle (Prod.ext rfl h.symm)]
    split_ifs
    · simp [parse_packet hp hle]
    · rfl

theorem recovered_run {run : List (Call × (ℕ → Attempt))} (hrun : ∀ x ∈ run, x.1.Fits)
    (h : connections.map List.flatten = run.flatMap fun x => (x.1.publish x.2).2) :
    (connections.flatMap Router.readPubPipe).map oscParseMessage =
      (run.filter fun x => (x.1.publish x.2).1).map (·.1.message) := by
  induction run generalizing connections with
  | nil =>
    obtain rfl : connections = [] := map_eq_nil_iff.1 h
    rfl
  | cons x run ih =>
    obtain ⟨hx, hrun⟩ := forall_mem_cons.1 hrun
    rw [flatMap_cons] at h
    obtain ⟨connections₁, connections₂, rfl, h₁, h₂⟩ := map_eq_append_iff.1 h
    rw [flatMap_append, map_append, recovered_publish hx x.2 h₁, ih hrun h₂, filter_cons]
    split_ifs <;> rfl

/-- The packets of the calls are parsed to their messages. -/
theorem map_parse_packets (h : ∀ c ∈ calls, c.Fits) :
    (calls.filterMap packet).map oscParseMessage =
      (calls.filter (·.packet.isSome)).map message := by
  induction calls with
  | nil => rfl
  | cons c calls ih =>
    obtain ⟨hc, h⟩ := forall_mem_cons.1 h
    rw [filterMap_cons, filter_cons]
    cases hp : c.packet with
    | none => exact ih h
    | some p =>
      have hparse := parse_packet hp ((fits_iff_of_packet hp).1 hc)
      simp [hparse, ih h]

theorem recovered_of_fits (h : ∀ c ∈ calls, c.Fits) : Recovered calls where
  inBounds c hc p hp := by
    have hle := (fits_iff_of_packet hp).1 (h c hc)
    obtain ⟨rfl, hsize⟩ := eq_of_packet hp
    rwa [length_flatMap_encode hle]
  published run connections hcalls hconnections := by
    refine recovered_run (fun x hx => h _ ?_) hconnections
    rw [← hcalls]
    exact mem_map_of_mem hx
  framed cs hcs := by
    rw [← map_parse_packets h]
    refine congrArg (List.map oscParseMessage)
      (readPubPipe_frames _ [] (fun p hp => ?_) stuck_nil (by simpa using hcs))
    obtain ⟨c, hc, hp⟩ := mem_filterMap.1 hp
    exact ⟨packet_ne_nil hp, (fits_iff_of_packet hp).1 (h c hc)⟩

theorem publish_unavailable (c : Call) : c.publish (fun _ => .unavailable) = (false, []) := by
  rw [publish]
  cases c.packet <;> rfl

variable {p : List UInt8}

theorem publish_opened (hp : c.packet = some p) :
    c.publish (fun _ => .opened (stream p).length) = (true, [stream p]) := by
  have hsourceLe : sourceId.length ≤ (stream p).length := by simp [stream]
  simp [publish, hp, attemptLoop, hsourceLe]

/-- The router rejects a packet that is too long, when no other call finds the pipe. -/
theorem Recovered.length_le (h : Recovered calls) (hc : c ∈ calls)
    (hp : c.packet = some p) : p.length ≤ sendQueueEntryMaxSize := by
  obtain ⟨pre, post, rfl⟩ := append_of_mem hc
  have hlt : p.length < 2 ^ 32 := by
    refine (h.inBounds c hc p hp).trans_lt ?_
    cases c <;> simp [bufSize]
  have hnil (l : List Call) : l.flatMap (fun _ => ([] : List (List UInt8))) = [] := by simp
  have hrecovered := h.published
    (pre.map (·, fun _ => .unavailable) ++ (c, fun _ => .opened (stream p).length) ::
      post.map (·, fun _ => .unavailable))
    [[stream p]] (by simp [Function.comp_def])
    (by simp [flatMap_map, publish_unavailable, publish_opened hp, hnil])
  by_contra hle
  have hread : Router.readPubPipe [stream p] = [] := by
    rw [readPubPipe_stream (packet_ne_nil hp) hlt (by simp), if_neg hle]
  simp [hread, publish_opened hp] at hrecovered

/-- All packets are recovered by the router exactly if each of them has at most 512 bytes
    or is refused by the publisher. -/
theorem recovered_iff (calls : List Call) : Recovered calls ↔ ∀ c ∈ calls, c.Fits := by
  refine ⟨fun h c hc => ?_, recovered_of_fits⟩
  cases hp : c.packet with
  | none =>
    rw [Call.packet, encodePacket] at hp
    split_ifs at hp with hsize
    exact .inr hsize
  | some p => exact (Call.fits_iff_of_packet hp).2 (h.length_le hc hp)

/-- An absolute address of 360 bytes: the publisher reports success, and the router recovers
    nothing. -/
example :
    let call := Call.chatbox (47 :: List.replicate 359 97) (List.replicate 144 98) true false
    (call.publish fun _ => .opened 10000).1 = true ∧
      (call.publish fun _ => .opened 10000).2.flatMap (fun bytes => Router.readPubPipe [bytes]) =
        [] := by
  decide +kernel

end RouterPublisher

end WKOpenVR.Captions
