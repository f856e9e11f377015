import WKOpenVR.Dialogue

/-!
# The client of the driver's pipe

`IpcClientBase` sends requests to the driver over a named pipe, and reads one response for each.
A connection begins with a handshake. If the pipe is broken the client connects again, with a new
handshake, and sends the request a second time. The handshake is itself sent by `SendBlocking`,
so the two functions call each other; the flag `reconnecting_` ends this.

What the system does is asked for here (`Io`), and any answer may be given, as far as the server
keeps to one answer for each request, in order. A pipe keeps the messages that are not read yet.

The client closes the pipe where it cannot tell any more what comes next in it, with three
exceptions: if the response to a handshake is too long, it reads the rest of it and leaves the
pipe open, without a handshake; if the rest of a long response cannot be read, it leaves the pipe
open with the rest in it; and if it has no event to wait for, it leaves the pipe open as it is.
If none of these happen, a pipe that is open between the calls has its handshake and nothing in
it, and a call that returns has the response to its own request (`answered_and_handshaken`).
-/

namespace WKOpenVR.Overlay.IpcClient

open List

/-! ## Messages -/

structure Request where
  type : ℕ
  payload : List UInt8 := []
  deriving DecidableEq

structure Response where
  type : ℕ
  /-- `protocol.version`. -/
  version : UInt32
  payload : List UInt8 := []
  deriving DecidableEq

def requestHandshake : ℕ := 1

def responseHandshake : ℕ := 1

def protocolVersion : UInt32 := 44

/-- The handshake that `ConnectImpl` sends. -/
def handshake : Request := { type := requestHandshake }

/-- `sizeof (protocol::Request)` and `sizeof (protocol::Response)`. -/
structure Layout where
  requestSize : ℕ
  responseSize : ℕ

/-- The message that the server answers a request with. -/
structure Answer where
  length : ℕ
  /-- The response that the bytes from an offset on make up. -/
  bytes : ℕ → Response

/-- A request that the server has received, and its answer. -/
structure Delivery where
  request : Request
  answer : Answer

/-- A message that is not read to its end. -/
structure Message where
  delivery : Delivery
  /-- How much of it has been read. -/
  offset : ℕ := 0

/-- An open pipe: what is to be read from it, and what has been read. -/
structure Pipe where
  unread : List Message := []
  received : List Delivery := []

/-- The response is one to a handshake, with the version of the client. -/
def Response.Matching (r : Response) : Prop :=
  r.type = responseHandshake ∧ r.version = protocolVersion

instance (r : Response) : Decidable r.Matching := inferInstanceAs (Decidable (_ ∧ _))

/-- The pipe has completed a handshake. -/
def Pipe.Handshaken (L : Layout) (p : Pipe) : Prop :=
  ∃ d ∈ p.received, d.request = handshake ∧ d.answer.length = L.responseSize ∧
    (d.answer.bytes 0).Matching

instance (L : Layout) (p : Pipe) : Decidable (p.Handshaken L) :=
  inferInstanceAs (Decidable (∃ d ∈ p.received, _ ∧ _ ∧ _))

/-! ## The system -/

def errorBrokenPipe : UInt32 := 109

def errorNoData : UInt32 := 232

def errorPipeNotConnected : UInt32 := 233

def errorMoreData : UInt32 := 234

def isBrokenPipeError (code : UInt32) : Bool :=
  code = errorBrokenPipe || code = errorPipeNotConnected || code = errorNoData

/-- What the client asks the system for. -/
inductive Io
  /-- The time, in milliseconds. -/
  | now
  | openPipe
  | setMode
  | createEvent
  | write
  | read
  /-- A read of the rest of a response that is too long. -/
  | drain
  deriving DecidableEq

inductive WriteOutcome
  | wrote (bytes : ℕ)
  | failed (error : UInt32)
  | timeout
  deriving DecidableEq

/-- How a write ends. The server may have received a request whose write has failed. -/
structure WriteReply where
  outcome : WriteOutcome
  delivered : Bool := true
  answer : Answer

/-- How a read ends: with what fits of the next message, or else. An error that there is more
    of a message only occurs with the message. -/
inductive ReadReply
  | message
  | failed (error : {code : UInt32 // code ≠ errorMoreData})
  | timeout

/-- The answers of the system; an error is none if the call succeeds. -/
def Io.Reply : Io → Type
  | .now => ℤ
  | .openPipe => Option UInt32
  | .setMode => Option UInt32
  | .createEvent => Bool
  | .write => WriteReply
  | .read => ReadReply
  | .drain => ReadReply

/-! ## The client -/

inductive MismatchState
  | matching
  | overlayNewer
  | driverNewer
  deriving DecidableEq

structure Client where
  pipe : Option Pipe := none
  pipeName : String := ""
  hasEvent : Bool := false
  reconnecting : Bool := false
  nextConnectAttempt : ℤ := 0
  mismatchState : MismatchState := .matching
  driverVersion : UInt32 := 0
  connectionGeneration : ℕ := 0
  /-- The request of the current call of `SendBlocking`. -/
  request : Option Request := none
  /-- The request of the current call, as often as the server has received it. -/
  delivered : List Delivery := []

inductive Failure
  | deferred
  | unavailable (error : UInt32)
  | modeFailed (error : UInt32)
  | versionMismatch (driver : UInt32)
  | notConnected
  | noEvent
  | timeout
  | writeFailed (error : UInt32)
  | writeTruncated (bytes : ℕ)
  | oversized
  | drainBroken (error : UInt32)
  | readFailed (error : UInt32)
  | sizeMismatch (bytes : ℕ)
  | reconnectFailed (cause : Failure)
  deriving DecidableEq

/-- A `BrokenPipeException`. -/
def Failure.isBrokenPipe : Failure → Bool
  | .writeFailed error | .readFailed error => isBrokenPipeError error
  | .drainBroken _ => true
  | _ => false

abbrev Prog := Program Io Io.Reply Client Failure

abbrev askNow : Prog ℤ := Program.ask Io.now

abbrev askOpenPipe : Prog (Option UInt32) := Program.ask Io.openPipe

abbrev askSetMode : Prog (Option UInt32) := Program.ask Io.setMode

abbrev askCreateEvent : Prog Bool := Program.ask Io.createEvent

abbrev askWrite : Prog WriteReply := Program.ask Io.write

abbrev askRead : Prog ReadReply := Program.ask Io.read

abbrev askDrain : Prog ReadReply := Program.ask Io.drain

structure IoResult where
  ok : Bool
  bytes : ℕ
  error : UInt32

def kConnectBackoff : ℤ := 1000

def Client.closed (s : Client) : Client := { s with pipe := none }

def close : Prog Unit := modify Client.closed

@[simp]
theorem close_bind_run {α : Type} (f : Unit → Prog α) (s : Client) :
    (close >>= f) s = f () s.closed :=
  rfl

/-- The event to wait for is created once. -/
def ensureEvent : Prog Unit := do
  let s ← get
  if s.hasEvent then pure ()
  else
    let created ← askCreateEvent
    if created then modify fun s => { s with hasEvent := true }
    else throw .noEvent

/-- The server receives a request. -/
def Client.deliver (own : Bool) (d : Delivery) (s : Client) : Client :=
  { s with
    pipe := s.pipe.map fun p => { p with unread := p.unread ++ [{ delivery := d }] }
    delivered := if own then s.delivered ++ [d] else s.delivered }

/-- What a write does. If all of the request is written, the server receives it. -/
def Client.written (L : Layout) (own : Bool) (request : Request) (reply : WriteReply) (s : Client) :
    Client :=
  if reply.outcome = .wrote L.requestSize ∨ reply.delivered = true then
    s.deliver own ⟨request, reply.answer⟩
  else s

/-- `OverlappedTransfer` for a write. -/
def transferWrite (L : Layout) (own : Bool) (request : Request) : Prog IoResult := do
  ensureEvent
  let reply ← askWrite
  modify (Client.written L own request reply)
  match reply.outcome with
  | .wrote bytes => pure ⟨true, bytes, 0⟩
  | .failed error => pure ⟨false, 0, error⟩
  | .timeout => do
    close
    throw .timeout

/-- A read of the next message into a buffer of the given length: how it ends, and the pipe after
    it. -/
def Pipe.read (p : Pipe) (length : ℕ) : Option (IoResult × Response × Pipe) :=
  match p.unread with
  | [] => none
  | m :: unread =>
    let rest := m.delivery.answer.length - m.offset
    let response := m.delivery.answer.bytes m.offset
    if rest ≤ length then
      some (⟨true, rest, 0⟩, response,
        { unread := unread, received := p.received ++ [m.delivery] })
    else
      some (⟨false, length, errorMoreData⟩, response,
        { p with unread := { m with offset := m.offset + length } :: unread })

/-- `OverlappedTransfer` for a read. Where there is no message, the read does not end in time. -/
def transferRead (reply : ReadReply) (length : ℕ) : Prog (IoResult × Response) := do
  let s ← get
  match reply, s.pipe.bind (Pipe.read · length) with
  | .message, some (io, response, p) => do
    modify fun s => { s with pipe := some p }
    pure (io, response)
  | .failed error, _ => pure (⟨false, 0, error.1⟩, ⟨0, 0, []⟩)
  | _, _ => do
    close
    throw .timeout

def send (L : Layout) (own : Bool) (request : Request) : Prog Unit := do
  let s ← get
  if s.pipe.isNone then throw .notConnected
  else
    let io ← transferWrite L own request
    if io.ok = false then
      close
      throw (.writeFailed io.error)
    else if io.bytes ≠ L.requestSize then
      close
      throw (.writeTruncated io.bytes)
    else pure ()

/-- The loop that reads the rest of a response that is too long, in parts of 1024 bytes. -/
def drainLoop : ℕ → Prog Unit
  | 0 => pure ()
  | fuel + 1 => do
    ensureEvent
    let reply ← askDrain
    let (io, _) ← transferRead reply 1024
    if io.ok then pure ()
    else if io.error = errorMoreData then drainLoop fuel
    else if isBrokenPipeError io.error then
      close
      throw (.drainBroken io.error)
    else pure ()

def Client.unreadBytes (s : Client) : ℕ :=
  (s.pipe.elim [] Pipe.unread).foldl (fun n m => n + m.delivery.answer.length) 0

def receive (L : Layout) : Prog Response := do
  let s ← get
  if s.pipe.isNone then throw .notConnected
  else
    ensureEvent
    let reply ← askRead
    let (io, response) ← transferRead reply L.responseSize
    if io.ok = false then
      if io.error = errorMoreData then
        let s ← get
        drainLoop (s.unreadBytes + 1)
        throw .oversized
      else
        close
        throw (.readFailed io.error)
    else if io.bytes ≠ L.responseSize then
      close
      throw (.sizeMismatch io.bytes)
    else pure response

/-- `ConnectImpl`, with the function that sends the handshake. -/
def connectImpl (sendBlocking : Request → Prog Response) (pipeName : String) : Prog Unit := do
  close
  modify fun s => { s with pipeName := pipeName }
  let opened ← askOpenPipe
  match opened with
  | some error => throw (.unavailable error)
  | none => do
    modify fun s => { s with pipe := some {} }
    let mode ← askSetMode
    match mode with
    | some error => do
      close
      throw (.modeFailed error)
    | none => do
      let response ← sendBlocking handshake
      if ¬response.Matching then
        modify fun s =>
          { s with
            driverVersion := response.version
            mismatchState := if response.version < protocolVersion then .overlayNewer
              else .driverNewer }
        close
        throw (.versionMismatch response.version)
      else
        modify fun s =>
          { s with
            mismatchState := .matching
            connectionGeneration := s.connectionGeneration + 1 }

/-- `Connect`, with the function that sends the handshake. -/
def connect (sendBlocking : Request → Prog Response) (pipeName : String) : Prog Unit := do
  let now ← askNow
  let s ← get
  if now < s.nextConnectAttempt then throw .deferred
  else
    tryCatch
      (do
        connectImpl sendBlocking pipeName
        modify fun s => { s with nextConnectAttempt := 0 })
      fun e => do
        modify fun s => { s with nextConnectAttempt := now + kConnectBackoff }
        throw e

/-- One request and its response. -/
def exchange (L : Layout) (own : Bool) (request : Request) : Prog Response := do
  send L own request
  receive L

/-- The connection that `SendBlocking` makes if the pipe is broken. -/
def connectAgain (connect : String → Prog Unit) (pipeName : String) : Prog Unit :=
  tryCatch
    (do
      connect pipeName
      modify fun s => { s with reconnecting := false })
    fun e => do
      modify fun s => { s with reconnecting := false }
      throw (.reconnectFailed e)

/-- What `SendBlocking` does after an exception. -/
def reconnect (L : Layout) (own : Bool) (connect : String → Prog Unit) (request : Request)
    (e : Failure) : Prog Response := do
  let s ← get
  if e.isBrokenPipe = false then throw e
  else if s.reconnecting = true ∨ s.pipeName = "" then throw e
  else
    close
    modify fun s => { s with reconnecting := true }
    connectAgain connect s.pipeName
    exchange L own request

/-- A client that is not connected connects. -/
def ensureConnected (connect : String → Prog Unit) : Prog Unit := do
  let s ← get
  if s.pipe.isSome then pure ()
  else if s.pipeName = "" then throw .notConnected
  else connect s.pipeName

/-- `SendBlocking`; the number bounds how deep it is called by itself. A request is `own` if it is
    the one of a call from outside. -/
def sendBlocking (L : Layout) : ℕ → Bool → Request → Prog Response
  | 0, _, _ => throw .notConnected
  | depth + 1, own, request => do
    ensureConnected (connect (sendBlocking L depth false))
    tryCatch (exchange L own request)
      (reconnect L own (connect (sendBlocking L depth false)) request)

inductive Call
  | connect (pipeName : String)
  | sendBlocking (request : Request)
  | close

/-- How deep `SendBlocking` is called by itself, at most. -/
def maxDepth : ℕ := 3

def Client.begun (request : Option Request) (s : Client) : Client :=
  { s with request, delivered := [] }

def start (L : Layout) : Call → Prog (Option Response)
  | .connect pipeName => do
    modify (Client.begun none)
    connect (sendBlocking L maxDepth false) pipeName
    pure none
  | .sendBlocking request => do
    modify (Client.begun (some request))
    let response ← sendBlocking L maxDepth true request
    pure (some response)
  | .close => do
    modify (Client.begun none)
    close
    pure none

def machine (L : Layout) : Machine (Dialogue Io Io.Reply Client Failure (Option Response))
    (CallAction Call Io Io.Reply) :=
  callMachine (start L) {.ended (.ok none) {}}

/-! ## What a call sends -/

section Sends

variable {own : Bool} {request : Request} {n n' : ℕ} {s s' s'' : Client}

/-- From `s` to `s'` the request is received at most `n` times, and only recorded if it is the one
    of the call. -/
structure Sends (own : Bool) (request : Request) (n : ℕ) (s s' : Client) : Prop where
  reconnecting : s'.reconnecting = s.reconnecting
  call : s'.request = s.request
  delivered : ∃ ds, s'.delivered = s.delivered ++ ds ∧ ds.length ≤ n ∧
    (∀ d ∈ ds, d.request = request) ∧ (own = false → ds = [])

theorem Sends.of_eq (hreconnecting : s'.reconnecting = s.reconnecting)
    (hcall : s'.request = s.request) (hdelivered : s'.delivered = s.delivered) :
    Sends own request n s s' :=
  ⟨hreconnecting, hcall, [], by simpa using hdelivered, Nat.zero_le _, by simp, fun _ => rfl⟩

theorem Sends.trans (h : Sends own request n s s') (h' : Sends own request n' s' s'') :
    Sends own request (n + n') s s'' := by
  obtain ⟨ds, hds, hlen, hreq, hown⟩ := h.delivered
  obtain ⟨ds', hds', hlen', hreq', hown'⟩ := h'.delivered
  refine ⟨h'.reconnecting.trans h.reconnecting, h'.call.trans h.call, ds ++ ds', ?_, ?_, ?_, ?_⟩
  · rw [hds', hds, append_assoc]
  · rw [length_append]
    exact Nat.add_le_add hlen hlen'
  · exact forall_mem_append.2 ⟨hreq, hreq'⟩
  · intro h
    rw [hown h, hown' h]
    rfl

theorem Sends.mono (h : Sends own request n s s') (hle : n ≤ n') : Sends own request n' s s' := by
  obtain ⟨ds, hds, hlen, hrest⟩ := h.delivered
  exact ⟨h.reconnecting, h.call, ds, hds, hlen.trans hle, hrest⟩

theorem Sends.closed (h : Sends own request n s s') : Sends own request n s s'.closed :=
  ⟨h.reconnecting, h.call, h.delivered⟩

/-- What a handshake sends is not recorded. -/
theorem Sends.of_handshake (h : Sends false handshake n s s') : Sends own request 0 s s' := by
  obtain ⟨ds, hds, -, -, hown⟩ := h.delivered
  rw [hown rfl, append_nil] at hds
  exact .of_eq h.reconnecting h.call hds

theorem sends_written (L : Layout) (reply : WriteReply) (s : Client) :
    Sends own request 1 s (s.written L own request reply) := by
  rw [Client.written]
  split_ifs
  · refine ⟨rfl, rfl, ?_⟩
    cases own with
    | true => exact ⟨[⟨request, reply.answer⟩], rfl, le_rfl, forall_mem_singleton.2 rfl, by simp⟩
    | false => exact ⟨[], (append_nil _).symm, Nat.zero_le _, by simp, fun _ => rfl⟩
  · exact .of_eq rfl rfl rfl

end Sends

/-! ## What is in the pipe -/

/-- The answers under which the client keeps track of its pipe: there is an event, the response to
    the first handshake is not too long, and the rest of a long response can be read, unless the
    pipe is broken. -/
def Orderly (L : Layout) : (q : Io) → Client → q.Reply → Prop
  | .createEvent, _, created => created = true
  | .read, s, .message => ∀ p ∈ s.pipe, p.Handshaken L ∨
      ∀ m ∈ p.unread.head?, m.delivery.answer.length ≤ L.responseSize
  | .drain, _, .failed error => isBrokenPipeError error.1 = true
  | _, _, _ => True

instance (L : Layout) : ∀ (q : Io) (s : Client) (r : q.Reply), Decidable (Orderly L q s r)
  | .createEvent, _, created => instDecidableEqBool created true
  | .read, s, .message => inferInstanceAs (Decidable (∀ p ∈ s.pipe, p.Handshaken L ∨
      ∀ m ∈ p.unread.head?, m.delivery.answer.length ≤ L.responseSize))
  | .read, _, .failed _ | .read, _, .timeout => inferInstanceAs (Decidable True)
  | .drain, _, .failed error => inferInstanceAs (Decidable (isBrokenPipeError error.1 = true))
  | .drain, _, .message | .drain, _, .timeout => inferInstanceAs (Decidable True)
  | .now, _, _ | .openPipe, _, _ | .setMode, _, _ | .write, _, _ => inferInstanceAs (Decidable True)

section Pipes

variable {L : Layout} {own : Bool} {request : Request} {s : Client} {p : Pipe} {d : Delivery}

/-- A pipe that is open has its handshake, and nothing to be read. -/
def Clean (L : Layout) (s : Client) : Prop := ∀ p ∈ s.pipe, p.unread = [] ∧ p.Handshaken L

theorem clean_of_none (h : s.pipe = none) : Clean L s := by
  intro p hp
  rw [h] at hp
  cases hp

theorem clean_of_some (h : s.pipe = some p) (hunread : p.unread = []) (hp : p.Handshaken L) :
    Clean L s := by
  intro p' hp'
  obtain rfl : p = p' := Option.some.inj (h.symm.trans hp')
  exact ⟨hunread, hp⟩

theorem Pipe.Handshaken.append (h : p.Handshaken L) {p' : Pipe}
    (heq : p'.received = p.received ++ [d]) : p'.Handshaken L := by
  obtain ⟨d', hd', hmatching⟩ := h
  exact ⟨d', heq ▸ mem_append_left _ hd', hmatching⟩

/-- A part of a call in which the request is received at most `n` times. It ends as `P` says; if an
    exception is raised, the pipe is closed or clean. -/
def Part (L : Layout) (own : Bool) (request : Request) (n : ℕ) {α : Type} (m : Prog α) (s : Client)
    (P : α → Client → Prop) : Prop :=
  (m s).Always (Orderly L) (fun a s' => Sends own request n s s' ∧ P a s')
    fun _ s' => Sends own request n s s' ∧ Clean L s'

section Parts

variable {α β : Type} {n k l : ℕ} {m : Prog α} {P P' : α → Client → Prop}

theorem Part.mono (h : Part L own request n m s P) (hle : n ≤ l) (hP : ∀ a s', P a s' → P' a s') :
    Part L own request l m s P' :=
  Dialogue.Always.mono h (fun a s' hs' => ⟨hs'.1.mono hle, hP a s' hs'.2⟩)
    fun _ _ hs' => ⟨hs'.1.mono hle, hs'.2⟩

/-- A part after the request has been received some times. -/
theorem Sends.part {s' : Client} (h : Sends own request n s s') (hm : Part L own request k m s' P)
    (hle : n + k ≤ l) : (m s').Always (Orderly L) (fun a t => Sends own request l s t ∧ P a t)
      fun _ t => Sends own request l s t ∧ Clean L t :=
  Dialogue.Always.mono hm (fun _ _ ht => ⟨(h.trans ht.1).mono hle, ht.2⟩)
    fun _ _ ht => ⟨(h.trans ht.1).mono hle, ht.2⟩

theorem Part.bind {f : α → Prog β} {Q : β → Client → Prop} (h : Part L own request n m s P)
    (hf : ∀ a s', s'.reconnecting = s.reconnecting → P a s' → Part L own request k (f a) s' Q)
    (hle : n + k ≤ l) : Part L own request l (m >>= f) s Q :=
  always_bind h (fun a s' hs' => hs'.1.part (hf a s' hs'.1.reconnecting hs'.2) hle)
    fun _ _ hs' => ⟨hs'.1.mono ((Nat.le_add_right n k).trans hle), hs'.2⟩

theorem Part.tryCatch {f : Failure → Prog α} (h : Part L own request n m s P)
    (hP : ∀ a s', P a s' → P' a s')
    (hf : ∀ e s', s'.reconnecting = s.reconnecting → Clean L s' → Part L own request k (f e) s' P')
    (hle : n + k ≤ l) : Part L own request l (tryCatch m f) s P' :=
  always_tryCatch h
    (fun a s' hs' => ⟨hs'.1.mono ((Nat.le_add_right n k).trans hle), hP a s' hs'.2⟩)
    fun e s' hs' => hs'.1.part (hf e s' hs'.1.reconnecting hs'.2) hle

theorem Part.raise {e : Failure} (h : Clean L s) : Part L own request n (throw e) s P :=
  ⟨.of_eq rfl rfl rfl, h⟩

theorem Part.close_raise {e : Failure} : Part L own request n (do close; throw e) s P :=
  ⟨.of_eq rfl rfl rfl, clean_of_none rfl⟩

/-- What a handshake sends is not recorded. -/
theorem Part.of_handshake (h : Part L false handshake n m s P) : Part L own request 0 m s P :=
  Dialogue.Always.mono h (fun _ _ hs' => ⟨hs'.1.of_handshake, hs'.2⟩)
    fun _ _ hs' => ⟨hs'.1.of_handshake, hs'.2⟩

end Parts

theorem ensureEvent_spec :
    Part L own request 0 ensureEvent s fun _ s' => s' = { s with hasEvent := true } := by
  rw [Part, ensureEvent, get_bind_run]
  split_ifs with hevent
  · exact ⟨.of_eq rfl rfl rfl, (by rw [← hevent] : s = { s with hasEvent := true })⟩
  · refine always_ask fun created hcreated => ?_
    obtain rfl : created = true := hcreated
    exact ⟨.of_eq rfl rfl rfl, rfl⟩

/-- A write that is complete leaves the answer in the pipe. -/
theorem transferWrite_spec (h : s.pipe = some p) (hunread : p.unread = []) :
    Part L own request 1 (transferWrite L own request) s fun io s' =>
      io.bytes = L.requestSize → io.ok = true → ∃ d : Delivery, d.request = request ∧
        s'.pipe = some { p with unread := [{ delivery := d }] } ∧
        (own = true → s'.delivered = s.delivered ++ [d]) := by
  refine ensureEvent_spec.bind (k := 1) ?_ le_rfl
  rintro - s' - rfl
  refine always_ask fun reply _ => ?_
  have hsends := @sends_written own request L reply { s with hasEvent := true }
  rw [modify_bind_run]
  cases houtcome : reply.outcome with
  | wrote bytes =>
    refine ⟨hsends, fun hbytes _ => ?_⟩
    have hwritten : Client.written L own request reply { s with hasEvent := true } =
        Client.deliver own ⟨request, reply.answer⟩ { s with hasEvent := true } :=
      if_pos (.inl (by rw [houtcome, ← hbytes]))
    rw [hwritten]
    refine ⟨⟨request, reply.answer⟩, rfl, ?_, fun hown => if_pos hown⟩
    simp only [Client.deliver, h, hunread, Option.map_some, nil_append]
  | failed error => exact ⟨hsends, fun _ hok => absurd hok Bool.false_ne_true⟩
  | timeout => exact ⟨hsends.closed, clean_of_none rfl⟩

/-- After a request is sent, its answer is in the pipe. -/
theorem send_spec (h : s.pipe = some p) (hunread : p.unread = []) :
    Part L own request 1 (send L own request) s fun _ s' => ∃ d : Delivery, d.request = request ∧
      s'.pipe = some { p with unread := [{ delivery := d }] } ∧
      (own = true → s'.delivered = s.delivered ++ [d]) := by
  have hsome : ¬s.pipe.isNone = true := by simp [h]
  rw [Part, send, get_bind_run, if_neg hsome]
  refine (transferWrite_spec h hunread).bind (k := 0) ?_ le_rfl
  rintro io s' - hdelivered
  split_ifs with hok hbytes
  · exact .close_raise
  · exact .close_raise
  · exact ⟨.of_eq rfl rfl rfl, hdelivered (not_not.1 hbytes) (by simpa using hok)⟩

/-- A read of the only message in the pipe. -/
theorem transferRead_message {offset : ℕ} (h : s.pipe = some { p with unread := [⟨d, offset⟩] })
    (length : ℕ) :
    transferRead .message length s =
      if d.answer.length - offset ≤ length then
        .ended (.ok (⟨true, d.answer.length - offset, 0⟩, d.answer.bytes offset))
          { s with pipe := some { unread := [], received := p.received ++ [d] } }
      else .ended (.ok (⟨false, length, errorMoreData⟩, d.answer.bytes offset))
          { s with pipe := some { p with unread := [⟨d, offset + length⟩] } } := by
  rw [transferRead, get_bind_run, h, Option.bind_some, Pipe.read]
  dsimp only
  split_ifs
  · rfl
  · rfl

theorem transferRead_failed (error : {code : UInt32 // code ≠ errorMoreData}) (length : ℕ)
    (s : Client) :
    transferRead (.failed error) length s = .ended (.ok (⟨false, 0, error.1⟩, ⟨0, 0, []⟩)) s :=
  rfl

/-- The rest of the message is read. -/
theorem drainLoop_spec {fuel offset : ℕ} (h : s.pipe = some { p with unread := [⟨d, offset⟩] })
    (hfuel : d.answer.length - offset < fuel) :
    Part L own request 0 (drainLoop fuel) s fun _ s' =>
      s'.pipe = some { unread := [], received := p.received ++ [d] } := by
  induction fuel generalizing s offset with
  | zero => exact absurd hfuel (Nat.not_lt_zero _)
  | succ fuel ih =>
    refine ensureEvent_spec.bind (k := 0) ?_ le_rfl
    rintro - s' - rfl
    refine always_ask fun reply hreply => ?_
    cases reply with
    | message =>
      have hread := transferRead_message (s := { s with hasEvent := true }) h 1024
      by_cases hfits : d.answer.length - offset ≤ 1024
      · rw [if_pos hfits] at hread
        rw [bind_run_of_ended hread]
        exact ⟨.of_eq rfl rfl rfl, rfl⟩
      · rw [if_neg hfits] at hread
        rw [bind_run_of_ended hread]
        exact Sends.part (.of_eq rfl rfl rfl) (ih rfl (by omega)) le_rfl
    | failed error =>
      have hbroken : isBrokenPipeError error.1 = true := hreply
      rw [bind_run_of_ended (transferRead_failed error 1024 _)]
      dsimp only
      rw [if_neg Bool.false_ne_true, if_neg error.2, if_pos hbroken]
      exact Part.close_raise
    | timeout => exact Part.close_raise

/-- The answer is read. -/
theorem receive_spec (h : s.pipe = some { p with unread := [{ delivery := d }] }) :
    Part L own request 0 (receive L) s fun response s' => s'.delivered = s.delivered ∧
      s'.pipe = some { unread := [], received := p.received ++ [d] } ∧
      d.answer.length = L.responseSize ∧ response = d.answer.bytes 0 := by
  have hsome : ¬s.pipe.isNone = true := by simp [h]
  rw [Part, receive, get_bind_run, if_neg hsome]
  refine ensureEvent_spec.bind (k := 0) ?_ le_rfl
  rintro - s' - rfl
  refine always_ask fun reply hreply => ?_
  cases reply with
  | message =>
    have hread := transferRead_message (s := { s with hasEvent := true }) h L.responseSize
    by_cases hfits : d.answer.length - 0 ≤ L.responseSize
    · rw [if_pos hfits] at hread
      rw [bind_run_of_ended hread]
      dsimp only
      rw [if_neg (by decide)]
      split_ifs with hlength
      · exact Part.close_raise
      · exact ⟨.of_eq rfl rfl rfl, rfl, rfl, not_not.1 hlength, rfl⟩
    · -- The response is too long, so the handshake has been made.
      rw [if_neg hfits] at hread
      rw [bind_run_of_ended hread]
      dsimp only
      rw [if_pos rfl, if_pos rfl, get_bind_run]
      have hhandshaken : p.Handshaken L :=
        (hreply _ h).resolve_right fun hlength => hfits (hlength _ rfl)
      have hfuel : d.answer.length - (0 + L.responseSize) < 0 + d.answer.length + 1 := by omega
      refine Sends.part (.of_eq rfl rfl rfl)
        ((drainLoop_spec rfl hfuel).bind (k := 0) ?_ le_rfl) le_rfl
      exact fun _ _ _ hpipe => .raise (clean_of_some hpipe rfl (hhandshaken.append rfl))
  | failed error =>
    rw [bind_run_of_ended (transferRead_failed error _ _)]
    dsimp only
    rw [if_pos rfl, if_neg error.2]
    exact Part.close_raise
  | timeout => exact Part.close_raise

/-- The response is the answer to the request, over the pipe that is open. -/
def Answered (L : Layout) (own : Bool) (request : Request) (response : Response) (s : Client) :
    Prop :=
  ∃ p d, s.pipe = some p ∧ p.unread = [] ∧ d ∈ p.received ∧ d.request = request ∧
    d.answer.length = L.responseSize ∧ response = d.answer.bytes 0 ∧
    (own = true → ∃ ds, s.delivered = ds ++ [d])

/-- A request and its response. -/
theorem exchange_spec (h : s.pipe = some p) (hunread : p.unread = []) :
    Part L own request 1 (exchange L own request) s fun response s' =>
      Answered L own request response s' ∧ (p.Handshaken L → Clean L s') := by
  refine (send_spec h hunread).bind (k := 0) ?_ le_rfl
  rintro - s' - ⟨d, hd, hpipe, hdelivered⟩
  refine (receive_spec hpipe).mono le_rfl ?_
  rintro response s'' ⟨hsame, hpipe', hlength, hresponse⟩
  refine ⟨⟨_, d, hpipe', rfl, ?_, hd, hlength, hresponse, fun hown => ?_⟩,
    fun hp => clean_of_some hpipe' rfl (hp.append rfl)⟩
  · exact mem_append_right _ (mem_singleton_self d)
  · exact ⟨s.delivered, by rw [hsame, hdelivered hown]⟩

/-- The pipe of a client that has connected. -/
def Connected (L : Layout) (s : Client) : Prop :=
  ∃ p, s.pipe = some p ∧ p.unread = [] ∧ p.Handshaken L

/-- How the handshake is sent over a new pipe. -/
def Handshakes (L : Layout) (s : Client) (sb : Request → Prog Response) : Prop :=
  ∀ s', s'.pipe = some {} → s'.reconnecting = s.reconnecting →
    (sb handshake s').Always (Orderly L)
      (fun response s'' => Sends false handshake 2 s' s'' ∧ Answered L false handshake response s'')
      fun _ s'' => Sends false handshake 2 s' s'' ∧ Clean L s''

/-- A part of a call that connects: it makes a pipe that is clean. -/
def Connects (L : Layout) (own : Bool) (request : Request) (m : Prog Unit) (s : Client) : Prop :=
  (m s).Always (Orderly L) (fun _ s' => Sends own request 0 s s' ∧ Connected L s')
    fun _ s' => Sends own request 0 s s' ∧ Clean L s'

variable {sb : Request → Prog Response} {name : String}

theorem connects_connectImpl
    (hsb : Handshakes L s sb) : Connects L own request (connectImpl sb name) s := by
  rw [Connects, connectImpl, close_bind_run, modify_bind_run]
  refine always_ask fun opened _ => ?_
  cases opened with
  | some error => exact ⟨.of_eq rfl rfl rfl, clean_of_none rfl⟩
  | none =>
    dsimp only
    rw [modify_bind_run]
    refine always_ask fun mode _ => ?_
    cases mode with
    | some error => exact ⟨.of_eq rfl rfl rfl, clean_of_none rfl⟩
    | none =>
      have hsb := hsb { s with pipe := some {}, pipeName := name } rfl rfl
      refine Sends.part (.of_eq rfl rfl rfl)
        ((Part.of_handshake hsb).bind (k := 0) ?_ le_rfl) le_rfl
      rintro response s' - ⟨p, d, hpipe, hunread, hd, hrequest, hlength, rfl, -⟩
      by_cases hmatching : (d.answer.bytes 0).Matching
      · rw [if_neg (not_not.2 hmatching)]
        exact ⟨.of_eq rfl rfl rfl, p, hpipe, hunread, d, hd, hrequest, hlength, hmatching⟩
      · rw [if_pos hmatching]
        exact ⟨.of_eq rfl rfl rfl, clean_of_none rfl⟩

theorem connects_connect (hclean : Clean L s)
    (hsb : Handshakes L s sb) : Connects L own request (connect sb name) s := by
  rw [Connects, connect]
  refine always_ask fun now _ => ?_
  rw [get_bind_run]
  split_ifs
  · exact ⟨.of_eq rfl rfl rfl, hclean⟩
  · refine (Part.bind (k := 0) (connects_connectImpl hsb) ?_ le_rfl).tryCatch (k := 0)
      (fun _ _ => id) ?_ le_rfl
    · exact fun _ _ _ hconnected => ⟨.of_eq rfl rfl rfl, hconnected⟩
    · exact fun _ _ _ hclean' => ⟨.of_eq rfl rfl rfl, hclean'⟩

variable {c : String → Prog Unit}

/-- After an exception, the client connects again and is answered. -/
theorem reconnect_spec {e : Failure} (hclean : Clean L s)
    (hc : s.reconnecting = false → ∀ name t, t.pipe = none → t.reconnecting = true →
      Connects L own request (c name) t) :
    Part L own request 1 (reconnect L own c request e) s fun response s' =>
      Answered L own request response s' ∧ Clean L s' := by
  rw [Part, reconnect, get_bind_run]
  split_ifs with hbroken hstop
  · exact Part.raise hclean
  · exact Part.raise hclean
  · have hflag : s.reconnecting = false := by simpa using (not_or.1 hstop).1
    rw [close_bind_run, modify_bind_run]
    -- The flag is set while the client connects, and not afterwards.
    have hconnect : (connectAgain c s.pipeName { s.closed with reconnecting := true }).Always
        (Orderly L) (fun _ s' => Sends own request 0 s s' ∧ Connected L s')
        fun _ s' => Sends own request 0 s s' ∧ Clean L s' := by
      rw [connectAgain]
      refine always_tryCatch (always_bind (hc hflag _ _ rfl rfl) ?_ fun _ _ => id)
        (fun _ _ => id) ?_
      · rintro - s' ⟨hsends, hconnected⟩
        exact ⟨⟨hflag.symm, hsends.call, hsends.delivered⟩, hconnected⟩
      · rintro e s' ⟨hsends, hclean'⟩
        exact ⟨⟨hflag.symm, hsends.call, hsends.delivered⟩, hclean'⟩
    refine always_bind hconnect ?_ fun _ _ hs' => ⟨hs'.1.mono (Nat.zero_le 1), hs'.2⟩
    rintro - s' ⟨hsends, p, hpipe, hunread, hp⟩
    exact hsends.part ((exchange_spec hpipe hunread).mono le_rfl fun _ _ h => ⟨h.1, h.2 hp⟩) le_rfl

/-- How deep `SendBlocking` is called by itself over an open pipe: once more if it may connect
    again. -/
def Client.connectDepth (s : Client) : ℕ := if s.reconnecting then 1 else 2

/-- How deep `SendBlocking` is called by itself: once more to connect. -/
def Client.depth (s : Client) : ℕ := if s.pipe.isSome then s.connectDepth else s.connectDepth + 1

theorem connectDepth_pos (s : Client) : 1 ≤ s.connectDepth := by
  rw [Client.connectDepth]
  split_ifs <;> decide

theorem connectDepth_le_depth (s : Client) : s.connectDepth ≤ s.depth := by
  rw [Client.depth]
  split_ifs <;> omega

theorem depth_le (s : Client) : s.depth ≤ maxDepth := by
  rw [Client.depth, Client.connectDepth, maxDepth]
  split_ifs <;> decide

/-- A client that may connect again is called less deep when it does. -/
theorem connectDepth_le_of_reconnecting {t : Client} {depth : ℕ} (h : s.depth ≤ depth + 1)
    (hs : s.reconnecting = false) (ht : t.reconnecting = true) : t.connectDepth ≤ depth := by
  have hle := (connectDepth_le_depth s).trans h
  rw [Client.connectDepth, hs, if_neg Bool.false_ne_true] at hle
  rw [Client.connectDepth, ht, if_pos rfl]
  omega

/-- The pipe that a request is sent over: the one that is open, or a new one. -/
theorem ensureConnected_spec (hs : ∀ p ∈ s.pipe, p.unread = [])
    (hc : s.pipe = none → Connects L own request (c s.pipeName) s) :
    Part L own request 0 (ensureConnected c) s fun _ s' =>
      ∃ p, s'.pipe = some p ∧ p.unread = [] ∧ (Clean L s → p.Handshaken L) := by
  rw [Part, ensureConnected, get_bind_run]
  cases hpipe : s.pipe with
  | some p =>
    exact ⟨.of_eq rfl rfl rfl, p, hpipe, hs p hpipe, fun hclean => (hclean p hpipe).2⟩
  | none =>
    rw [if_neg (by simp)]
    split_ifs
    · exact Part.raise (clean_of_none hpipe)
    · refine Part.mono (hc hpipe) le_rfl ?_
      rintro - s' ⟨p, hp, hunread, hhandshaken⟩
      exact ⟨p, hp, hunread, fun _ => hhandshaken⟩

theorem fresh_unread (h : s.pipe = some {}) : ∀ p ∈ s.pipe, p.unread = [] := by
  intro p hp
  obtain rfl : ({} : Pipe) = p := Option.some.inj (h.symm.trans hp)
  rfl

/-- `SendBlocking` is answered. The pipe that it begins with may be one without a handshake. -/
theorem sendBlocking_spec {depth : ℕ} (hs : ∀ p ∈ s.pipe, p.unread = [])
    (hdepth : s.depth ≤ depth) :
    Part L own request 2 (sendBlocking L depth own request) s fun response s' =>
      Answered L own request response s' ∧ (Clean L s → Clean L s') := by
  induction depth generalizing own request s with
  | zero => exact absurd ((connectDepth_pos s).trans (connectDepth_le_depth s)) (by omega)
  | succ depth ih =>
    -- A connection that is made from here.
    have hconnect {t : Client} (name : String) (hclean : Clean L t)
        (hdepth : t.connectDepth ≤ depth) :
        Connects L own request (connect (sendBlocking L depth false) name) t := by
      refine connects_connect hclean fun s' hpipe hflag => ?_
      refine (ih (fresh_unread hpipe) ?_).mono le_rfl fun _ _ hs'' => hs''.1
      rw [Client.depth, hpipe, Client.connectDepth, hflag]
      exact hdepth
    have hopen :
        Part L own request 0 (ensureConnected (connect (sendBlocking L depth false))) s _ :=
      ensureConnected_spec hs fun hnone => by
        refine hconnect _ (clean_of_none hnone) ?_
        rw [Client.depth, hnone] at hdepth
        exact Nat.le_of_succ_le_succ hdepth
    refine hopen.bind (k := 2) ?_ le_rfl
    rintro - s' hsame ⟨p, hpipe, hunread, hp⟩
    refine (exchange_spec hpipe hunread).tryCatch (k := 1)
      (fun _ _ h => ⟨h.1, fun hclean => h.2 (hp hclean)⟩) ?_ le_rfl
    intro e s'' hsame' hclean
    refine (reconnect_spec hclean fun hfalse name t hnone hflag => ?_).mono le_rfl
      fun _ _ h => ⟨h.1, fun _ => h.2⟩
    exact hconnect name (clean_of_none hnone) (connectDepth_le_of_reconnecting hdepth
      ((hsame'.trans hsame).symm.trans hfalse) hflag)

end Pipes

/-! ## Runs -/

section Runs

variable {L : Layout} {as : List (CallAction Call Io Io.Reply)}
  {r : Except Failure (Option Response)} {s : Client}

structure Between (L : Layout) (s : Client) : Prop where
  clean : Clean L s
  reconnecting : s.reconnecting = false
  delivered : s.delivered.length ≤ 2 ∧ ∀ d ∈ s.delivered, some d.request = s.request

def Returned (L : Layout) (s : Client) (response : Response) : Prop :=
  ∃ ds d, s.delivered = ds ++ [d] ∧ d.answer.length = L.responseSize ∧ response = d.answer.bytes 0

theorem between_of_sends {own : Bool} {request : Request} {q : Option Request} {n : ℕ} {s' : Client}
    (hsends : Sends own request n (s.begun q) s') (hn : n ≤ 2)
    (hq : own = true → q = some request) (hflag : s.reconnecting = false) (hclean : Clean L s') :
    Between L s' := by
  obtain ⟨ds, hds, hlength, hrequest, hown⟩ := hsends.delivered
  have hds' : s'.delivered = ds := hds
  refine ⟨hclean, hsends.reconnecting.trans hflag, hds' ▸ hlength.trans hn, fun d hd => ?_⟩
  rw [hds'] at hd
  cases own with
  | false =>
    rw [hown rfl] at hd
    cases hd
  | true =>
    rw [hrequest d hd, hsends.call, ← hq rfl]
    rfl

theorem between_start (c : Call) (h : Between L s) :
    (start L c s).Always (Orderly L)
      (fun a s' => Between L s' ∧ ∀ response ∈ a, Returned L s' response)
      fun _ s' => Between L s' := by
  cases c with
  | close =>
    have hsends : Sends false handshake 2 (s.begun none) (s.begun none).closed := .of_eq rfl rfl rfl
    exact ⟨between_of_sends hsends le_rfl (by simp) h.reconnecting (clean_of_none rfl), by simp⟩
  | connect pipeName =>
    rw [start, modify_bind_run]
    have hclean : Clean L (s.begun none) := h.clean
    have hconnects : Connects L false handshake (connect (sendBlocking L maxDepth false) pipeName)
        (s.begun none) := by
      -- A new pipe has nothing unread, which is what the handshake needs.
      refine connects_connect hclean fun s' hpipe _ => ?_
      exact (sendBlocking_spec (fresh_unread hpipe) (depth_le s')).mono le_rfl fun _ _ hs'' =>
        hs''.1
    refine always_bind hconnects ?_ ?_
    · rintro - s' ⟨hsends, p, hp, hunread, hhandshaken⟩
      exact ⟨between_of_sends hsends (Nat.zero_le 2) (by simp) h.reconnecting
        (clean_of_some hp hunread hhandshaken), by simp⟩
    · rintro e s' ⟨hsends, hclean'⟩
      exact between_of_sends hsends (Nat.zero_le 2) (by simp) h.reconnecting hclean'
  | sendBlocking request =>
    rw [start, modify_bind_run]
    have hclean : Clean L (s.begun (some request)) := h.clean
    refine always_bind (sendBlocking_spec (fun p hp => (hclean p hp).1) (depth_le _)) ?_ ?_
    · rintro response s' ⟨hsends, hanswered, hclean'⟩
      refine ⟨between_of_sends hsends le_rfl (fun _ => rfl) h.reconnecting (hclean' hclean), ?_⟩
      intro response' heq
      obtain rfl : response = response' := Option.some.inj heq
      obtain ⟨p, d, -, -, -, -, hlength, hresponse, hds⟩ := hanswered
      obtain ⟨ds, hds⟩ := hds rfl
      exact ⟨ds, d, hds, hlength, hresponse⟩
    · rintro e s' ⟨hsends, hclean'⟩
      exact between_of_sends hsends le_rfl (fun _ => rfl) h.reconnecting hclean'

/-- Between the calls of a run, a pipe that is open has completed a handshake and has nothing to be
    read. What `SendBlocking` returned is the answer to its own request, which the server has
    received at most twice. -/
theorem answered_and_handshaken
    (h : (machine L).RunIf (Answers (Orderly L)) as (.ended r s)) :
    (∀ p ∈ s.pipe, p.unread = [] ∧ p.Handshaken L) ∧
      (∀ response, r = .ok (some response) → ∃ ds d, s.delivered = ds ++ [d] ∧
        d.answer.length = L.responseSize ∧ response = d.answer.bytes 0) ∧
      s.delivered.length ≤ 2 ∧ ∀ d ∈ s.delivered, some d.request = s.request := by
  have hended : (Dialogue.ended r s : Dialogue Io Io.Reply Client Failure _).Always (Orderly L)
      (fun a s' => Between L s' ∧ ∀ response ∈ a, Returned L s' response)
      fun _ s' => Between L s' := by
    refine always_of_runIf h ?_ (fun c _ s hs => between_start c hs.1)
      fun c _ s hs => between_start c hs
    rintro d rfl
    exact ⟨⟨clean_of_none rfl, rfl, Nat.zero_le _, by simp⟩, by simp⟩
  cases r with
  | ok a =>
    obtain ⟨hbetween, hreturned⟩ := hended
    refine ⟨hbetween.clean, fun response heq => hreturned response ?_, hbetween.delivered⟩
    exact Except.ok.inj heq
  | error e =>
    have hbetween : Between L s := hended
    exact ⟨hbetween.clean, by simp, hbetween.delivered⟩

end Runs

/-- A request of 8 bytes, and a response of 16. -/
def smallLayout : Layout := ⟨8, 16⟩

variable (length type : ℕ)

/-- An answer of the given length, of the given type and with the version of the client. -/
def answerOf : Answer := ⟨length, fun _ => ⟨type, protocolVersion, []⟩⟩

/-- A request that is sent, and answered with a message of the given length and type. -/
def answered : List (CallAction Call Io Io.Reply) :=
  [.answer .write ({ outcome := .wrote 8, answer := answerOf length type } : WriteReply),
    .answer .read ReadReply.message]

/-- A new pipe whose handshake is answered with a message of the given length. -/
def opened : List (CallAction Call Io Io.Reply) :=
  [.answer .now (0 : ℤ), .answer .openPipe (none : Option UInt32),
    .answer .setMode (none : Option UInt32)] ++ answered length responseHandshake

/-- The first connection, for which the event is created. -/
def connected : List (CallAction Call Io Io.Reply) :=
  [.call (.connect "pipe"), .answer .now (0 : ℤ), .answer .openPipe (none : Option UInt32),
    .answer .setMode (none : Option UInt32), .answer .createEvent true] ++
    answered length responseHandshake

/-- The pipe is broken when the request is sent, and a new one is opened. -/
theorem answered_and_handshaken_reconnected : ∃ as s response,
    (machine smallLayout).RunIf (Answers (Orderly smallLayout)) as
      (.ended (.ok (some response)) s) ∧
      ∃ ds d, s.delivered = ds ++ [d] ∧ d.answer.length = 16 ∧ response = d.answer.bytes 0 := by
  obtain ⟨d, hrun, hd⟩ : ∃ d, (machine smallLayout).RunIf (Answers (Orderly smallLayout))
      (connected 16 ++ [.call (.sendBlocking ⟨5, []⟩), .answer .write ({
        outcome := .failed errorBrokenPipe, delivered := false, answer := answerOf 16 2 } :
          WriteReply)] ++ opened 16 ++ answered 16 2) d ∧ (match d with
        | .ended (.ok (some _)) _ => true
        | .ended (.ok none) _ | .ended (.error _) _ | .asks _ _ _ => false) = true :=
    (machine smallLayout).exists_runIf (.ended (.ok none) {}) rfl (by decide +kernel)
  cases d with
  | ended r s =>
    rcases r with e | (_ | response)
    · cases hd
    · cases hd
    · exact ⟨_, s, response, hrun, (answered_and_handshaken hrun).2.1 response rfl⟩
  | asks q s next => cases hd

/-- If the response to the handshake is too long, the pipe is left open without a handshake. If the
    rest of a long response cannot be read, the next call returns with the rest, and not with the
    answer to its own request. -/
theorem open_without_handshake_and_rest_returned :
    (∃ as r s, (machine smallLayout).Run as (.ended r s) ∧
      ∃ p ∈ s.pipe, ¬p.Handshaken smallLayout) ∧
    ∃ as response s, (machine smallLayout).Run as (.ended (.ok (some response)) s) ∧
      s.delivered.map (fun d => d.answer.bytes 0) ≠ [response] ∧ s.delivered.length = 1 := by
  constructor
  · obtain ⟨d, hrun, hd⟩ : ∃ d, (machine smallLayout).Run
        (connected 17 ++ [.answer .drain ReadReply.message]) d ∧ (match d with
        | .ended _ s => decide (∃ p ∈ s.pipe, ¬p.Handshaken smallLayout)
        | .asks _ _ _ => false) = true :=
      (machine smallLayout).exists_runIf (.ended (.ok none) {}) rfl (by decide +kernel)
    cases d with
    | ended r s => exact ⟨_, r, s, hrun, of_decide_eq_true hd⟩
    | asks q s next => cases hd
  · have hexec : ∃ d, (machine smallLayout).Run
        (connected 16 ++ [.call (.sendBlocking ⟨5, []⟩)] ++ answered 32 7 ++
          [.answer .drain (ReadReply.failed ⟨8, by decide⟩), .call (.sendBlocking ⟨6, []⟩)] ++
          answered 16 2) d ∧ (match d with
        | .ended (.ok (some response)) s =>
          decide (s.delivered.map (fun d => d.answer.bytes 0) ≠ [response] ∧ s.delivered.length = 1)
        | .ended (.ok none) _ | .ended (.error _) _ | .asks _ _ _ => false) = true :=
      (machine smallLayout).exists_runIf (.ended (.ok none) {}) rfl (by decide +kernel)
    obtain ⟨d, hrun, hd⟩ := hexec
    cases d with
    | ended r s =>
      rcases r with e | (_ | response)
      · cases hd
      · cases hd
      · exact ⟨_, response, s, hrun, of_decide_eq_true hd⟩
    | asks q s next => cases hd

end WKOpenVR.Overlay.IpcClient
