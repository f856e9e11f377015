import WKOpenVR.Machine
import Mathlib.Data.Fintype.Basic

/-!
# The pending message of a sidecar host

A supervisor keeps the last configuration message for its host: the captions
supervisor a command (`SetHostConfigCommand`), the face-tracking supervisor the
identifier of a module (`SetActiveModuleUuid`). Setting it stores the message,
clears a flag and sends the message; whenever the host is ready, a message whose flag
is clear is sent again. A send writes to the control pipe outside of the lock, and
then sets the flag. The flag is cleared when the host exits.

Any number of threads may be sending (`machine`): one has read its message, and has
yet to write it or to set the flag.

* If the message is not set again and the host is not replaced between the moment a
  send reads its message and the moment it sets the flag, then the flag is only set
  while the last message the host received is the pending one (`sent_delivered`).
* A send that is overtaken by a newer message delivers the old one last, leaving the
  flag set, for both supervisors (`overtaken_send_delivered_last`).
-/

namespace WKOpenVR.Host.PendingCommand

open Option

/-- The two supervisors. -/
inductive Kind
  | captions
  | faceTracking
  deriving DecidableEq, Repr

/-- A send in progress, `TrySendCommand` or `TrySendUuid`. -/
structure Send where
  message : String
  /-- The message has been written, and the flag is to be set. -/
  written : Bool
  /-- The epoch in which the message was read. -/
  epoch : ℕ
  deriving DecidableEq

/-- The supervisor, with its host and the sends in progress on the threads `T`. -/
structure State (T : Type*) where
  /-- `pending_command_`, `pending_uuid_`. -/
  pending : String
  hasPending : Bool
  /-- `command_sent_`, `uuid_sent_`. -/
  sent : Bool
  sends : T → Option Send
  /-- The messages the current host has received. -/
  received : List String
  /-- The number of times the message was set or the host replaced. -/
  epoch : ℕ

variable {T : Type*}

def State.fresh : State T where
  pending := ""
  hasPending := false
  sent := false
  sends _ := none
  received := []
  epoch := 0

inductive Action (T : Type*)
  /-- The locked section of `SetHostConfigCommand` or `SetActiveModuleUuid`. -/
  | set (i : T) (message : String)
  /-- The locked section of `OnHostReady`. -/
  | hostReady (i : T)
  /-- `SendBytesOverControlPipe`, which may fail. -/
  | write (i : T) (ok : Bool)
  /-- The locked section at the end of a send. -/
  | mark (i : T)
  /-- `OnHostExited`. -/
  | hostExited
  /-- Another host process takes over. -/
  | hostReplaced

variable [DecidableEq T] (s : State T) (i : T)

/-- A thread starts to send a message, or is done. -/
def State.setSend (send : Option Send) : State T :=
  { s with sends := Function.update s.sends i send }

/-- `SetHostConfigCommand` sends a message unless it is empty, `SetActiveModuleUuid`
    sends any. -/
def Kind.sends : Kind → String → Bool
  | .captions, message => message != ""
  | .faceTracking, _ => true

variable (kind : Kind)

/-- `SetHostConfigCommand`, `SetActiveModuleUuid`. -/
def State.set (i : T) (message : String) : State T :=
  { s with
    pending := message
    hasPending := kind.sends message
    sent := false
    epoch := s.epoch + 1 }.setSend i
    (if kind.sends message then some ⟨message, false, s.epoch + 1⟩ else none)

/-- `OnHostReady`. -/
def State.hostReady : State T :=
  if s.hasPending && !s.sent then s.setSend i (some ⟨s.pending, false, s.epoch⟩) else s

/-- The message of a send is written to the control pipe, or the send fails. -/
def State.write (ok : Bool) : Option (State T) :=
  match s.sends i with
  | some ⟨message, false, epoch⟩ =>
    if ok then
      some ({ s with received := s.received ++ [message] }.setSend i (some ⟨message, true, epoch⟩))
    else some (s.setSend i none) -- The flag stays clear, for the monitor to retry.
  | _ => none

/-- The end of `TrySendCommand`, which checks that the message is still pending, and
    of `TrySendUuid`, which does not. -/
def State.mark (i : T) : Option (State T) :=
  match s.sends i with
  | some ⟨message, true, _⟩ =>
    some ({ s with
      sent := match kind with
        | .captions => if s.pending = message then true else s.sent
        | .faceTracking => true }.setSend i none)
  | _ => none

/-- `OnHostExited`. -/
def State.hostExited : State T :=
  if s.hasPending then { s with sent := false } else s

/-- The state after an action. A thread starts a send only when it is in none. -/
def step (s : State T) : Action T → Option (State T)
  | .set i message => if (s.sends i).isSome then none else some (s.set kind i message)
  | .hostReady i => if (s.sends i).isSome then none else some (s.hostReady i)
  | .write i ok => s.write i ok
  | .mark i => s.mark kind i
  | .hostExited => some s.hostExited
  | .hostReplaced => some { s with received := [], epoch := s.epoch + 1 }

def machine : Machine (State T) (Action T) where
  init := {.fresh}
  step := step kind

/-- A send writes its message and sets the flag in the epoch it read the message in,
    and the flag is clear when another host takes over. -/
def Timely : Action T → Prop
  | .write i true | .mark i => ∀ send ∈ s.sends i, send.epoch = s.epoch
  | .hostReplaced => s.sent = false
  | _ => True

instance : DecidableRel (Timely (T := T)) := fun s a => by
  unfold Timely
  split <;> infer_instance

/-! ## The invariant -/

/-- The last message the host has received is the pending one. -/
def State.delivered : Prop := s.received.getLast? = some s.pending

structure Inv (s : State T) : Prop where
  epoch : ∀ i, ∀ send ∈ s.sends i, send.epoch ≤ s.epoch
  /-- A send of this epoch carries the pending message. -/
  message : ∀ i, ∀ send ∈ s.sends i, send.epoch = s.epoch → send.message = s.pending
  /-- Once it has written it, the message is delivered. -/
  written : ∀ i, ∀ send ∈ s.sends i, send.epoch = s.epoch → send.written = true → s.delivered
  sent : s.sent = true → s.delivered

variable {s} {s' : State T} {kind}

omit [DecidableEq T] in
theorem inv_fresh : Inv (State.fresh (T := T)) :=
  ⟨nofun, nofun, nofun, nofun⟩

/-- What holds of every send after one has been set holds of it and of the others. -/
theorem forall_setSend {i : T} {send : Option Send} {P : Send → Prop}
    (hnew : ∀ x ∈ send, P x) (hold : ∀ j, ∀ x ∈ s.sends j, P x) :
    ∀ j, ∀ x ∈ (s.setSend i send).sends j, P x := by
  intro j x hx
  have hx : x ∈ Function.update s.sends i send j := hx
  by_cases hj : j = i
  · rw [hj, Function.update_self] at hx
    exact hnew x hx
  · rw [Function.update_of_ne hj] at hx
    exact hold j x hx

theorem Inv.set (h : Inv s) (i : T) (message : String) : Inv (s.set kind i message) := by
  -- The sends of before are of an older epoch.
  have hold (j : T) (x : Send) (hx : x ∈ s.sends j) : x.epoch ≠ s.epoch + 1 :=
    (Nat.lt_succ_of_le (h.epoch j x hx)).ne
  have hnew (x : Send) (hx : x ∈ if kind.sends message then
      some (⟨message, false, s.epoch + 1⟩ : Send) else none) :
      x = ⟨message, false, s.epoch + 1⟩ := by
    split_ifs at hx
    · exact (mem_some_iff.1 hx).symm
    · cases hx
  refine ⟨forall_setSend (fun x hx => ?_) fun j x hx => ?_,
    forall_setSend (fun x hx _ => ?_) fun j x hx he => ?_,
    forall_setSend (fun x hx _ hw => ?_) fun j x hx he => ?_, nofun⟩
  · rw [hnew x hx]
    exact le_rfl
  · exact (h.epoch j x hx).trans (Nat.le_succ _)
  · rw [hnew x hx]
    rfl
  · exact absurd he (hold j x hx)
  · rw [hnew x hx] at hw
    cases hw
  · exact absurd he (hold j x hx)

theorem Inv.hostReady (h : Inv s) (i : T) : Inv (s.hostReady i) := by
  rw [State.hostReady]
  split_ifs
  · have hnew (x : Send) (hx : x ∈ some (⟨s.pending, false, s.epoch⟩ : Send)) :
        x = ⟨s.pending, false, s.epoch⟩ := (mem_some_iff.1 hx).symm
    refine ⟨forall_setSend (fun x hx => ?_) h.epoch, forall_setSend (fun x hx _ => ?_) h.message,
      forall_setSend (fun x hx _ hw => ?_) h.written, h.sent⟩
    · rw [hnew x hx]
      exact le_rfl
    · rw [hnew x hx]
      rfl
    · rw [hnew x hx] at hw
      cases hw
  · exact h

/-- A thread that is done leaves the others as they are. -/
theorem Inv.done (h : Inv s) (i : T) (hsent : s'.sent = true → s.delivered)
    (hs : s' = { s with sent := s'.sent }.setSend i none) : Inv s' := by
  rw [hs]
  exact ⟨forall_setSend nofun h.epoch, forall_setSend nofun h.message,
    forall_setSend nofun h.written, hsent⟩

theorem Inv.write {i : T} {ok : Bool} (h : Inv s) (ht : Timely s (.write i ok))
    (hs : s.write i ok = some s') : Inv s' := by
  rw [State.write] at hs
  split at hs
  next message epoch hsend =>
    split_ifs at hs with hok
    · cases hs
      rw [hok] at ht
      have hepoch : epoch = s.epoch := ht _ hsend
      have hmessage : message = s.pending := h.message i _ hsend hepoch
      -- The pending message is delivered by this write.
      have hdelivered : { s with received := s.received ++ [message] }.delivered := by
        rw [State.delivered, hmessage]
        exact List.getLast?_concat
      refine ⟨forall_setSend (fun x hx => ?_) h.epoch, forall_setSend (fun x hx _ => ?_) h.message,
        forall_setSend (fun _ _ _ _ => hdelivered) fun _ _ _ _ _ => hdelivered,
        fun _ => hdelivered⟩
      · obtain rfl := mem_some_iff.1 hx
        exact hepoch.le
      · obtain rfl := mem_some_iff.1 hx
        exact hmessage
    · cases hs
      exact h.done i h.sent rfl
  · cases hs

theorem Inv.mark {i : T} (h : Inv s) (ht : Timely s (.mark i)) (hs : s.mark kind i = some s') :
    Inv s' := by
  rw [State.mark] at hs
  split at hs
  next message epoch hsend =>
    -- In this epoch all sends write the same message.
    have hdelivered : s.delivered := h.written i _ hsend (ht _ hsend) rfl
    cases hs
    exact h.done i (fun _ => hdelivered) rfl
  · cases hs

theorem Inv.step {a : Action T} (h : Inv s) (ha : Timely s a) (hs : step kind s a = some s') :
    Inv s' := by
  cases a with
  | set i message =>
    simp only [PendingCommand.step] at hs
    split_ifs at hs
    exact some.inj hs ▸ h.set i message
  | hostReady i =>
    simp only [PendingCommand.step] at hs
    split_ifs at hs
    exact some.inj hs ▸ h.hostReady i
  | write i ok => exact h.write ha hs
  | mark i => exact h.mark ha hs
  | hostExited =>
    cases hs
    rw [State.hostExited]
    split_ifs
    · exact ⟨h.epoch, h.message, h.written, nofun⟩
    · exact h
  | hostReplaced =>
    cases hs
    have hold (j : T) (x : Send) (hx : x ∈ s.sends j) : x.epoch ≠ s.epoch + 1 :=
      (Nat.lt_succ_of_le (h.epoch j x hx)).ne
    -- The new host has received nothing, but the flag is clear.
    have hclear : s.sent ≠ true := Bool.eq_false_iff.1 ha
    exact ⟨fun j x hx => (h.epoch j x hx).trans (Nat.le_succ _),
      fun j x hx he => absurd he (hold j x hx), fun j x hx he => absurd he (hold j x hx),
      fun hsent => absurd hsent hclear⟩

/-- For both supervisors, in every run whose sends are timely: when the flag is set,
    the last message the current host has received is the pending one. -/
theorem sent_delivered (kind : Kind) (as : List (Action T)) (s : State T)
    (h : (machine kind).RunIf Timely as s) (hsent : s.sent = true) :
    s.received.getLast? = some s.pending := by
  have hinit (s : State T) (hs : s ∈ (machine kind).init) : Inv s := by
    obtain rfl : s = .fresh := hs
    exact inv_fresh
  have hinv : Inv s := h.invariant hinit fun _ _ _ hi ha hs => hi.step ha hs
  exact hinv.sent hsent

/-! ## A send that is overtaken -/

/-- The first message fails to be sent; the monitor (`true`) sends it when the host is
    ready. -/
def retryActions : List (Action Bool) :=
  [.set false "a", .write false false, .hostReady true, .write true true, .mark true]

theorem sent_delivered_retry :
    ∃ s : State Bool, (machine .faceTracking).RunIf Timely retryActions s ∧
    s.sent = true ∧ s.received.getLast? = some s.pending := by
  refine Machine.exists_runIf_of _ (P := (·.sent = true)) .fresh (by rfl) (by decide) ?_
  exact fun s hrun hsent => ⟨hsent, sent_delivered _ _ s hrun hsent⟩

/-- The monitor has read the first message, and is overtaken by the second one, which is
    sent and flagged, before it writes. -/
def overtakenActions : List (Action Bool) :=
  [.set false "a", .write false false, .hostReady true,
    .set false "b", .write false true, .mark false, .write true true, .mark true]

/-- Both supervisors end up with the flag set and no send in progress, the host having
    received the old message last. -/
theorem overtaken_send_delivered_last :
    (∃ s : State Bool, (machine .captions).Run overtakenActions s ∧ (∀ i, s.sends i = none) ∧
      s.sent = true ∧ s.pending = "b" ∧ s.received.getLast? = some "a") ∧
    ∃ s : State Bool, (machine .faceTracking).Run overtakenActions s ∧ (∀ i, s.sends i = none) ∧
      s.sent = true ∧ s.pending = "b" ∧ s.received.getLast? = some "a" :=
  ⟨Machine.exists_runIf _ .fresh (by rfl) (by decide),
    Machine.exists_runIf _ .fresh (by rfl) (by decide)⟩

end WKOpenVR.Host.PendingCommand
