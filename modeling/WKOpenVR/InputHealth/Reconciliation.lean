import WKOpenVR.Machine
import WKOpenVR.InputHealth.LiveRecords

/-!
# Reconciliation with the driver

The overlay pushes compensations to the driver over a pipe that may break, and the driver
keeps them across a reconnect. Once a second the overlay checks the connection
(`MaintainDriverConnection`): it connects if it has to, asks for a handshake, and if the
connection is a new one, it pushes its configuration and the ready compensations again.

A request (`SendBlocking`) fares in one of the ways of `Fate`. A broken pipe is reopened
once, and the request sent again. The request of a connection that has failed may have been
handled; the driver's thread handles it before those of a later connection.

* If no request is lost that takes an entry back, then at all times the driver holds entries
  for records only that are ready, of devices with corrections switched on
  (`held_entries_live`). Other requests may be lost, and the pipe may break at any time.
* A request that takes an entry back and is lost is not made again. The heartbeat pushes what
  is ready and takes nothing back (`Engine.enabled_of_mem_pushReady`), so that the driver goes on
  compensating a device whose corrections have been switched off (`stale_after_heartbeat`).
-/

namespace WKOpenVR.InputHealth

open FloatMath Withdrawal List

/-- What becomes of a request. -/
inductive Fate
  | answered (reconnected : Bool)
  /-- The answer is not the one expected: `ResponseInvalid`, or a handshake with another version. -/
  | rejected (reconnected : Bool)
  /-- An exception is thrown. -/
  | failed (handled reconnected closed : Bool)
  deriving DecidableEq, Repr

namespace Fate

/-- The driver has done what was requested. -/
def handled : Fate → Bool
  | answered _ => true
  | rejected _ => false
  | failed handled _ _ => handled

/-- A new connection was made for the request. -/
def reconnected : Fate → Bool
  | answered reconnected | rejected reconnected | failed _ reconnected _ => reconnected

/-- The pipe is closed after the request. -/
def closed : Fate → Bool
  | answered _ | rejected _ => false
  | failed _ _ closed => closed

def isAnswered : Fate → Bool
  | answered _ => true
  | _ => false

end Fate

/-- The two ends of the pipe: the state of the overlay's `IPCClient`, and the table of the
    driver. -/
structure Wire (K : Type*) where
  connected : Bool
  /-- `ConnectionGeneration`. -/
  generation : ℕ
  table : CompensationTable K

namespace Wire

variable {K : Type*} (w : Wire K) (succeeds : Bool)

/-- `Connect`, if it is needed, with whether it succeeds. -/
def connect : Wire K :=
  if w.connected || !succeeds then w
  else { w with connected := true, generation := w.generation + 1 }

variable (fate : Fate)

/-- `SendBlocking` on an open pipe. -/
def exchange : Wire K :=
  { w with connected := !fate.closed, generation := w.generation + fate.reconnected.toNat }

variable (entry : CompensationEntry K)

/-- The end of `PushCompensation`, which makes no request while the pipe is closed. -/
def send (fate : Fate) : Wire K :=
  if !w.connected then w
  else
    { w.exchange fate with
      table := if fate.handled then w.table.setInputHealthCompensation entry else w.table }

def transmit (requests : List (CompensationEntry K × Fate)) : Wire K :=
  requests.foldl (fun w request => w.send request.1 request.2) w

def pushConfigToDriver : Wire K := if !w.connected then w else w.exchange fate

/-- No request is lost that takes back an entry the driver holds. -/
def WithdrawalsArrive : Wire K → List (CompensationEntry K × Fate) → Prop
  | _, [] => True
  | w, (entry, fate) :: requests =>
    (entry.enabled = true ∨ w.table.entry entry.key = none ∨
      w.connected = true ∧ fate.handled = true) ∧
    WithdrawalsArrive (w.send entry fate) requests

instance : (w : Wire K) → (requests : List (CompensationEntry K × Fate)) →
    Decidable (w.WithdrawalsArrive requests)
  | _, [] => isTrue trivial
  | w, (entry, fate) :: requests =>
    have := instDecidableWithdrawalsArrive (w.send entry fate) requests
    inferInstanceAs (Decidable ((entry.enabled = true ∨ w.table.entry entry.key = none ∨
      w.connected = true ∧ fate.handled = true) ∧ _))

variable {w}

theorem table_send (fate : Fate) : (w.send entry fate).table =
      if w.connected = true ∧ fate.handled = true then w.table.setInputHealthCompensation entry
      else w.table := by
  rw [send]
  rcases hconnected : w.connected with _ | _
  · rfl
  · rcases fate.handled with _ | _ <;> rfl

variable {requests : List (CompensationEntry K × Fate)}

/-- The driver holds at most what the requests say. -/
theorem keys_transmit_subset {S : Set CompensationKey} (hS : w.table.keys ⊆ S)
    (h : w.WithdrawalsArrive requests) :
    (w.transmit requests).table.keys ⊆ bound S (requests.map (·.1.message)) := by
  induction requests generalizing w S with
  | nil => exact hS
  | cons request requests ih =>
    obtain ⟨entry, fate⟩ := request
    obtain ⟨harrives, hrest⟩ := h
    rcases henabled : entry.enabled with _ | _
    · have hmessage : entry.message = .withdraw entry.key := by
        rw [CompensationEntry.message, henabled]
        rfl
      rw [map_cons, hmessage]
      refine ih (S := S \ {entry.key}) ?_ hrest
      rw [table_send]
      split_ifs with hsent
      · rw [CompensationTable.keys_set_disabled henabled]
        exact Set.sdiff_subset_sdiff_left hS
      · -- The request is lost, but the driver does not hold the entry.
        have hnone : w.table.entry entry.key = none :=
          (harrives.resolve_left (by simp [henabled])).resolve_right hsent
        refine fun key hkey => ⟨hS hkey, ?_⟩
        rintro rfl
        exact hkey hnone
    · have hmessage : entry.message = .assert entry.key := by
        rw [CompensationEntry.message, henabled]
        rfl
      rw [map_cons, hmessage]
      refine ih (S := insert entry.key S) ?_ hrest
      rw [table_send]
      split_ifs
      · exact CompensationTable.keys_set_subset.trans (Set.insert_subset_insert hS)
      · exact hS.trans (Set.subset_insert _ _)

/-- Requests that take nothing back do not matter. -/
theorem withdrawalsArrive_of_enabled
    (h : ∀ request ∈ requests, request.1.enabled = true) : w.WithdrawalsArrive requests := by
  induction requests generalizing w with
  | nil => trivial
  | cons request requests ih =>
    exact ⟨.inl (h request mem_cons_self),
      ih fun request hrequest => h request (mem_cons_of_mem _ hrequest)⟩

@[simp]
theorem table_connect : (w.connect succeeds).table = w.table := by
  rw [connect]
  split_ifs <;> rfl

@[simp]
theorem table_pushConfigToDriver : (w.pushConfigToDriver fate).table = w.table := by
  rw [pushConfigToDriver]
  split_ifs <;> rfl

end Wire

/-! ## The system -/

/-- The plugin of the overlay, and the driver. -/
structure System (K : Type*) where
  engine : Engine K
  wire : Wire K
  /-- `observed_ipc_generation_`. -/
  observedGeneration : ℕ
  started : Bool

inductive Call (K : Type*)
  | tick (t : Instant) (entries : Entries K)
  | setRestBurstActive (active : Bool)
  | setDeviceCorrectionsEnabled (t : Instant) (serial : UInt64) (enabled : Bool)
  | unlearnPath (t : Instant) (serial : UInt64) (path : Path)
  | unlearnDevice (t : Instant) (serial : UInt64)

/-- How a heartbeat fares: whether the overlay can connect, if it has to, what becomes of the
    requests, and in which order the profiles are visited. -/
structure Heartbeat where
  connects : Bool
  handshake : Fate
  config : Fate
  order : List UInt64
  fates : List Fate

inductive Event (K : Type*)
  /-- `OnStart`. -/
  | start (connects : Bool) (order : List UInt64) (fates : List Fate) (config : Fate)
  /-- A call, with what becomes of its requests. -/
  | call (call : Call K) (fates : List Fate)
  /-- `MaintainDriverConnection`. -/
  | heartbeat (beat : Heartbeat)

variable {K : Type*} [FloatMath K] (e : Engine K)

def Engine.call : Call K → Engine K
  | .tick t entries => e.tick t entries
  | .setRestBurstActive active => { e with restBurstActive := active }
  | .setDeviceCorrectionsEnabled t serial enabled => e.setDeviceCorrectionsEnabled t serial enabled
  | .unlearnPath t serial path => e.unlearnPath t serial path
  | .unlearnDevice t serial => e.unlearnDevice t serial

theorem Engine.advances_call (call : Call K) : Advances e (e.call call) := by
  cases call with
  | tick t entries => exact e.advances_tick t entries
  | setRestBurstActive active => exact advances_of_eq rfl rfl rfl
  | setDeviceCorrectionsEnabled t serial enabled =>
    exact e.advances_setDeviceCorrectionsEnabled t serial enabled
  | unlearnPath t serial path => exact e.advances_unlearnPath t serial path
  | unlearnDevice t serial => exact e.advances_unlearnDevice t serial

namespace System

variable (s : System K)

/-- The requests are made, each with its fate. -/
def deliver (e : Engine K) (fates : List Fate) : Option (System K) :=
  if fates.length = e.outbox.length then
    some { s with engine := { e with outbox := [] }, wire := s.wire.transmit (e.outbox.zip fates) }
  else none

def pushReadyCompensations (order : List UInt64) (fates : List Fate) : Option (System K) :=
  if order.Perm s.engine.profiles.keys then s.deliver (s.engine.pushReadyCompensations order) fates
  else none

def onStart (connects : Bool) (order : List UInt64) (fates : List Fate) (config : Fate) :
    Option (System K) :=
  let s := { s with started := true, wire := s.wire.connect connects }
  if !s.wire.connected then some s
  else
    (s.pushReadyCompensations order fates).map fun s =>
      { s with wire := s.wire.pushConfigToDriver config }

variable (beat : Heartbeat)

/-- The part of `MaintainDriverConnection` after the handshake. -/
def observeGeneration : Option (System K) :=
  if s.wire.generation = s.observedGeneration then some s
  else
    let s := { s with observedGeneration := s.wire.generation }
    { s with wire := s.wire.pushConfigToDriver beat.config }.pushReadyCompensations
      beat.order beat.fates

def maintainDriverConnection : Option (System K) :=
  let s := { s with wire := s.wire.connect beat.connects }
  if !s.wire.connected then some s
  else
    let s := { s with wire := s.wire.exchange beat.handshake }
    match beat.handshake with
    | .failed _ _ _ => some { s with wire := { s.wire with connected := false } }
    | .rejected _ => some s
    | .answered _ => s.observeGeneration beat

/-- The heartbeat observes a new generation of the connection and pushes everything again,
    without any failure. -/
def Repushes : Prop :=
  (s.wire.connect beat.connects).connected = true ∧ beat.handshake.isAnswered = true ∧
    ((s.wire.connect beat.connects).exchange beat.handshake).generation ≠ s.observedGeneration ∧
    beat.config.isAnswered = true ∧ ∀ fate ∈ beat.fates, fate.isAnswered = true

/-- Every entry the driver holds, for a device with a profile, belongs to a record of the
    profile that is ready while the corrections are switched on. -/
def Reconciled : Prop :=
  ∀ key entry profile, s.wire.table.entry key = some entry → entry.enabled = true →
    s.engine.profiles.lookup key.1 = some profile → profile.Live key.2

/-- The overlay before it starts, with the profiles it has loaded. The driver may have been
    told of their records before. -/
structure IsInitial : Prop where
  serialHash : ∀ serial profile, s.engine.profiles.lookup serial = some profile →
    profile.serialHash = serial
  states : s.engine.states = fun _ => none
  outbox : s.engine.outbox = []
  held : s.wire.table.keys ⊆ s.engine.live
  connected : s.wire.connected = false
  generation : s.wire.generation = 0
  observedGeneration : s.observedGeneration = 0
  started : s.started = false

def machine : Machine (System K) (Event K) where
  init := {s | s.IsInitial}
  step s
    | .start connects order fates config =>
      if s.started then none else s.onStart connects order fates config
    | .call call fates => if s.started then s.deliver (s.engine.call call) fates else none
    | .heartbeat beat => if s.started then s.maintainDriverConnection beat else none

/-- The condition of a step: no request of a call is lost that takes an entry back. -/
def WithdrawalsArrive : Event K → Prop
  | .call call fates => s.wire.WithdrawalsArrive ((s.engine.call call).outbox.zip fates)
  | _ => True

instance : DecidableRel (WithdrawalsArrive (K := K))
  | _, .call _ _ => inferInstanceAs (Decidable (Wire.WithdrawalsArrive _ _))
  | _, .start _ _ _ _ => isTrue trivial
  | _, .heartbeat _ => isTrue trivial

/-! ## Runs -/

/-- The driver holds entries for live records only. -/
structure Inv : Prop where
  sound : s.engine.Sound
  outbox : s.engine.outbox = []
  held : s.wire.table.keys ⊆ s.engine.live

variable {s} {s' : System K}

omit [FloatMath K] in
theorem IsInitial.inv (h : s.IsInitial) : s.Inv := by
  refine ⟨⟨fun serial => ?_, fun serial path state hstate => ?_⟩, h.outbox, h.held⟩
  · rw [Engine.profile]
    rcases hlookup : s.engine.profiles.lookup serial with _ | profile
    · rfl
    · exact h.serialHash serial profile hlookup
  · rw [h.states] at hstate
    cases hstate

omit [FloatMath K] in
/-- The invariant is about the engine and the table only. -/
theorem Inv.of_eq (h : s.Inv) (hengine : s'.engine = s.engine)
    (htable : s'.wire.table = s.wire.table) : s'.Inv := by
  refine ⟨?_, ?_, ?_⟩
  · rw [hengine]
    exact h.sound
  · rw [hengine]
    exact h.outbox
  · rw [hengine, htable]
    exact h.held

omit [FloatMath K] in
theorem Inv.deliver {e : Engine K} {fates : List Fate} (h : s.Inv) (he : s.engine.Advances e)
    (harrive : s.wire.WithdrawalsArrive (e.outbox.zip fates)) (hs : s.deliver e fates = some s') :
    s'.Inv := by
  rw [System.deliver] at hs
  split_ifs at hs with hlength
  cases hs
  obtain ⟨hsound, new, hnew, hlive⟩ := he h.sound
  rw [h.outbox, nil_append] at hnew
  have hrequests : (e.outbox.zip fates).map (·.1.message) = new.map (·.message) := by
    calc (e.outbox.zip fates).map (·.1.message)
        = ((e.outbox.zip fates).map Prod.fst).map (·.message) := by rw [map_map]; rfl
      _ = new.map (·.message) := by rw [map_fst_zip hlength.ge, hnew]
  refine ⟨⟨hsound.serialHash, hsound.states⟩, rfl, ?_⟩
  have hkeys := Wire.keys_transmit_subset h.held harrive
  rw [hrequests] at hkeys
  exact hkeys.trans hlive

theorem Inv.pushReadyCompensations {order : List UInt64} {fates : List Fate} (h : s.Inv)
    (hs : s.pushReadyCompensations order fates = some s') : s'.Inv := by
  rw [System.pushReadyCompensations] at hs
  split_ifs at hs
  refine h.deliver (s.engine.advances_pushReadyCompensations order) ?_ hs
  refine Wire.withdrawalsArrive_of_enabled fun request hrequest => ?_
  have hentry := (of_mem_zip hrequest).1
  rcases Engine.enabled_of_mem_pushReady h.sound hentry with hmem | henabled
  · rw [h.outbox] at hmem
    exact absurd hmem not_mem_nil
  · exact henabled

theorem Inv.onStart {connects : Bool} {order : List UInt64} {fates : List Fate} {config : Fate}
    (h : s.Inv) (hs : s.onStart connects order fates config = some s') : s'.Inv := by
  rw [System.onStart] at hs
  dsimp only at hs
  have hconnect : Inv { s with started := true, wire := s.wire.connect connects } :=
    h.of_eq rfl (Wire.table_connect connects)
  split_ifs at hs
  · cases hs
    exact hconnect
  · obtain ⟨u, hu, rfl⟩ := Option.map_eq_some_iff.1 hs
    exact (hconnect.pushReadyCompensations hu).of_eq rfl (Wire.table_pushConfigToDriver config)

theorem Inv.observeGeneration {beat : Heartbeat} (h : s.Inv)
    (hs : s.observeGeneration beat = some s') : s'.Inv := by
  rw [System.observeGeneration] at hs
  dsimp only at hs
  split_ifs at hs
  · cases hs
    exact h
  · refine pushReadyCompensations ?_ hs
    exact h.of_eq rfl (Wire.table_pushConfigToDriver beat.config)

theorem Inv.maintainDriverConnection {beat : Heartbeat} (h : s.Inv)
    (hs : s.maintainDriverConnection beat = some s') : s'.Inv := by
  rw [System.maintainDriverConnection] at hs
  dsimp only at hs
  have hconnect (wire : Wire K) (htable : wire.table = (s.wire.connect beat.connects).table) :
      Inv { s with wire := wire } := h.of_eq rfl (htable.trans (Wire.table_connect _))
  split_ifs at hs
  · cases hs
    exact hconnect _ rfl
  · rcases hhandshake : beat.handshake with
      reconnected | reconnected | ⟨handled, reconnected, closed⟩
    all_goals rw [hhandshake] at hs
    · exact (hconnect ((s.wire.connect beat.connects).exchange (.answered reconnected))
        rfl).observeGeneration hs
    · cases hs
      exact hconnect _ rfl
    · cases hs
      exact hconnect _ rfl

variable {es : List (Event K)}

theorem inv_of_runIf (h : machine.RunIf WithdrawalsArrive es s) : s.Inv := by
  refine h.invariant (fun s hs => hs.inv) fun s e s' hinv hcond hs => ?_
  cases e with
  | start connects order fates config =>
    change (if s.started then none else _) = _ at hs
    split_ifs at hs
    exact hinv.onStart hs
  | call call fates =>
    change (if s.started then _ else none) = _ at hs
    split_ifs at hs
    exact hinv.deliver (s.engine.advances_call call) hcond hs
  | heartbeat beat =>
    change (if s.started then _ else none) = _ at hs
    split_ifs at hs
    exact hinv.maintainDriverConnection hs

/-- If no withdrawal is lost, the driver holds entries for live records only: after every
    run, and so after a heartbeat that pushes everything again. -/
theorem held_entries_live (h : machine.RunIf WithdrawalsArrive es s) : s.Reconciled := by
  intro key entry profile hentry _ hlookup
  have hkey : key ∈ s.wire.table.keys := fun hnone => by
    rw [hnone] at hentry
    cases hentry
  have hlive : (s.engine.profile key.1).Live key.2 := (inv_of_runIf h).held hkey
  rwa [Engine.profile_of_lookup hlookup] at hlive

/-! ## A device with one ready record -/

def triggerPath : Path := Text.ascii "/input/trigger/value"

/-- The profile of a device whose trigger has been learned. -/
noncomputable def triggerProfile : DeviceProfile ℝ where
  serialHash := 1
  learnedPaths :=
    [{ path := triggerPath
       kind := "scalar_single"
       sampleCount := 1024
       ready := true
       learned := ⟨FloatArith.lit 0.01, FloatArith.lit 0.001, FloatArith.lit 0.01, FloatArith.lit 1,
         FloatArith.lit 0, 0⟩
       lastUpdatedUnix := 0
       driftShiftResets := 0 }]

/-- The overlay has loaded the profile. The driver holds nothing. -/
noncomputable def triggerSystem : System ℝ where
  engine :=
    { profiles := AList.singleton 1 triggerProfile
      files := fun _ => none
      states := fun _ => none
      restBurstActive := false
      buttonQuietUntilUs := fun _ => none
      lastPeriodicSaveUs := fun _ => 0
      outbox := [] }
  wire := ⟨false, 0, .empty⟩
  observedGeneration := 0
  started := false

theorem isInitial_triggerSystem : triggerSystem.IsInitial where
  serialHash serial profile h := by
    rcases eq_or_ne serial 1 with rfl | hne
    · obtain rfl : triggerProfile = profile := Option.some.inj h
      rfl
    · have hnone : triggerSystem.engine.profiles.lookup serial = none :=
        (AList.lookup_insert_ne hne).trans (AList.lookup_empty serial)
      cases hnone.symm.trans h
  states := rfl
  outbox := rfl
  held key hkey := absurd rfl hkey
  connected := rfl
  generation := rfl
  observedGeneration := rfl
  started := rfl

def sampleInstant : Instant := ⟨1000000, 0, fun _ => true⟩

/-- A heartbeat without any failure. -/
def goodHeartbeat (fates : List Fate) : Heartbeat where
  connects := true
  handshake := .answered false
  config := .answered false
  order := [1]
  fates

def switchCorrections (enabled : Bool) (fate : Fate) : Event ℝ :=
  .call (.setDeviceCorrectionsEnabled sampleInstant 1 enabled) [fate]

/-- The corrections are switched off and on again. That they are on again is lost with the
    connection, and made up for by the heartbeat. -/
theorem held_entries_live_switched :
    ∃ es s, (machine (K := ℝ)).RunIf WithdrawalsArrive es s ∧
      (s.wire.table.entry (1, triggerPath)).isSome = true ∧ s.Reconciled := by
  refine ⟨[.start true [1] [.answered false] (.answered false),
    switchCorrections false (.answered false), switchCorrections true (.failed false false true),
    .heartbeat (goodHeartbeat [.answered false])], machine.exists_runIf_of
    (P := fun s => (s.wire.table.entry (1, triggerPath)).isSome = true) _ isInitial_triggerSystem
    (by decide +kernel) ?_⟩
  exact fun s hrun hs => ⟨hs, held_entries_live hrun⟩

/-- Every heartbeat of the run pushes everything again, without any failure. -/
def HeartbeatsRepush (s : System K) : Event K → Prop
  | .heartbeat beat => s.Repushes beat
  | _ => True

instance : DecidableRel (HeartbeatsRepush (K := K))
  | _, .call _ _ => isTrue trivial
  | _, .start _ _ _ _ => isTrue trivial
  | _, .heartbeat _ => inferInstanceAs (Decidable (_ ∧ _ ∧ _ ∧ _ ∧ _))

/-- The corrections of the device are switched off, the request that says so is lost with the
    connection, and the heartbeat does not make it again. -/
theorem stale_after_heartbeat :
    ∃ es beat s, (machine (K := ℝ)).RunIf HeartbeatsRepush (es ++ [.heartbeat beat]) s ∧
      ¬s.Reconciled := by
  refine ⟨[.start true [1] [.answered false] (.answered false),
    switchCorrections false (.failed false false true)], goodHeartbeat [], machine.exists_runIf_of
    (P := fun s => (s.wire.table.entry (1, triggerPath)).isSome = true ∧
      (s.engine.profiles.lookup 1).any (!·.correctionsEnabled) = true) _ isInitial_triggerSystem
    (by decide +kernel) fun s _ hs hreconciled => ?_⟩
  rw [Option.isSome_iff_exists, Option.any_eq_true] at hs
  obtain ⟨⟨entry, hentry⟩, profile, hprofile, hoff⟩ := hs
  have henabled := (s.wire.table.stored _ _ hentry).2.2
  have hon := (hreconciled _ entry profile hentry henabled hprofile).1
  rw [hon] at hoff
  cases hoff

end System

end WKOpenVR.InputHealth
