import WKOpenVR.Phantom.RoleCatalog
import WKOpenVR.Machine
import WKOpenVR.Pose
import Mathlib.Data.List.Infix

/-!
# Virtual trackers

The manager of the virtual trackers (`VirtualTrackerManager`): one device per body
role, which SteamVR activates, and on which poses from the body completion are
published. Publishing a pose only makes it pending; the pose hook drains the pending
poses, and forwards them to SteamVR.

SteamVR cannot remove a device, so that a role that is disabled, or blocked by a
physical tracker, has to be retracted by a disconnected pose. It is published by the
next tick of the manager, and the ticks come with the poses of the headset. The
module, however, only ticks the manager while some role is enabled. Whether the last
pose forwarded is a disconnected one, after a headset pose has been processed and
drained, is decided by that: `retracted_iff`.
-/

namespace WKOpenVR.Phantom.VirtualTracker

open List Option

variable {K : Type*}

/-! ## Devices -/

/-- A virtual device (`VirtualTrackerDevice`). -/
structure Device (K : Type*) where
  /-- The id SteamVR has activated the device with. -/
  objectId : Option ℕ
  lastPose : DriverPose K
  reportConnected : Bool
  pending : Bool
  pushedConnected : Bool

namespace Device

variable (identity : K) (d : Device K)

/-- `MakeDisconnectedVirtualPose`. -/
def disconnectedPose : DriverPose K where
  kin := identity
  result := .runningOutOfRange
  poseIsValid := false
  willDriftInYaw := false
  shouldApplyHeadModel := false
  deviceIsConnected := false

def fresh : Device K where
  objectId := none
  lastPose := { disconnectedPose identity with result := .uninitialized }
  reportConnected := true
  pending := false
  pushedConnected := false

def activated : Bool := d.objectId.isSome

def publish (pose : DriverPose K) : Device K :=
  { d with lastPose := pose, reportConnected := true, pushedConnected := true, pending := true }

def publishDisconnect : Device K :=
  { d with
    lastPose := disconnectedPose identity
    reportConnected := false
    pushedConnected := false
    pending := true }

def setReportConnected (connected : Bool) : Device K := { d with reportConnected := connected }

def takePendingPose : Option (DriverPose K) × Device K :=
  if d.pending then (some d.lastPose, { d with pending := false }) else (none, d)

end Device

/-! ## The manager -/

/-- The manager, with the poses forwarded for the device of each role. -/
structure Manager (K : Type*) where
  devices : BodyRole → Option (Device K)
  enabled : BodyRole → Bool
  blocked : BodyRole → Bool
  /-- Set when the module is initialised, and cleared when it is torn down. -/
  masterEnabled : Bool
  hmdPoseSeen : Bool
  forwarded : BodyRole → List (DriverPose K)

/-- What SteamVR and the body completion answer to a tick. -/
structure Answers (K : Type*) where
  /-- The delay after the initialisation has passed. -/
  settled : Bool
  /-- The id with which SteamVR activates the device that is added, if it does. -/
  adds : BodyRole → Option ℕ
  /-- The solved poses, of sufficient confidence. -/
  body : BodyRole → Option K

namespace Manager

variable (identity : K) (m : Manager K)

/-- The manager of an initialised module. -/
def fresh : Manager K where
  devices := fun _ => none
  enabled := fun _ => false
  blocked := fun _ => false
  masterEnabled := true
  hmdPoseSeen := false
  forwarded := fun _ => []

variable (r : BodyRole)

def allowed : Bool := m.enabled r && !m.blocked r

def enabledCount : ℕ := BodyRole.all.countP fun r => r.publishable && m.enabled r

def setEnabled (enabled : Bool) : Manager K :=
  { m with
    enabled := Function.update m.enabled r enabled
    devices :=
      if enabled then m.devices
      else Function.update m.devices r ((m.devices r).map (·.setReportConnected false)) }

def setRoleBlocked (blocked : Bool) : Manager K :=
  { m with
    blocked := Function.update m.blocked r blocked
    devices :=
      if blocked && !m.blocked r then
        Function.update m.devices r ((m.devices r).map (·.setReportConnected false))
      else m.devices }

/-- `MaybeActivate`: a device is created and added, unless it is activated already. -/
def maybeActivate (e : Answers K) (r : BodyRole) : Option (Device K) :=
  if (m.devices r).any (·.activated) || !m.masterEnabled || !m.enabled r || m.blocked r ||
      !m.hmdPoseSeen || !e.settled then m.devices r
  else some { (m.devices r).getD (.fresh identity) with objectId := e.adds r }

variable (hmdPose : DriverPose K)

def poseFromCompletion (k : K) : DriverPose K :=
  { hmdPose with
    kin := k
    result := .runningOK
    poseIsValid := true
    deviceIsConnected := true
    shouldApplyHeadModel := false }

/-- The iteration of `Tick` on a role with a device: retract it, or publish its pose. -/
def tickDevice (e : Answers K) (r : BodyRole) (d : Device K) : Device K :=
  if !d.activated then d
  else if !m.allowed r then if d.pushedConnected then d.publishDisconnect identity else d
  else
    match e.body r with
    | some k => d.publish (poseFromCompletion hmdPose k)
    | none => d

/-- `Tick`; an iteration of its loop only changes the device of its role. -/
def tick (e : Answers K) : Manager K :=
  if !m.masterEnabled then m
  else
    let m := { m with hmdPoseSeen := m.hmdPoseSeen || hmdPose.trackedOk }
    { m with devices := fun r =>
        if r.publishable then
          (m.maybeActivate identity e r).map (m.tickDevice identity hmdPose e r)
        else m.devices r }

/-- `OnRealPoseObserved` for a pose of the headset. -/
def onHmdPose (e : Answers K) : Manager K :=
  if hmdPose.trackedOk && virtualTrackersShouldRun m.enabledCount then m.tick identity hmdPose e
  else m

/-- `CollectPoseUpdates`, the poses being forwarded. -/
def collectPoseUpdates : Manager K :=
  { m with
    devices := fun r => (m.devices r).map fun d => if d.activated then d.takePendingPose.2 else d
    forwarded := fun r => m.forwarded r ++
      ((m.devices r).bind fun d => if d.activated then d.takePendingPose.1 else none).toList }

end Manager

inductive Action (K : Type*)
  | setEnabled (r : BodyRole) (enabled : Bool)
  | setRoleBlocked (r : BodyRole) (blocked : Bool)
  | hmdPose (pose : DriverPose K) (e : Answers K)
  | drain
  /-- SteamVR activates a device that has been added. -/
  | activate (r : BodyRole) (id : ℕ)
  /-- SteamVR deactivates a device. -/
  | deactivate (r : BodyRole)
  /-- SteamVR puts a device in standby (`EnterStandby`). -/
  | enterStandby (r : BodyRole)

variable (identity : K)

def step (m : Manager K) : Action K → Manager K
  | .setEnabled r enabled => m.setEnabled r enabled
  | .setRoleBlocked r blocked => m.setRoleBlocked r blocked
  | .hmdPose pose e => m.onHmdPose identity pose e
  | .drain => m.collectPoseUpdates
  | .activate r id => { m with
      devices := Function.update m.devices r ((m.devices r).map ({ · with objectId := some id })) }
  | .deactivate r => { m with
      devices := Function.update m.devices r ((m.devices r).map ({ · with objectId := none })) }
  | .enterStandby r => { m with
      devices := Function.update m.devices r ((m.devices r).map (·.setReportConnected false)) }

def run (as : List (Action K)) : Manager K := as.foldl (step identity) .fresh

/-! ## What is forwarded -/

/-- The last pose forwarded is a connected one. -/
def lastConnected (poses : List (DriverPose K)) : Bool :=
  poses.getLast?.any (·.deviceIsConnected)

/-- What of a device concerns the poses it forwards. -/
def Device.output (d : Device K) : DriverPose K × Bool × Bool :=
  (d.lastPose, d.pending, d.pushedConnected)

/-- The device of a role agrees with the poses forwarded for it: `pushedConnected` says
    whether the last pose pushed, pending or forwarded, is a connected one. -/
structure Coherent (r : BodyRole) (device : Option (Device K)) (poses : List (DriverPose K)) :
    Prop where
  fresh : device = none → poses = []
  publishable : ∀ d ∈ device, r.publishable = true
  pending : ∀ d ∈ device, d.pending = true → d.lastPose.deviceIsConnected = d.pushedConnected
  drained : ∀ d ∈ device, d.pending = false → lastConnected poses = d.pushedConnected

variable {identity} {m : Manager K} {r : BodyRole} {a : Action K} {device : Option (Device K)}
  {poses : List (DriverPose K)}

theorem coherent_none : Coherent r (none : Option (Device K)) [] :=
  ⟨fun _ => rfl, by simp, by simp, by simp⟩

theorem coherent_some {d : Device K} (hr : r.publishable = true)
    (hp : d.pending = true → d.lastPose.deviceIsConnected = d.pushedConnected)
    (hd : d.pending = false → lastConnected poses = d.pushedConnected) :
    Coherent r (some d) poses :=
  ⟨by simp, fun _ _ => hr, by simpa using hp, by simpa using hd⟩

/-- A change of a device that does not concern its poses. -/
theorem Coherent.map {f : Device K → Device K} (h : Coherent r device poses)
    (hf : ∀ d, (f d).output = d.output) : Coherent r (device.map f) poses := by
  cases device with
  | none => exact h
  | some d =>
    obtain ⟨hl, hpend, hpush⟩ : (f d).lastPose = d.lastPose ∧ (f d).pending = d.pending ∧
        (f d).pushedConnected = d.pushedConnected := by
      simpa [Device.output] using hf d
    refine coherent_some (h.publishable d rfl) ?_ ?_
    · rw [hpend, hl, hpush]
      exact h.pending d rfl
    · rw [hpend, hpush]
      exact h.drained d rfl

/-- The actions that neither tick nor drain. -/
def Action.quiet : Action K → Bool
  | .hmdPose .. => false
  | .drain => false
  | _ => true

theorem update_map (f : Device K → Device K) (r₀ : BodyRole) :
    Function.update m.devices r₀ ((m.devices r₀).map f) r =
      (m.devices r).map fun d => if r = r₀ then f d else d := by
  by_cases hr : r = r₀
  · subst hr
    simp
  · simp [hr]

variable (identity m r) in
/-- A quiet action changes nothing that concerns the poses. -/
theorem step_quiet (ha : a.quiet = true) : (step identity m a).forwarded r = m.forwarded r ∧
    ∃ f : Device K → Device K, (∀ d, (f d).output = d.output) ∧
      (step identity m a).devices r = (m.devices r).map f := by
  have hid : m.devices r = (m.devices r).map id := by simp
  have hupdate (f : Device K → Device K) (hf : ∀ d, (f d).output = d.output) (r₀ : BodyRole) :
      ∃ f' : Device K → Device K, (∀ d, (f' d).output = d.output) ∧
        Function.update m.devices r₀ ((m.devices r₀).map f) r = (m.devices r).map f' := by
    refine ⟨_, fun d => ?_, update_map f r₀⟩
    split_ifs
    · exact hf d
    · rfl
  cases a with
  | setEnabled r₀ enabled =>
    refine ⟨rfl, ?_⟩
    rw [step, Manager.setEnabled]
    split_ifs
    · exact ⟨id, fun _ => rfl, hid⟩
    · exact hupdate (·.setReportConnected false) (fun _ => rfl) r₀
  | setRoleBlocked r₀ blocked =>
    refine ⟨rfl, ?_⟩
    rw [step, Manager.setRoleBlocked]
    split_ifs
    · exact hupdate (·.setReportConnected false) (fun _ => rfl) r₀
    · exact ⟨id, fun _ => rfl, hid⟩
  | hmdPose => cases ha
  | drain => cases ha
  | activate r₀ id => exact ⟨rfl, hupdate ({ · with objectId := some id }) (fun _ => rfl) r₀⟩
  | deactivate r₀ => exact ⟨rfl, hupdate ({ · with objectId := none }) (fun _ => rfl) r₀⟩
  | enterStandby r₀ => exact ⟨rfl, hupdate (·.setReportConnected false) (fun _ => rfl) r₀⟩

/-- A device that is created has not pushed any pose. -/
theorem Coherent.maybeActivate (h : Coherent r (m.devices r) poses) (hr : r.publishable = true)
    (e : Answers K) : Coherent r (m.maybeActivate identity e r) poses := by
  rw [Manager.maybeActivate]
  split_ifs
  · exact h
  · cases hd : m.devices r with
    | none =>
      rw [h.fresh hd]
      exact coherent_some hr (fun hp => by cases hp) fun _ => rfl
    | some d => exact coherent_some hr (h.pending d hd) (h.drained d hd)

variable {pose : DriverPose K} {e : Answers K}

/-- A tick publishes a connected pose, a disconnected one, or none. -/
theorem Coherent.tickDevice {d : Device K} (h : Coherent r (some d) poses) :
    Coherent r (some (m.tickDevice identity pose e r d)) poses := by
  have hr := h.publishable d rfl
  rw [Manager.tickDevice]
  split_ifs
  · exact h
  · exact coherent_some hr (fun _ => rfl) fun hp => by cases hp
  · exact h
  · split
    · exact coherent_some hr (fun _ => rfl) fun hp => by cases hp
    · exact h

theorem Coherent.tick (h : Coherent r (m.devices r) (m.forwarded r)) (pose : DriverPose K)
    (e : Answers K) : Coherent r ((m.tick identity pose e).devices r)
      ((m.tick identity pose e).forwarded r) := by
  rw [Manager.tick]
  split_ifs
  · exact h
  · dsimp only
    split_ifs with hr
    · have hact : Coherent r (Manager.maybeActivate identity
          { m with hmdPoseSeen := m.hmdPoseSeen || pose.trackedOk } e r) (m.forwarded r) :=
        Coherent.maybeActivate
          (m := { m with hmdPoseSeen := m.hmdPoseSeen || pose.trackedOk }) h hr e
      revert hact
      cases Manager.maybeActivate identity
          { m with hmdPoseSeen := m.hmdPoseSeen || pose.trackedOk } e r with
      | none => exact id
      | some d => exact Coherent.tickDevice
    · exact h

/-- A drain forwards what is pending. -/
theorem Coherent.drain (h : Coherent r (m.devices r) (m.forwarded r)) :
    Coherent r (m.collectPoseUpdates.devices r) (m.collectPoseUpdates.forwarded r) := by
  cases hd : m.devices r with
  | none => simpa [Manager.collectPoseUpdates, hd, h.fresh hd] using coherent_none
  | some d =>
    have hd' : Coherent r (some d) (m.forwarded r) := hd ▸ h
    by_cases hact : d.activated
    · cases hp : d.pending with
      | true =>
        simp only [Manager.collectPoseUpdates, hd, map_some, hact, if_true,
          Device.takePendingPose, hp, bind_some, toList_some]
        refine coherent_some (hd'.publishable d rfl) (fun hp => by cases hp) fun _ => ?_
        simpa [lastConnected] using hd'.pending d rfl hp
      | false => simpa [Manager.collectPoseUpdates, hd, hact, Device.takePendingPose, hp] using hd'
    · simpa [Manager.collectPoseUpdates, hd, hact] using hd'

/-- Every action keeps the devices coherent. -/
theorem Coherent.step (h : Coherent r (m.devices r) (m.forwarded r)) (a : Action K) :
    Coherent r ((step identity m a).devices r) ((step identity m a).forwarded r) := by
  cases hq : a.quiet with
  | true =>
    obtain ⟨hfwd, f, hf, hdev⟩ := step_quiet identity m r hq
    rw [hfwd, hdev]
    exact h.map hf
  | false =>
    cases a with
    | drain => exact h.drain
    | hmdPose pose e =>
      rw [VirtualTracker.step, Manager.onHmdPose]
      split_ifs
      · exact h.tick pose e
      · exact h
    | _ => cases hq

/-- Only a drain forwards. -/
theorem step_forwarded (ha : a ≠ .drain) : (step identity m a).forwarded = m.forwarded := by
  cases a with
  | hmdPose pose e =>
    rw [step, Manager.onHmdPose, Manager.tick]
    split_ifs <;> rfl
  | drain => exact absurd rfl ha
  | _ => rfl

theorem step_masterEnabled : (step identity m a).masterEnabled = m.masterEnabled := by
  cases a with
  | hmdPose pose e =>
    rw [step, Manager.onHmdPose, Manager.tick]
    split_ifs <;> rfl
  | _ => rfl

/-! ## Retraction -/

/-- The role has an activated device, but is disabled or blocked. -/
def Retracting (r : BodyRole) (m : Manager K) : Prop :=
  (∃ d ∈ m.devices r, d.activated = true) ∧ m.allowed r = false

/-- The device of a role has last pushed a connected pose. -/
def Manager.pushed (m : Manager K) (r : BodyRole) : Bool := (m.devices r).any (·.pushedConnected)

/-- A valid pose of the headset, while some role is enabled. -/
def Action.ticks (m : Manager K) : Action K → Bool
  | .hmdPose pose _ => pose.trackedOk && virtualTrackersShouldRun m.enabledCount
  | _ => false

theorem tick_devices_of_retracting {d : Device K}
    (hm : m.masterEnabled = true) (hr : r.publishable = true) (hd : m.devices r = some d)
    (hact : d.activated = true) (hallowed : m.allowed r = false) :
    (m.tick identity pose e).devices r =
      some (if d.pushedConnected then d.publishDisconnect identity else d) := by
  have hactivate : Manager.maybeActivate identity
      { m with hmdPoseSeen := m.hmdPoseSeen || pose.trackedOk } e r = some d := by
    simp [Manager.maybeActivate, hd, hact]
  have hallowed' : Manager.allowed
      { m with hmdPoseSeen := m.hmdPoseSeen || pose.trackedOk } r = false := hallowed
  rw [Manager.tick, if_neg (by simp [hm])]
  dsimp only
  rw [if_pos hr, hactivate, map_some, Manager.tickDevice, hact, hallowed']
  rfl

/-- A tick retracts the device, and nothing else does. -/
theorem pushed_step (hm : m.masterEnabled = true) (hr : Retracting r m)
    (hc : Coherent r (m.devices r) (m.forwarded r)) :
    (step identity m a).pushed r = (m.pushed r && !a.ticks m) := by
  obtain ⟨⟨d, hd, hact⟩, hallowed⟩ := hr
  cases hq : a.quiet with
  | true =>
    obtain ⟨-, f, hf, hdev⟩ := step_quiet identity m r hq
    have hpush : (f d).pushedConnected = d.pushedConnected := congrArg (·.2.2) (hf d)
    have hticks : a.ticks m = false := by
      cases a <;> first | rfl | cases hq
    rw [Manager.pushed, Manager.pushed, hdev, hd, hticks]
    simp [hpush]
  | false =>
    cases a with
    | drain =>
      simp [Manager.pushed, step, Manager.collectPoseUpdates, Device.takePendingPose, Action.ticks,
        mem_def.1 hd, hact]
      split_ifs <;> rfl
    | hmdPose pose e =>
      by_cases ht : (pose.trackedOk && virtualTrackersShouldRun m.enabledCount) = true
      · rw [step, Manager.onHmdPose, if_pos ht, Action.ticks, ht, Manager.pushed,
          tick_devices_of_retracting hm (hc.publishable d hd) hd hact hallowed]
        split_ifs with hp
        · simp [Device.publishDisconnect]
        · simpa using hp
      · rw [step, Manager.onHmdPose, if_neg ht, Action.ticks, Bool.eq_false_iff.2 ht,
          Bool.not_false,
          Bool.and_true]
    | _ => cases hq

/-- After a drain, the last pose forwarded is the last one pushed. -/
theorem lastConnected_drain (hr : Retracting r m) (hc : Coherent r (m.devices r) (m.forwarded r)) :
    lastConnected (m.collectPoseUpdates.forwarded r) = m.pushed r := by
  obtain ⟨⟨d, hd, hact⟩, -⟩ := hr
  have hdev : m.collectPoseUpdates.devices r = some d.takePendingPose.2 := by
    simp [Manager.collectPoseUpdates, mem_def.1 hd, hact]
  have hdrain := hc.drain
  rw [hdev] at hdrain
  rw [hdrain.drained _ rfl, Manager.pushed, mem_def.1 hd]
  · rw [Device.takePendingPose]
    split_ifs <;> rfl
  · rw [Device.takePendingPose]
    split_ifs with hp
    · rfl
    · simpa using hp

/-! ## Runs -/

section Runs

variable {as bs : List (Action K)}

@[simp] theorem run_concat (as : List (Action K)) (a : Action K) :
    run identity (as ++ [a]) = step identity (run identity as) a := by
  simp [run]

theorem run_coherent (as : List (Action K)) (r : BodyRole) :
    Coherent r ((run identity as).devices r) ((run identity as).forwarded r) := by
  induction as using List.reverseRecOn with
  | nil => exact coherent_none
  | append_singleton as a ih =>
    rw [run_concat]
    exact ih.step a

theorem run_masterEnabled (as : List (Action K)) : (run identity as).masterEnabled = true := by
  induction as using List.reverseRecOn with
  | nil => rfl
  | append_singleton as a ih => rw [run_concat, step_masterEnabled, ih]

variable (identity) in
/-- After `as`, the actions `bs` hold a valid pose of the headset, at which some role is
    enabled. -/
def Ticked (as bs : List (Action K)) : Prop :=
  ∃ pre a, pre ++ [a] <+: bs ∧ a.ticks (run identity (as ++ pre)) = true

theorem ticked_concat {a : Action K} : Ticked identity as (bs ++ [a]) ↔
    Ticked identity as bs ∨ a.ticks (run identity (as ++ bs)) = true := by
  constructor
  · rintro ⟨pre, b, hpre, hb⟩
    rcases prefix_concat_iff.1 hpre with heq | hpre
    · obtain ⟨rfl, rfl⟩ := append_inj' heq rfl |>.imp_right singleton_inj.1
      exact .inr hb
    · exact .inl ⟨pre, b, hpre, hb⟩
  · rintro (⟨pre, b, hpre, hb⟩ | ha)
    · exact ⟨pre, b, prefix_concat_iff.2 (.inr hpre), hb⟩
    · exact ⟨bs, a, prefix_rfl, ha⟩

variable (identity) in
/-- Such a pose, followed by a drain. -/
def TickedAndDrained (as bs : List (Action K)) : Prop :=
  ∃ pre, pre ++ [.drain] <+: bs ∧ Ticked identity as pre

theorem tickedAndDrained_concat_drain :
    TickedAndDrained identity as (bs ++ [.drain]) ↔ Ticked identity as bs := by
  constructor
  · rintro ⟨pre, hpre, pre', a, hpre', ha⟩
    have hle : pre <+: bs := by
      rcases prefix_concat_iff.1 hpre with heq | hpre
      · rw [append_cancel_right heq]
      · exact (prefix_append pre _).trans hpre
    exact ⟨pre', a, hpre'.trans hle, ha⟩
  · exact fun h => ⟨bs, prefix_rfl, h⟩

theorem tickedAndDrained_concat {a : Action K} (ha : a ≠ .drain) :
    TickedAndDrained identity as (bs ++ [a]) ↔ TickedAndDrained identity as bs := by
  constructor
  · rintro ⟨pre, hpre, h⟩
    rcases prefix_concat_iff.1 hpre with heq | hpre
    · exact absurd (singleton_inj.1 (append_inj' heq rfl).2).symm ha
    · exact ⟨pre, hpre, h⟩
  · rintro ⟨pre, hpre, h⟩
    exact ⟨pre, prefix_concat_iff.2 (.inr hpre), h⟩

/-- While the role is to be retracted, it is by the first tick. -/
theorem pushed_run (hr : ∀ pre, pre <+: bs → Retracting r (run identity (as ++ pre))) :
    (run identity (as ++ bs)).pushed r = true ↔
      (run identity as).pushed r = true ∧ ¬Ticked identity as bs := by
  induction bs using List.reverseRecOn with
  | nil =>
    have hnot : ¬Ticked identity as [] := by
      rintro ⟨pre, a, hpre, -⟩
      exact not_concat_prefix_nil hpre
    simp [hnot]
  | append_singleton bs a ih =>
    have hr' (pre : List (Action K)) (hpre : pre <+: bs) :
        Retracting r (run identity (as ++ pre)) :=
      hr pre (prefix_concat_iff.2 (.inr hpre))
    rw [← append_assoc, run_concat, pushed_step (run_masterEnabled _)
      (hr' bs prefix_rfl) (run_coherent _ r), Bool.and_eq_true, ih hr', ticked_concat, not_or,
      Bool.not_eq_true', Bool.not_eq_true, and_assoc]

/-- After a drain, the last pose forwarded is connected unless a tick came before a drain. -/
theorem lastConnected_run (hr : ∀ pre, pre <+: bs → Retracting r (run identity (as ++ pre)))
    (hdrain : Action.drain ∈ bs) :
    lastConnected ((run identity (as ++ bs)).forwarded r) = true ↔
      (run identity as).pushed r = true ∧ ¬TickedAndDrained identity as bs := by
  induction bs using List.reverseRecOn with
  | nil => cases hdrain
  | append_singleton bs a ih =>
    have hr' (pre : List (Action K)) (hpre : pre <+: bs) :
        Retracting r (run identity (as ++ pre)) :=
      hr pre (prefix_concat_iff.2 (.inr hpre))
    rw [← append_assoc, run_concat]
    by_cases ha : a = .drain
    · subst ha
      rw [tickedAndDrained_concat_drain, ← pushed_run hr', step,
        lastConnected_drain (hr' bs prefix_rfl) (run_coherent _ r)]
    · have hmem : Action.drain ∈ bs := by
        simpa [Ne.symm ha] using hdrain
      rw [step_forwarded ha, tickedAndDrained_concat ha, ih hr' hmem]

/-- A valid pose of the headset is processed, and drained. -/
def Processed (bs : List (Action K)) : Prop :=
  ∃ pre pose e, pose.trackedOk = true ∧ Action.hmdPose pose e ∈ pre ∧ pre ++ [.drain] <+: bs

/-- Retraction: let the activated device of a role stay disabled or blocked during the
    actions `bs`, and a valid pose of the headset be processed and drained in them. Then the
    last pose forwarded for the device is disconnected if and only if the last pose it had
    pushed was so already, or such a pose of the headset came while some role was enabled. -/
theorem retracted_iff (identity : K) (as bs : List (Action K)) (r : BodyRole)
    (hr : ∀ pre, pre <+: bs → Retracting r (run identity (as ++ pre))) (hp : Processed bs) :
    (∀ p ∈ ((run identity (as ++ bs)).forwarded r).getLast?, p.deviceIsConnected = false) ↔
      (run identity as).pushed r = false ∨ TickedAndDrained identity as bs := by
  have hdrain : Action.drain ∈ bs := by
    obtain ⟨pre, -, -, -, -, hpre⟩ := hp
    exact hpre.subset (mem_append_right _ mem_cons_self)
  have hlast : (∀ p ∈ ((run identity (as ++ bs)).forwarded r).getLast?,
      p.deviceIsConnected = false) ↔
      ¬lastConnected ((run identity (as ++ bs)).forwarded r) = true := by
    simp [lastConnected, Option.any_eq_true]
  rw [hlast, lastConnected_run hr hdrain, not_and_or, not_not, Bool.not_eq_true]

end Runs

/-! ## The last role -/

/-- The answers when SteamVR activates devices, and the body completion has a pose. -/
def answers : Answers Unit := ⟨true, fun _ => some 7, fun _ => some ()⟩

/-- The virtual waist tracker is enabled, activated, and its pose forwarded; `others` are
    enabled too; then the waist is disabled. -/
def disableWaist (others : List BodyRole) : List (Action Unit) :=
  others.map (.setEnabled · true) ++
    [.setEnabled .waist true, .hmdPose (.healthy ()) answers, .drain, .setEnabled .waist false]

/-- A pose of the headset is processed, and drained. -/
def processPose : List (Action Unit) := [.hmdPose (.healthy ()) answers, .drain]

theorem processed_processPose : Processed processPose :=
  ⟨[.hmdPose (.healthy ()) answers], .healthy (), answers, rfl, mem_cons_self, prefix_rfl⟩

theorem retracting_processPose {others : List BodyRole} (h : others = [] ∨ others = [.chest]) :
    ∀ pre, pre <+: processPose → Retracting .waist (run () (disableWaist others ++ pre)) := by
  intro pre hpre
  have hpre := (mem_inits _ _).2 hpre
  simp only [processPose, List.inits, map_cons, map_nil, mem_cons, not_mem_nil, or_false] at hpre
  rcases h with rfl | rfl <;> rcases hpre with rfl | rfl | rfl <;> exact ⟨⟨_, rfl, rfl⟩, rfl⟩

/-- `retracted_iff` for the waist, with the chest still enabled. -/
theorem retracted_iff_other_enabled : Processed processPose ∧
    ∀ p ∈ ((run () (disableWaist [.chest] ++ processPose)).forwarded .waist).getLast?,
      p.deviceIsConnected = false :=
  ⟨processed_processPose, (retracted_iff () (disableWaist [.chest]) processPose .waist
      (retracting_processPose (.inr rfl)) processed_processPose).2
      (.inr ⟨[.hmdPose (.healthy ()) answers], prefix_rfl, [], _, prefix_rfl, by decide⟩)⟩

/-- The last role that is disabled is not retracted. -/
theorem last_role_not_retracted : ¬∀ (as bs : List (Action Unit)) (r : BodyRole),
    (∀ pre, pre <+: bs → Retracting r (run () (as ++ pre))) → Processed bs →
      ∀ p ∈ ((run () (as ++ bs)).forwarded r).getLast?, p.deviceIsConnected = false := by
  intro h
  have hlast := h (disableWaist []) processPose .waist (retracting_processPose (.inl rfl))
    processed_processPose (Manager.poseFromCompletion (.healthy ()) ()) rfl
  cases hlast

end WKOpenVR.Phantom.VirtualTracker
