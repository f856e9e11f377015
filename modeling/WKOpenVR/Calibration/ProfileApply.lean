import WKOpenVR.Calibration.TransformPayload

/-!
# Applying the profile

On every tick of the calibration the overlay looks at all devices, and sends the driver
what the calibration makes of them (`ScanAndApplyProfile`, in
`CalibrationProfileApply.cpp`): the offset to the devices of the target system, identity
to the others, and a fallback for each calibrated system. What was sent before is not sent
again: the overlay keeps it (`Overlay`), until the status of the send queue tells that it
may have been lost (`observeStatus`), or the profile has changed (`observeTarget`).

The requests of a scan are collected in an outbox, in their order. They depend on nothing
that happens while they are enqueued.

A request is sent for a device, or for a system, by one function, which keeps what it has
sent. So a scan is described by what these functions send and leave alone: one payload is
computed for a device (`applyDevice_eq`), and the devices do not touch the fallbacks
(`scanDevices_fallbackView`).
-/

namespace WKOpenVR.Calibration.ProfileApply

open Text FloatArith Ipc.SendQueue Function

/-- `vr::k_unMaxTrackedDeviceCount`. -/
def maxTrackedDeviceCount : ℕ := 64

/-! ## The context -/

/-- What is read of `HeadMountConfig`. -/
structure HeadMountConfig where
  hideTracker : Bool
  trackerSerial : Name
  trackerTrackingSystem : Name

/-- What is read of an `AdditionalCalibration`. Its rotation is the quaternion of its
    angles. -/
structure AdditionalCalibration (K : Type*) where
  enabled : Bool
  valid : Bool
  targetTrackingSystem : Name
  calibratedTranslation : Vec3 K
  calibratedRotation : Quat K
  calibratedScale : K

/-- What is read of the `CalibrationContext`. Its rotation is the quaternion of its angles
    (`VRRotationQuat`). -/
structure Context (K : Type*) where
  validProfile : Bool
  /-- The calibration is in the state `Continuous`. -/
  continuous : Bool
  referenceTrackingSystem : Name
  targetTrackingSystem : Name
  targetID : ℤ
  calibratedTranslation : Vec3 K
  calibratedRotation : Quat K
  calibratedScale : K
  recalibrateOnMovement : Bool
  quashTargetInContinuous : Bool
  headMount : HeadMountConfig
  alignmentSpeedParams : List UInt8
  additionalCalibrations : List (AdditionalCalibration K)

/-- A device that is present. A property that cannot be read is `none`. -/
structure Device where
  isController : Bool
  serial : Option Name
  trackingSystem : Option Name
  renderModel : List UInt8
  connectedWirelessDongle : List UInt8

/-- What a call of `ScanAndApplyProfile` finds. -/
structure Scan (K : Type*) where
  ctx : Context K
  /-- The devices by their index, if there is a VR system. -/
  devices : Option (ℕ → Option Device)
  /-- The transform from the left eye to the head. -/
  eyeToHeadLeft : Fin 3 → Fin 4 → K
  /-- The payloads of this scan are not blended. -/
  snapThisCycle : Bool

def Scan.device {K : Type*} (scan : Scan K) (id : ℕ) : Option Device :=
  scan.devices.bind fun devices => devices id

def shouldHideHeadMountTracker (hm : HeadMountConfig) (id : ℕ) (serial trackingSystem : Name) :
    Bool :=
  if id = 0 then false
  else if !hm.hideTracker then false
  else if hm.trackerSerial.isEmpty || serial.isEmpty then false
  else if serial ≠ hm.trackerSerial then false
  else if !hm.trackerTrackingSystem.isEmpty && !trackingSystem.isEmpty &&
      trackingSystem != hm.trackerTrackingSystem then false
  else true

def shouldHideContinuousTarget {K : Type*} (ctx : Context K) (id : ℕ) : Bool :=
  if id = 0 then false
  else ctx.continuous && decide ((id : ℤ) = ctx.targetID) && ctx.quashTargetInContinuous

def shouldQuashPublishedTrackerPose {K : Type*} (ctx : Context K) (id : ℕ)
    (serial trackingSystem : Name) : Bool :=
  shouldHideHeadMountTracker ctx.headMount id serial trackingSystem ||
    shouldHideContinuousTarget ctx id

def shouldBlendCycle (inContinuousState isFreshlyAdopted snapThisCycle : Bool) : Bool :=
  inContinuousState && !isFreshlyAdopted && !snapThisCycle

/-! ## The overlay -/

/-- What the overlay keeps between the scans. -/
structure Overlay (K : Type*) where
  /-- `g_lastApplied`, where it is valid. -/
  lastApplied : ℕ → Option (SetDeviceTransform K)
  lastSeenSerial : ℕ → Name
  lastTargetSystem : Name
  lastEnabled : Bool
  /-- `g_lastAlignmentSpeed`, if it was sent. -/
  lastAlignmentSpeed : Option (List UInt8)
  /-- `g_lastFallback`, if it was sent. -/
  lastFallback : Option (SetTrackingSystemFallback K)
  lastFallbacksBySystem : Name → Option (SetTrackingSystemFallback K)
  lastSeenGeneration : ℕ
  lastSeenFailures : ℕ
  lastSeenDropped : ℕ
  /-- `ctx.enabled`. -/
  enabled : Bool
  /-- The requests of the scan, with their keys, that have still to be enqueued. -/
  outbox : List (Entry (Request K))
  /-- The last payload computed for a device in the scan, sent or not. -/
  computed : ℕ → Option (SetDeviceTransform K)

namespace Overlay

variable {K : Type*}

def fresh : Overlay K where
  lastApplied _ := none
  lastSeenSerial _ := []
  lastTargetSystem := []
  lastEnabled := false
  lastAlignmentSpeed := none
  lastFallback := none
  lastFallbacksBySystem _ := none
  lastSeenGeneration := 0
  lastSeenFailures := 0
  lastSeenDropped := 0
  enabled := false
  outbox := []
  computed _ := none

variable (o : Overlay K)

def sendProfileApplyRequest (request : Request K) (coalesceKey : String) : Overlay K :=
  { o with outbox := o.outbox ++ [⟨request, coalesceKey⟩] }

def invalidateTransformCacheForId (id : ℕ) : Overlay K :=
  { o with
    lastApplied := Function.update o.lastApplied id none
    lastSeenSerial := Function.update o.lastSeenSerial id []
    computed := Function.update o.computed id none }

def invalidateAllTransformCaches : Overlay K :=
  { o with
    lastApplied := fun _ => none
    lastSeenSerial := fun _ => []
    lastAlignmentSpeed := none
    lastFallback := none
    lastFallbacksBySystem := fun _ => none }

variable (status : Status)

/-- The status is not the one the last scan has seen. -/
def statusChanged : Prop :=
  status.connectionGeneration ≠ o.lastSeenGeneration ∨
    status.sendFailures ≠ o.lastSeenFailures ∨ status.dropped ≠ o.lastSeenDropped

instance (o : Overlay K) (status : Status) : Decidable (o.statusChanged status) :=
  inferInstanceAs (Decidable (_ ∨ _))

/-- A change of the status is taken for the first connection of the worker. -/
def firstConnect : Prop :=
  o.lastSeenGeneration = 0 ∧ status.sendFailures = 0 ∧ status.dropped = 0

instance (o : Overlay K) (status : Status) : Decidable (o.firstConnect status) :=
  inferInstanceAs (Decidable (_ ∧ _))

/-- The status makes a scan forget what was sent. -/
def forgets : Prop :=
  o.statusChanged status ∧ ¬o.firstConnect status

instance (o : Overlay K) (status : Status) : Decidable (o.forgets status) :=
  inferInstanceAs (Decidable (_ ∧ _))

/-- The status of the worker, at the start of a scan. -/
def observeStatus : Overlay K :=
  if o.statusChanged status then
    let seen := { o with
      lastSeenGeneration := status.connectionGeneration
      lastSeenFailures := status.sendFailures
      lastSeenDropped := status.dropped }
    if o.firstConnect status then seen else seen.invalidateAllTransformCaches
  else o

variable [FloatArith K] (ctx : Context K)

/-- The old target is told to stop, if a fallback was sent. -/
def withdrawsTarget : Bool :=
  decide (ctx.targetTrackingSystem ≠ o.lastTargetSystem) && !o.lastTargetSystem.isEmpty &&
    o.lastFallback.any (·.enabled)

/-- The payload that disables the fallback of the old target. -/
def disablePayload (system : Name) : SetTrackingSystemFallback K where
  systemName := nameField system
  enabled := false
  translation := .zero
  rotation := .identity
  scale := lit 1

/-- The target system, or the validity of the profile, may have changed. -/
def observeTarget (o : Overlay K) (ctx : Context K) : Overlay K :=
  if ctx.targetTrackingSystem ≠ o.lastTargetSystem ∨ o.enabled ≠ o.lastEnabled then
    let sent :=
      if o.withdrawsTarget ctx then
        o.sendProfileApplyRequest (.setTrackingSystemFallback (disablePayload o.lastTargetSystem))
          (fallbackKey o.lastTargetSystem)
      else o
    { sent.invalidateAllTransformCaches with
      lastTargetSystem := ctx.targetTrackingSystem
      lastEnabled := o.enabled }
  else o

omit [FloatArith K] in
def sendAlignmentSpeed : Overlay K :=
  if o.lastAlignmentSpeed = some ctx.alignmentSpeedParams then o
  else
    { o.sendProfileApplyRequest (.setAlignmentSpeedParams ctx.alignmentSpeedParams)
        alignmentKey with
      lastAlignmentSpeed := some ctx.alignmentSpeedParams }

def sendFallbackIfChanged (o : Overlay K) (systemName : Name) (enabled : Bool)
    (translationCm : Vec3 K) (rotation : Quat K) (scale : K) (recalibrateOnMovement : Bool) :
    Overlay K :=
  let payload : SetTrackingSystemFallback K :=
    { systemName := nameField systemName, enabled, translation := translationCm.inMetres, rotation,
      scale, recalibrateOnMovement }
  if (o.lastFallbacksBySystem systemName).any (fallbackPayloadNearEqual · payload) then o
  else
    { o.sendProfileApplyRequest (.setTrackingSystemFallback payload) (fallbackKey systemName) with
      lastFallbacksBySystem := Function.update o.lastFallbacksBySystem systemName (some payload)
      lastFallback := some payload }

/-- The fallback of the target system. -/
def sendTargetFallback (o : Overlay K) (ctx : Context K) : Overlay K :=
  if o.enabled && !ctx.targetTrackingSystem.isEmpty then
    o.sendFallbackIfChanged ctx.targetTrackingSystem true ctx.calibratedTranslation
      ctx.calibratedRotation ctx.calibratedScale ctx.recalibrateOnMovement
  else o

/-- The fallback of an additional calibration. -/
def sendExtraFallback (o : Overlay K) (extra : AdditionalCalibration K) : Overlay K :=
  if !extra.enabled || !extra.valid then o
  else if extra.targetTrackingSystem.isEmpty then o
  else if extra.targetTrackingSystem = ctx.targetTrackingSystem then o
  else
    o.sendFallbackIfChanged extra.targetTrackingSystem true extra.calibratedTranslation
      extra.calibratedRotation extra.calibratedScale ctx.recalibrateOnMovement

def sendDeviceTransformIfChanged (o : Overlay K) (id : ℕ) (payload : SetDeviceTransform K) :
    Overlay K :=
  let computed := { o with computed := Function.update o.computed id (some payload) }
  if id ≥ maxTrackedDeviceCount then computed
  else if (o.lastApplied id).any (transformPayloadNearEqual · payload) then computed
  else
    { computed.sendProfileApplyRequest (.setDeviceTransform payload) (deviceKey id) with
      lastApplied := Function.update o.lastApplied id (some payload) }

/-- The payload of `ResetAndDisableOffsets`. A tracker on the head stays hidden. -/
def disabledPayload (o : Overlay K) (ctx : Context K) (id : ℕ) (trackingSystem : Name) :
    SetDeviceTransform K where
  openVRID := id
  enabled := false
  translation := .zero
  rotation := .identity
  scale := lit 1
  targetSystem := nameField trackingSystem
  updateQuash := true
  quash := shouldHideHeadMountTracker ctx.headMount id (o.lastSeenSerial id) trackingSystem

def resetAndDisableOffsets (o : Overlay K) (ctx : Context K) (id : ℕ) (trackingSystem : Name) :
    Overlay K :=
  o.sendDeviceTransformIfChanged id (o.disabledPayload ctx id trackingSystem)

/-- The payload of a device of the target system. -/
def targetPayload (o : Overlay K) (scan : Scan K) (id : ℕ) (trackingSystem : Name) :
    SetDeviceTransform K where
  openVRID := id
  enabled := true
  translation := scan.ctx.calibratedTranslation.inMetres
  rotation := scan.ctx.calibratedRotation
  scale := scan.ctx.calibratedScale
  lerp := shouldBlendCycle scan.ctx.continuous (!(o.lastApplied id).any (·.enabled))
    scan.snapThisCycle
  quash := shouldQuashPublishedTrackerPose scan.ctx id (o.lastSeenSerial id) trackingSystem
  updateQuash := true
  targetSystem := nameField scan.ctx.targetTrackingSystem
  recalibrateOnMovement := scan.ctx.recalibrateOnMovement

/-- An index may have passed to another device. -/
def observeSerial (o : Overlay K) (ctx : Context K) (id : ℕ) (device : Device) : Overlay K :=
  let serial := device.serial.getD []
  if o.lastSeenSerial id = serial then o
  else
    let seen := { o with lastSeenSerial := Function.update o.lastSeenSerial id serial }
    if (o.lastSeenSerial id).isEmpty then seen
    else
      { seen with lastApplied := Function.update o.lastApplied id none }.resetAndDisableOffsets
        ctx id []

end Overlay

section Systems

variable {K : Type*} [FloatArith K]

/-- The eye of a Pimax Crystal: all but the distance from the nose is that of identity. -/
def isCrystalHmd (m : Fin 3 → Fin 4 → K) : Bool :=
  (List.finRange 3).all fun i => (List.finRange 4).all fun j =>
    decide (i.val = 0 ∧ j.val = 3) || FloatArith.eq (m i j) (lit (if i.val = j.val then 1 else 0))

variable (scan : Scan K)

def hmdSystem (trackingSystem : Name) : Name :=
  if trackingSystem = ascii "aapvr" ∧ isCrystalHmd scan.eyeToHeadLeft then
    ascii "Pimax Crystal HMD"
  else trackingSystem

/-- The headset has the tracking system of the calibration, as far as it can be read. -/
def Scan.headsetMatches : Bool :=
  match (scan.device 0).bind Device.trackingSystem with
  | none => true
  | some trackingSystem => decide (hmdSystem scan trackingSystem = scan.ctx.referenceTrackingSystem)

/-- `find(key) != npos`. -/
def contains (text : List UInt8) (key : String) : Bool := (afterFirst (ascii key) text).isSome

def deviceSystem (device : Device) (trackingSystem : Name) : Name :=
  if device.isController ∧ trackingSystem = ascii "oculus" ∧
      contains device.renderModel "\x7baapvr\x7d" ∧ contains device.renderModel "crystal" ∧
      contains device.connectedWirelessDongle "lighthouse" then
    ascii "Pimax Crystal Controllers"
  else trackingSystem

end Systems

namespace Overlay

variable {K : Type*} [FloatArith K]

/-- What the scan sends for a device that is present. -/
def applyDevice (o : Overlay K) (scan : Scan K) (id : ℕ) (device : Device) : Overlay K :=
  if !o.enabled then o.resetAndDisableOffsets scan.ctx id []
  else
    match device.trackingSystem with
    | none => o.resetAndDisableOffsets scan.ctx id []
    | some trackingSystem =>
      if id = 0 then
        -- A headset of another system than that of the calibration turns the profile off.
        let system := hmdSystem scan trackingSystem
        { o with
          enabled := decide (system = scan.ctx.referenceTrackingSystem) }.resetAndDisableOffsets
            scan.ctx id system
      else
        let system := deviceSystem device trackingSystem
        if system ≠ scan.ctx.targetTrackingSystem then o.resetAndDisableOffsets scan.ctx id system
        else o.sendDeviceTransformIfChanged id (o.targetPayload scan id system)

/-- What the scan does for an index. -/
def scanDevice (scan : Scan K) (o : Overlay K) (id : ℕ) : Overlay K :=
  match scan.device id with
  | none =>
    if !(o.lastSeenSerial id).isEmpty || (o.lastApplied id).isSome then
      o.invalidateTransformCacheForId id
    else o
  | some device => (o.observeSerial scan.ctx id device).applyDevice scan id device

variable (o : Overlay K)

def scanDevices (scan : Scan K) : Overlay K :=
  (List.range maxTrackedDeviceCount).foldl (scanDevice scan) o

def sendFallbacks (o : Overlay K) (ctx : Context K) : Overlay K :=
  ctx.additionalCalibrations.foldl (sendExtraFallback ctx) (o.sendTargetFallback ctx)

def beginScan (status : Status) (ctx : Context K) : Overlay K :=
  { o.observeStatus status with enabled := ctx.validProfile, computed := fun _ => none }

/-- The part of a scan before the loop over the devices. -/
def applyContext (o : Overlay K) (status : Status) (ctx : Context K) : Overlay K :=
  (((o.beginScan status ctx).observeTarget ctx).sendAlignmentSpeed ctx).sendFallbacks ctx

/-- `ScanAndApplyProfile`, with the status of the send queue. Without a VR system it only
    sets `ctx.enabled`. -/
def scanAndApplyProfile (status : Status) (scan : Scan K) : Overlay K :=
  if scan.devices.isNone then
    { o with enabled := scan.ctx.validProfile, computed := fun _ => none }
  else (o.applyContext status scan.ctx).scanDevices scan

/-! ## What is sent for a device -/

/-- A payload for a device: its numbers are those of identity, or of the calibration. -/
structure IsPayload (ctx : Context K) (id : ℕ) (p : SetDeviceTransform K) : Prop where
  openVRID : p.openVRID = id
  numbers : p.translation = .zero ∧ p.rotation = .identity ∧ p.scale = lit 1 ∨
    p.translation = ctx.calibratedTranslation.inMetres ∧ p.rotation = ctx.calibratedRotation ∧
      p.scale = ctx.calibratedScale

variable (scan : Scan K) (ctx : Context K) (id : ℕ) (trackingSystem : Name)

theorem isPayload_disabledPayload : IsPayload ctx id (o.disabledPayload ctx id trackingSystem) :=
  ⟨rfl, .inl ⟨rfl, rfl, rfl⟩⟩

theorem isPayload_targetPayload : IsPayload scan.ctx id (o.targetPayload scan id trackingSystem) :=
  ⟨rfl, .inr ⟨rfl, rfl, rfl⟩⟩

/-- A new serial is noted, and the device that had the index before is disabled. -/
theorem observeSerial_eq (device : Device) : ∃ serials,
    o.observeSerial ctx id device = { o with lastSeenSerial := serials } ∨
    ∃ payload, IsPayload ctx id payload ∧ o.observeSerial ctx id device =
      { o with
        lastSeenSerial := serials
        lastApplied := update o.lastApplied id none }.sendDeviceTransformIfChanged
          id payload := by
  rw [observeSerial]
  split_ifs
  · exact ⟨_, .inl rfl⟩
  · exact ⟨_, .inl rfl⟩
  · exact ⟨_, .inr ⟨_, isPayload_disabledPayload _ ctx id _, rfl⟩⟩

/-- One payload is computed for a device. Only the headset can turn the profile off, if it
    is not that of the calibration. -/
theorem applyDevice_eq {device : Device} (hdevice : scan.device id = some device) :
    ∃ enabled payload, o.applyDevice scan id device =
        { o with enabled }.sendDeviceTransformIfChanged id payload ∧
      IsPayload scan.ctx id payload ∧ (scan.headsetMatches = true → enabled = o.enabled) := by
  have hreset (trackingSystem : Name) := isPayload_disabledPayload o scan.ctx id trackingSystem
  unfold applyDevice
  split
  · exact ⟨_, _, rfl, hreset [], fun _ => rfl⟩
  next hon =>
    split
    · exact ⟨_, _, rfl, hreset [], fun _ => rfl⟩
    next trackingSystem hsystem =>
      split
      next hid =>
        refine ⟨_, _, rfl, isPayload_disabledPayload _ scan.ctx id _, fun hmatches => ?_⟩
        rw [Scan.headsetMatches, ← hid, hdevice, Option.bind_some, hsystem] at hmatches
        have henabled : o.enabled = true := by simpa using hon
        exact hmatches.trans henabled.symm
      · dsimp only
        split
        · exact ⟨_, _, rfl, hreset _, fun _ => rfl⟩
        · exact ⟨_, _, rfl, isPayload_targetPayload o scan id _, fun _ => rfl⟩

/-! ## What the parts of a scan leave alone -/

/-- Only the fallbacks, and what is to be sent, may differ. -/
def FallbackFrame (o o' : Overlay K) : Prop := ∃ bySystem last outbox,
  o' = { o with lastFallbacksBySystem := bySystem, lastFallback := last, outbox := outbox }

omit [FloatArith K] in
theorem FallbackFrame.trans {o o' o'' : Overlay K} (h : FallbackFrame o o')
    (h' : FallbackFrame o' o'') : FallbackFrame o o'' := by
  obtain ⟨_, _, _, rfl⟩ := h
  exact h'

theorem sendFallbackIfChanged_frame (system : Name) (enabled : Bool) (translationCm : Vec3 K)
    (rotation : Quat K) (scale : K) (recalibrateOnMovement : Bool) : FallbackFrame o
    (o.sendFallbackIfChanged system enabled translationCm rotation scale
      recalibrateOnMovement) := by
  rw [sendFallbackIfChanged]
  split_ifs
  · exact ⟨_, _, _, rfl⟩
  · exact ⟨_, _, _, rfl⟩

/-- The fallbacks do not touch the devices. -/
theorem sendFallbacks_frame : FallbackFrame o (o.sendFallbacks ctx) := by
  have hextra (o : Overlay K) (extra : AdditionalCalibration K) :
      FallbackFrame o (sendExtraFallback ctx o extra) := by
    rw [sendExtraFallback]
    split_ifs
    · exact ⟨_, _, _, rfl⟩
    · exact ⟨_, _, _, rfl⟩
    · exact ⟨_, _, _, rfl⟩
    · exact sendFallbackIfChanged_frame o _ _ _ _ _ _
  have hextras (extras : List (AdditionalCalibration K)) (o : Overlay K) :
      FallbackFrame o (extras.foldl (sendExtraFallback ctx) o) := by
    induction extras generalizing o with
    | nil => exact ⟨_, _, _, rfl⟩
    | cons extra extras ih => exact (hextra o extra).trans (ih _)
  rw [sendFallbacks, sendTargetFallback]
  split_ifs
  · exact (sendFallbackIfChanged_frame o _ _ _ _ _ _).trans (hextras _ _)
  · exact hextras _ o

theorem observeTarget_frame : ∃ applied serials speed last bySystem outbox enabled,
    o.observeTarget ctx = { o with
      lastApplied := applied, lastSeenSerial := serials, lastAlignmentSpeed := speed
      lastFallback := last, lastFallbacksBySystem := bySystem, outbox := outbox
      lastEnabled := enabled, lastTargetSystem := ctx.targetTrackingSystem } := by
  rw [observeTarget]
  split
  · dsimp only
    split_ifs <;> exact ⟨_, _, _, _, _, _, _, rfl⟩
  next hsame =>
    rw [not_ne_iff.1 (not_or.1 hsame).1]
    exact ⟨_, _, _, _, _, _, _, rfl⟩

omit [FloatArith K] in
theorem sendAlignmentSpeed_frame : ∃ speed outbox, o.sendAlignmentSpeed ctx =
    { o with lastAlignmentSpeed := speed, outbox := outbox } := by
  rw [sendAlignmentSpeed]
  split_ifs
  · exact ⟨_, _, rfl⟩
  · exact ⟨_, _, rfl⟩

theorem applyContext_frame (status : Status) : ∃ applied serials speed last bySystem outbox enabled,
    o.applyContext status ctx = { o.beginScan status ctx with
      lastApplied := applied, lastSeenSerial := serials, lastAlignmentSpeed := speed
      lastFallback := last, lastFallbacksBySystem := bySystem, outbox := outbox
      lastEnabled := enabled, lastTargetSystem := ctx.targetTrackingSystem } := by
  obtain ⟨_, _, _, _, _, _, _, htarget⟩ := observeTarget_frame (o.beginScan status ctx) ctx
  obtain ⟨_, _, halign⟩ := sendAlignmentSpeed_frame ((o.beginScan status ctx).observeTarget ctx) ctx
  rw [applyContext, halign, htarget]
  obtain ⟨_, _, _, hfallbacks⟩ := sendFallbacks_frame _ ctx
  exact ⟨_, _, _, _, _, _, _, hfallbacks⟩

variable (payload : SetDeviceTransform K)

theorem sendDeviceTransformIfChanged_frame :
    ∃ applied outbox, o.sendDeviceTransformIfChanged id payload = { o with
      lastApplied := applied, outbox := outbox
      computed := update o.computed id (some payload) } := by
  rw [sendDeviceTransformIfChanged]
  split_ifs
  · exact ⟨_, _, rfl⟩
  · exact ⟨_, _, rfl⟩
  · exact ⟨_, _, rfl⟩

theorem observeSerial_frame (device : Device) : ∃ applied serials outbox computed,
    o.observeSerial ctx id device = { o with
      lastApplied := applied, lastSeenSerial := serials, outbox := outbox, computed := computed } ∧
    ∀ id' ≠ id, computed id' = o.computed id' := by
  obtain ⟨serials, heq | ⟨payload, -, heq⟩⟩ := observeSerial_eq o ctx id device
  · exact ⟨_, _, _, _, heq, fun _ _ => rfl⟩
  · obtain ⟨applied, outbox, hsend⟩ := sendDeviceTransformIfChanged_frame
      { o with
        lastSeenSerial := serials
        lastApplied := update o.lastApplied id none } id payload
    exact ⟨_, _, _, _, heq.trans hsend, fun id' hid' => update_of_ne hid' _ _⟩

/-- A payload is computed for a device, and for no other. -/
theorem scanDevice_frame : ∃ applied serials outbox enabled computed,
    scanDevice scan o id = { o with
      lastApplied := applied, lastSeenSerial := serials, outbox := outbox, enabled := enabled
      computed := computed } ∧
    (scan.headsetMatches = true → enabled = o.enabled) ∧
    (∀ id' ≠ id, computed id' = o.computed id') ∧
    ((scan.device id).isSome = true → (computed id).isSome = true) := by
  rw [scanDevice]
  split
  next hnone =>
    have hdead (h : (none : Option Device).isSome = true) {p : Prop} : p := by cases h
    split_ifs
    · exact ⟨_, _, _, _, _, rfl, fun _ => rfl, fun id' hid' => update_of_ne hid' _ _,
        fun h => hdead (hnone ▸ h)⟩
    · exact ⟨_, _, _, _, _, rfl, fun _ => rfl, fun _ _ => rfl, fun h => hdead (hnone ▸ h)⟩
  next device hdevice =>
    obtain ⟨enabled, payload, heq, -, henabled⟩ :=
      applyDevice_eq (o.observeSerial scan.ctx id device) scan id hdevice
    obtain ⟨applied, serials, outbox, computed, hserial, hother⟩ :=
      observeSerial_frame o scan.ctx id device
    rw [heq]
    rw [hserial] at henabled ⊢
    obtain ⟨applied', outbox', hsend⟩ := sendDeviceTransformIfChanged_frame
      { o with
        lastApplied := applied, lastSeenSerial := serials, outbox := outbox, enabled := enabled
        computed := computed } id payload
    refine ⟨_, _, _, _, _, hsend, henabled, fun id' hid' => ?_, fun _ => ?_⟩
    · exact (update_of_ne hid' _ _).trans (hother id' hid')
    · rw [update_self]
      rfl

/-- The loop computes a payload for every device that is present. If the headset is that of
    the calibration, the profile stays on. -/
theorem scanDevices_frame : ∃ applied serials outbox enabled computed,
    o.scanDevices scan = { o with
      lastApplied := applied, lastSeenSerial := serials, outbox := outbox, enabled := enabled
      computed := computed } ∧
    (scan.headsetMatches = true → enabled = o.enabled) ∧
    ∀ id < maxTrackedDeviceCount, (scan.device id).isSome = true →
      (computed id).isSome = true := by
  rw [scanDevices]
  induction maxTrackedDeviceCount with
  | zero => exact ⟨_, _, _, _, _, rfl, fun _ => rfl, fun _ h => absurd h (Nat.not_lt_zero _)⟩
  | succ n ih =>
    obtain ⟨applied, serials, outbox, enabled, computed, heq, henabled, hcomputed⟩ := ih
    rw [List.range_succ, List.foldl_append, heq]
    obtain ⟨applied', serials', outbox', enabled', computed', heq', henabled', hother, hlive⟩ :=
      scanDevice_frame
        { o with
          lastApplied := applied, lastSeenSerial := serials, outbox := outbox, enabled := enabled
          computed := computed } scan n
    refine ⟨_, _, _, _, _, heq', fun h => (henabled' h).trans (henabled h),
      fun id hid hdevice => ?_⟩
    by_cases hn : id = n
    · exact hn ▸ hlive (hn ▸ hdevice)
    · rw [hother id hn]
      exact hcomputed id (by omega) hdevice

/-! ## The fallbacks of a scan -/

/-- The fallbacks among the requests. -/
def fallbackRequests (es : List (Entry (Request K))) : List (SetTrackingSystemFallback K) :=
  es.filterMap fun e =>
    match e.request with
    | .setTrackingSystemFallback payload => some payload
    | _ => none

/-- What concerns the fallbacks. -/
def fallbackView :=
  (o.lastTargetSystem, o.lastFallback, o.lastFallbacksBySystem, fallbackRequests o.outbox)

theorem sendDeviceTransformIfChanged_fallbackView :
    (o.sendDeviceTransformIfChanged id payload).fallbackView = o.fallbackView := by
  rw [sendDeviceTransformIfChanged]
  split_ifs <;> simp [fallbackView, sendProfileApplyRequest, fallbackRequests]

theorem scanDevice_fallbackView : (scanDevice scan o id).fallbackView = o.fallbackView := by
  rw [scanDevice]
  split
  · split_ifs <;> rfl
  next device hdevice =>
    have hserial : (o.observeSerial scan.ctx id device).fallbackView = o.fallbackView := by
      obtain ⟨serials, heq | ⟨payload, -, heq⟩⟩ := observeSerial_eq o scan.ctx id device
      · rw [heq]
        rfl
      · rw [heq, sendDeviceTransformIfChanged_fallbackView]
        rfl
    obtain ⟨enabled, payload, heq, -⟩ :=
      applyDevice_eq (o.observeSerial scan.ctx id device) scan id hdevice
    rw [heq, sendDeviceTransformIfChanged_fallbackView, ← hserial]
    rfl

/-- The devices do not touch the fallbacks. -/
theorem scanDevices_fallbackView : (o.scanDevices scan).fallbackView = o.fallbackView := by
  rw [scanDevices]
  induction List.range maxTrackedDeviceCount generalizing o with
  | nil => rfl
  | cons id ids ih => rw [List.foldl_cons, ih, scanDevice_fallbackView]

end Overlay

/-! ## A profile -/

/-- A calibration for the target system, with a headset of the system "oculus". -/
def profileFor (target : Name) : Context ℚ where
  validProfile := true
  continuous := false
  referenceTrackingSystem := ascii "oculus"
  targetTrackingSystem := target
  targetID := 1
  calibratedTranslation := ⟨10, 0, 0⟩
  calibratedRotation := .identity
  calibratedScale := 1
  recalibrateOnMovement := true
  quashTargetInContinuous := false
  headMount := ⟨false, [], []⟩
  alignmentSpeedParams := []
  additionalCalibrations := []

end WKOpenVR.Calibration.ProfileApply
