import WKOpenVR.Phantom.Dropout

/-!
# The phantom module

The phantom module (`PhantomModule`) runs a dropout ladder for every device. It
sees the poses of the devices in the pose hook of the driver, where it may
replace a pose by a synthesised one (`maybeOverridePose`) or suppress it; and it
republishes the devices that have fallen silent when another device sends a pose
(`collectSilentPoseUpdates`).

The sources of synthesised poses are numeric: projecting and blending poses are
functions on the kinematic part of a pose (`Numerics`), and what the body
completion and the inverse kinematics solve for a device comes with the calls
(`Sources`). The roles of the devices, which the module infers from motion, are
assigned from outside.
-/

namespace WKOpenVR.Phantom

/-- The computations on the kinematic part of a pose. -/
structure Numerics (K : Type*) where
  /-- `ToWorldSpacePose`. -/
  toWorldSpace : K → K
  /-- The fields a projection starts from are finite. -/
  isFinite : K → Bool
  /-- The projection of a sample by `dtNs` ticks (`DeadReckoner::Project`). -/
  project : K → (dtNs qpcFreq : ℤ) → K
  /-- The blend of two poses (`BlendController::Lerp`). -/
  lerp : K → K → ℚ → K

/-- What the body solvers give for a device with a role. -/
structure Sources (K : Type*) where
  /-- The pose of `TryBodyCompletionPose`, if it produces one. -/
  bodyCompletion : Option (DriverPose K)
  /-- The pose of `IkFallback::Solve` on a valid headset pose, if it produces one. -/
  ikFallback : Option (DriverPose K)

structure PoseSample (K : Type*) where
  qpcNs : ℤ
  pose : DriverPose K
  wasReal : Bool

/-- `PoseHistory::kCapacity`. -/
def historyCapacity : ℕ := 256

/-- The state of a device (`DeviceSlot`). -/
structure DeviceSlot (K : Type*) where
  /-- The history of healthy poses, newest first. -/
  history : List (PoseSample K)
  ladder : DropoutState K
  serial : String
  optedIn : Bool
  /-- The device has a body role. -/
  hasRole : Bool
  lastObservedValid : Bool
  lastPublished : DriverPose K
  lastPublishedValid : Bool
  lastSyntheticPublishQpc : ℤ

namespace DeviceSlot

variable {K : Type*} (num : Numerics K) (src : Sources K) (s : DeviceSlot K)

/-- A device that is opted in, before its first pose. -/
def fresh [Inhabited K] (serial : String) : DeviceSlot K where
  history := []
  ladder := .fresh .defaults
  serial := serial
  optedIn := true
  hasRole := false
  lastObservedValid := false
  lastPublished := default
  lastPublishedValid := false
  lastSyntheticPublishQpc := 0

variable (qpcNs : ℤ) (pose : DriverPose K)

/-- `PoseHistory::Push`: the oldest sample is dropped when the history is full. -/
def pushHistory : List (PoseSample K) :=
  (⟨qpcNs, pose, true⟩ :: s.history).take historyCapacity

/-- `ToWorldSpacePose`, on a pose. -/
def toWorldSpacePose : DriverPose K :=
  { pose with kin := num.toWorldSpace pose.kin }

variable (qpcFreq : ℤ)

/-- `DeadReckoner::Project`: the newest sample, projected to `qpcNs`. -/
def project : Option (DriverPose K) :=
  match s.history with
  | [] => none
  | newest :: _ =>
    if !newest.wasReal ∨ qpcFreq ≤ 0 ∨ !num.isFinite newest.pose.kin then none
    else some { newest.pose with
      kin := num.project newest.pose.kin (i64 (qpcNs - newest.qpcNs)) qpcFreq
      poseIsValid := true
      deviceIsConnected := true
      result := .runningOK }

/-- `BlendController::Lerp`: the flags are those of the first pose. -/
def lerp (a b : DriverPose K) (alpha : ℚ) : DriverPose K :=
  { a with kin := num.lerp a.kin b.kin alpha }

/-- A pose with the result of the ladder. -/
def overrideResult : DriverPose K :=
  { pose with result := s.ladder.trackingResultOverride }

/-- The synthesised pose of the rungs above the blend, if any source has one. -/
def synthesise : Option (DriverPose K) :=
  ((if s.hasRole then src.bodyCompletion else none).or
    (if s.hasRole then src.ikFallback else none)).or (s.project num qpcNs qpcFreq)

/-- `BuildSyntheticPose`, with the live pose if there is one. -/
def buildSyntheticPose (livePose : Option (DriverPose K)) : Option (DriverPose K) :=
  match s.ladder.state with
  | .real => livePose
  | .blendOut =>
    let base := (livePose.filter DriverPose.trackedOk).getD s.ladder.dropoutAnchor
    match s.project num qpcNs qpcFreq with
    | some synth =>
      some (s.overrideResult (lerp num base synth (s.ladder.blendAlpha qpcNs qpcFreq)))
    | none => some (s.overrideResult base)
  | .synthReckon | .synthIk | .synthMl | .outOfRange =>
    ((s.synthesise num src qpcNs qpcFreq).or
      (livePose.or (if s.lastPublishedValid then some s.lastPublished else none))).map
      s.overrideResult
  | .blendIn => livePose.map fun live =>
    if s.lastPublishedValid then
      lerp num s.lastPublished live (s.ladder.blendAlpha qpcNs qpcFreq)
    else live
  | .lost => none

variable (timings : LadderTimings)

/-- `OnRealPoseObserved`: the pose goes to the history, if it is healthy, and to
    the ladder. -/
def onRealPoseObserved (qpcNs : ℤ) (pose : DriverPose K) : DeviceSlot K :=
  let world := toWorldSpacePose num pose
  { s with
    lastObservedValid := world.trackedOk
    history := if world.trackedOk then s.pushHistory qpcNs world else s.history
    ladder :=
      ((s.ladder.setTimings timings).setIkAvailable s.hasRole).onRealPoseObserved qpcNs world }

/-- The slot that has published `pose`. -/
def cachePublished : DeviceSlot K :=
  { s with lastPublished := pose, lastPublishedValid := true }

variable (masterEnabled : Bool)

/-- `MaybeOverridePose`: the slot, and the pose the driver forwards, if any. -/
def maybeOverridePose (qpcNs qpcFreq : ℤ) (pose : DriverPose K) :
    DeviceSlot K × Option (DriverPose K) :=
  let s := { s with ladder := s.ladder.tick qpcNs qpcFreq }
  let world := toWorldSpacePose num pose
  if !(masterEnabled && s.optedIn) then (s.cachePublished world, some pose)
  else
    match s.ladder.state with
    | .real => (s.cachePublished world, some world)
    | .blendOut | .synthReckon | .synthIk | .synthMl | .outOfRange =>
      let pose := (s.buildSyntheticPose num src qpcNs qpcFreq (some world)).getD
        (s.overrideResult world)
      (s.cachePublished pose, some pose)
    | .blendIn =>
      let pose := (s.buildSyntheticPose num src qpcNs qpcFreq (some world)).getD world
      (s.cachePublished pose, some pose)
    | .lost => (s, none)

/-- The pose hook for the device: both calls, at one reading of the counter. -/
def poseHook (qpcNs qpcFreq : ℤ) (pose : DriverPose K) : DeviceSlot K × Option (DriverPose K) :=
  (s.onRealPoseObserved num timings qpcNs pose).maybeOverridePose num src masterEnabled
    qpcNs qpcFreq
    pose

/-- The ticks between two synthetic poses of a device. -/
def minPublishDelta : ℤ := max 1 (qpcFreq.tdiv 90)

/-- A synthetic pose was published only just before. -/
def rateLimited : Bool :=
  0 < s.lastSyntheticPublishQpc &&
    i64 (qpcNs - s.lastSyntheticPublishQpc) < minPublishDelta qpcFreq

/-- A device takes part in the republishing. -/
def republished : Bool := s.serial != "" && s.optedIn && s.lastObservedValid

/-- The slot after the tick of the republishing. -/
def silentTick (qpcNs qpcFreq : ℤ) : DeviceSlot K :=
  { s with
    ladder := ((s.ladder.setTimings timings).setIkAvailable s.hasRole).tick qpcNs qpcFreq }

/-- The body of the loop of `CollectSilentPoseUpdates`: the slot, and the pose
    that is republished, if any. -/
def collectSilent (qpcNs qpcFreq : ℤ) : DeviceSlot K × Option (DriverPose K) :=
  if !s.republished then (s, none)
  else
    let s := s.silentTick timings qpcNs qpcFreq
    if s.ladder.state = .real ∨ s.ladder.state = .blendIn ∨ s.ladder.state = .lost then (s, none)
    else if s.rateLimited qpcNs qpcFreq then (s, none)
    else
      match s.buildSyntheticPose num src qpcNs qpcFreq none with
      | none => (s, none)
      | some synth =>
        ({ s.cachePublished synth with lastSyntheticPublishQpc := qpcNs }, some synth)

end DeviceSlot

/-! ## The module -/

/-- The module with its devices, and the pose the driver has forwarded last for
    each of them. -/
structure PhantomModule (K : Type*) where
  timings : LadderTimings
  masterEnabled : Bool
  slots : ℕ → DeviceSlot K
  forwarded : ℕ → Option (DriverPose K)

/-- The number of slots, `vr::k_unMaxTrackedDeviceCount`. -/
def slotCount : ℕ := 64

inductive PhantomEvent (K : Type*)
  /-- The device `id` sends a pose. -/
  | pose (id : ℕ) (qpcNs : ℤ) (pose : DriverPose K) (src : Sources K)
  /-- A pose of the device `trigger` triggers the republishing of the others. -/
  | collect (trigger : ℕ) (qpcNs : ℤ) (src : ℕ → Sources K)
  /-- The device `id` is assigned a role, or loses it. -/
  | assignRole (id : ℕ) (hasRole : Bool)

namespace PhantomModule

variable {K : Type*} (num : Numerics K) (qpcFreq : ℤ) (m : PhantomModule K)

/-- The pose hook of the driver for the device `id`; a pose of a device without
    a slot is forwarded as it is. -/
def handlePose (id : ℕ) (qpcNs : ℤ) (pose : DriverPose K) (src : Sources K) : PhantomModule K :=
  if id < slotCount then
    let (slot, out) := (m.slots id).poseHook num src m.timings m.masterEnabled qpcNs qpcFreq pose
    { m with
      slots := Function.update m.slots id slot
      forwarded := Function.update m.forwarded id (out.or (m.forwarded id)) }
  else { m with forwarded := Function.update m.forwarded id (some pose) }

variable (trigger : ℕ) (qpcNs : ℤ) (src : ℕ → Sources K)

/-- The result of the loop body for the device `id`, if the loop gets to it. -/
def collectSlot (id : ℕ) : DeviceSlot K × Option (DriverPose K) :=
  if id < slotCount ∧ id ≠ trigger then
    (m.slots id).collectSilent num (src id) m.timings qpcNs qpcFreq
  else (m.slots id, none)

/-- `CollectSilentPoseUpdates`, with the driver forwarding what it collects. -/
def collectSilentPoseUpdates : PhantomModule K :=
  if qpcFreq ≤ 0 ∨ !m.masterEnabled then m
  else { m with
    slots := fun id => (m.collectSlot num qpcFreq trigger qpcNs src id).1
    forwarded := fun id =>
      (m.collectSlot num qpcFreq trigger qpcNs src id).2.or (m.forwarded id) }

def handle : PhantomEvent K → PhantomModule K
  | .pose id qpcNs pose src => m.handlePose num qpcFreq id qpcNs pose src
  | .collect trigger qpcNs src => m.collectSilentPoseUpdates num qpcFreq trigger qpcNs src
  | .assignRole id hasRole =>
    { m with slots := Function.update m.slots id { m.slots id with hasRole := hasRole } }

def run (evs : List (PhantomEvent K)) : PhantomModule K := evs.foldl (handle num qpcFreq) m

end PhantomModule

end WKOpenVR.Phantom
