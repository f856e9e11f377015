import Mathlib.Algebra.Order.Ring.Rat

/-!
# Driver poses

A pose of a tracked device as the drivers hand it to SteamVR
(`vr::DriverPose_t`): the flags the modules branch on, and the kinematic part,
i.e., the floating-point fields (positions, rotations, velocities,
accelerations, the transforms from the driver and to the head, and the time
offset). The kinematic part is a type `K`: the computations of the modules on
it are numeric, and enter the models as functions on `K`.
-/

namespace WKOpenVR

/-- The tracking result of a pose (`vr::ETrackingResult`), `zeroed` being the
    value `0` of a zero-initialised pose, which is none of the named results. -/
inductive TrackingResult
  | zeroed
  | uninitialized
  | calibratingInProgress
  | calibratingOutOfRange
  | runningOK
  | runningOutOfRange
  | fallbackRotationOnly
  deriving DecidableEq, Repr

/-- A pose of a tracked device (`vr::DriverPose_t`), with kinematic part in `K`. -/
structure DriverPose (K : Type*) where
  kin : K
  result : TrackingResult
  poseIsValid : Bool
  willDriftInYaw : Bool
  shouldApplyHeadModel : Bool
  deviceIsConnected : Bool
  deriving DecidableEq, Repr

namespace DriverPose

variable {K : Type*}

/-- The zero-initialised pose, `DriverPose_t{}`. -/
instance [Inhabited K] : Inhabited (DriverPose K) :=
  ⟨⟨default, .zeroed, false, false, false, false⟩⟩

/-- The pose with its kinematic part mapped. -/
def map {L : Type*} (f : K → L) (p : DriverPose K) : DriverPose L :=
  ⟨f p.kin, p.result, p.poseIsValid, p.willDriftInYaw, p.shouldApplyHeadModel,
    p.deviceIsConnected⟩

/-- A healthy pose: connected, valid, and tracked. -/
def trackedOk (p : DriverPose K) : Bool :=
  p.poseIsValid && p.deviceIsConnected && p.result == .runningOK

/-- The healthy pose with kinematic part `k`. -/
def healthy (k : K) : DriverPose K where
  kin := k
  result := .runningOK
  poseIsValid := true
  willDriftInYaw := false
  shouldApplyHeadModel := false
  deviceIsConnected := true

end DriverPose

/-- The smoothstep curve `3x² - 2x³`, on the clamped fraction. -/
def smoothstep (x : ℚ) : ℚ :=
  let x := max 0 (min x 1)
  x * x * (3 - 2 * x)

end WKOpenVR
