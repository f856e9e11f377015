import WKOpenVR.FloatArith
import WKOpenVR.Text
import WKOpenVR.Ipc.SendQueue

/-!
# The payloads of the profile

What the overlay sends to the driver to apply a calibration: the transform of a device,
the fallback of a tracking system, and the speed of the alignment (`ProtocolPayloads.h`).
Payloads are compared exactly, but for their translation and rotation, which have a
deadband (`TransformPayloadCompare.h`).

The numbers are of a type `K` of which no law is assumed: a translation that is not a
number is not near itself.
-/

namespace WKOpenVR.Calibration.ProfileApply

open Text FloatArith Ipc.SendQueue

/-! ## Names -/

/-- The name of a tracking system, or a serial: the bytes of a `std::string`. -/
abbrev Name := List UInt8

def maxTrackingSystemNameLen : ℕ := 32

/-- A name in the field of a payload: cut to leave a NUL at the end, and padded with NULs. -/
def nameField (name : Name) : List UInt8 :=
  (name.take (maxTrackingSystemNameLen - 1)).rightpad maxTrackingSystemNameLen 0

/-- What the driver reads of the field, up to the first NUL. -/
def readName (field : List UInt8) : Name := field.takeWhile (· != 0)

/-- The name is shorter than the field, and has no NUL in it. -/
def Readable (name : Name) : Prop := name.length < maxTrackingSystemNameLen ∧ 0 ∉ name

instance (name : Name) : Decidable (Readable name) := inferInstanceAs (Decidable (_ ∧ _))

theorem readName_nameField {name : Name} (h : Readable name) :
    readName (nameField name) = name := by
  obtain ⟨hlength, hnul⟩ := h
  obtain ⟨n, hn⟩ : ∃ n, maxTrackingSystemNameLen - name.length = n + 1 :=
    Nat.exists_eq_add_one.2 (Nat.sub_pos_of_lt hlength)
  have hfield : nameField name = name ++ 0 :: List.replicate n 0 := by
    rw [nameField, List.take_of_length_le (by omega), List.rightpad, hn, List.replicate_succ]
  rw [readName, hfield, takeWhile_ne_append, takeWhile_ne_of_not_mem hnul]

/-! ## Transforms -/

/-- `vr::HmdVector3d_t`. -/
structure Vec3 (K : Type*) where
  x : K
  y : K
  z : K

/-- `vr::HmdQuaternion_t`. -/
structure Quat (K : Type*) where
  w : K
  x : K
  y : K
  z : K

variable {K : Type*} [FloatArith K]

/-- A translation in centimetres, in metres (`VRTranslationVec`). -/
def Vec3.inMetres (v : Vec3 K) : Vec3 K := ⟨v.x * lit 0.01, v.y * lit 0.01, v.z * lit 0.01⟩

def Vec3.zero : Vec3 K := ⟨lit 0, lit 0, lit 0⟩

def Quat.identity : Quat K := ⟨lit 1, lit 0, lit 0, lit 0⟩

/-- `TranslationNearEqual`, up to `kTransformNearEqualMeters`. -/
def translationNearEqual (a b : Vec3 K) : Bool :=
  let dx := a.x - b.x
  let dy := a.y - b.y
  let dz := a.z - b.z
  decide (dx * dx + dy * dy + dz * dz ≤ lit 1e-4 * lit 1e-4)

/-- `RotationNearEqual`, up to `kTransformNearEqualRotDotEps`. -/
def rotationNearEqual (a b : Quat K) : Bool :=
  let dot := a.w * b.w + a.x * b.x + a.y * b.y + a.z * b.z
  decide (lit 1 - fabs dot ≤ lit 2e-8)

/-! ## Payloads -/

structure SetDeviceTransform (K : Type*) where
  openVRID : ℕ
  enabled : Bool
  updateTranslation : Bool := true
  updateRotation : Bool := true
  updateScale : Bool := true
  translation : Vec3 K
  rotation : Quat K
  scale : K
  lerp : Bool := false
  quash : Bool := false
  updateQuash : Bool := false
  targetSystem : List UInt8
  predictionSmoothness : UInt8 := 0
  recalibrateOnMovement : Bool := false
  reanchor : Bool := false

structure SetTrackingSystemFallback (K : Type*) where
  systemName : List UInt8
  enabled : Bool
  translation : Vec3 K
  rotation : Quat K
  scale : K
  predictionSmoothness : UInt8 := 0
  recalibrateOnMovement : Bool := false

/-- The requests of the profile. The parameters of the alignment are compared, and kept,
    as bytes. -/
inductive Request (K : Type*)
  | setAlignmentSpeedParams (params : List UInt8)
  | setDeviceTransform (payload : SetDeviceTransform K)
  | setTrackingSystemFallback (payload : SetTrackingSystemFallback K)

def transformPayloadNearEqual (a b : SetDeviceTransform K) : Bool :=
  a.openVRID == b.openVRID && a.enabled == b.enabled &&
    a.updateTranslation == b.updateTranslation && a.updateRotation == b.updateRotation &&
    a.updateScale == b.updateScale && a.lerp == b.lerp && a.reanchor == b.reanchor &&
    a.quash == b.quash && a.updateQuash == b.updateQuash &&
    a.predictionSmoothness == b.predictionSmoothness &&
    a.recalibrateOnMovement == b.recalibrateOnMovement && FloatArith.eq a.scale b.scale &&
    a.targetSystem == b.targetSystem && translationNearEqual a.translation b.translation &&
    rotationNearEqual a.rotation b.rotation

def fallbackPayloadNearEqual (a b : SetTrackingSystemFallback K) : Bool :=
  a.systemName == b.systemName && a.enabled == b.enabled &&
    a.predictionSmoothness == b.predictionSmoothness &&
    a.recalibrateOnMovement == b.recalibrateOnMovement && FloatArith.eq a.scale b.scale &&
    translationNearEqual a.translation b.translation && rotationNearEqual a.rotation b.rotation

/-- The numbers of a transform are near themselves: none of them is not a number, and the
    rotation is of length one. -/
def nearItself (translation : Vec3 K) (rotation : Quat K) (scale : K) : Bool :=
  FloatArith.eq scale scale && translationNearEqual translation translation &&
    rotationNearEqual rotation rotation

/-- A payload is near itself if its numbers are. -/
theorem transformPayloadNearEqual_self {p : SetDeviceTransform K}
    (h : nearItself p.translation p.rotation p.scale = true) :
    transformPayloadNearEqual p p = true := by
  simp only [nearItself, Bool.and_eq_true] at h
  simp [transformPayloadNearEqual, h]

/-! ## Keys -/

def deviceKey (id : ℕ) : String := ofBytes (ascii "d" ++ decimal id)

def fallbackKey (system : Name) : String := ofBytes (ascii "f" ++ system)

def alignmentKey : String := ofBytes (ascii "c-align")

theorem deviceKey_inj {id id' : ℕ} : deviceKey id = deviceKey id' ↔ id = id' := by
  refine ⟨fun h => ?_, fun h => h ▸ rfl⟩
  have hdecimal : decimal id = decimal id' := List.append_cancel_left (ofBytes_inj.1 h)
  rw [← digitsValue_decimal id, hdecimal, digitsValue_decimal]

theorem fallbackKey_ne_deviceKey (system : Name) (id : ℕ) : fallbackKey system ≠ deviceKey id := by
  intro h
  have hbytes := ofBytes_inj.1 h
  simp [ascii] at hbytes

theorem alignmentKey_ne_deviceKey (id : ℕ) : alignmentKey ≠ deviceKey id := by
  intro h
  have hbytes := ofBytes_inj.1 h
  simp [ascii] at hbytes

end WKOpenVR.Calibration.ProfileApply
