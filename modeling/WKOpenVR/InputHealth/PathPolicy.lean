import WKOpenVR.Text

/-!
# Which inputs are learned

A component of a device has a path, such as `/input/trigger/value`. Its path says of which
family it is (`classifyPathFamily`), and the family decides whether the component is
learned, as a scalar or as a button, and whether the driver may compensate it
(`PathPolicy.h`). Whatever is learned may be compensated, and no family is learned both as
a scalar and as a button.
-/

namespace WKOpenVR.InputHealth

open Text

/-- The bytes of a path. -/
abbrev Path := List UInt8

inductive PathFamily
  | triggerValue
  | thumbstickAxis
  | trackpadAxis
  | forceSensor
  | gripValue
  | fingerCapsense
  | controllerButton
  | diagnosticsOnly
  | unsupported
  deriving DecidableEq, Repr

variable (path : Path)

/-- The path contains the text (`find`). -/
def mentions (text : String) : Bool := (afterFirst (ascii text) path).isSome

def endsWithPathSegment (suffix : String) : Bool := (ascii suffix).isSuffixOf path

def hasClickOrTouchSuffix : Bool :=
  endsWithPathSegment path "/click" || endsWithPathSegment path "/touch" ||
    mentions path "/click/" || mentions path "/touch/"

def isAxisSuffix : Bool :=
  endsWithPathSegment path "/x" || endsWithPathSegment path "/X" ||
    endsWithPathSegment path "/y" || endsWithPathSegment path "/Y"

def classifyPathFamily : PathFamily :=
  if path.isEmpty then .unsupported
  else if mentions path "/eye" || mentions path "/face" then .diagnosticsOnly
  else if mentions path "/pupil" || mentions path "proximity" || mentions path "/imu" then
    .unsupported
  else if mentions path "/input/finger/" then .fingerCapsense
  else if hasClickOrTouchSuffix path then .controllerButton
  else if mentions path "trigger" || mentions path "Trigger" then .triggerValue
  else if mentions path "/input/grip/value" || mentions path "/input/squeeze/value" then .gripValue
  else if endsWithPathSegment path "/force" || endsWithPathSegment path "/pressure" then
    .forceSensor
  else if isAxisSuffix path && (mentions path "thumbstick" || mentions path "joystick") then
    .thumbstickAxis
  else if isAxisSuffix path && (mentions path "trackpad" || mentions path "touchpad") then
    .trackpadAxis
  else if mentions path "/input/" then .controllerButton
  else .unsupported

namespace PathFamily

variable (family : PathFamily)

def isTriggerRemapFamily : Bool := family == triggerValue

def isThumbstickAxisFamily : Bool := family == thumbstickAxis

def isIdleFloorFamily : Bool := family == forceSensor || family == gripValue

def allowsDriverCompensation : Bool :=
  family == triggerValue || family == thumbstickAxis || family == forceSensor ||
    family == gripValue || family == controllerButton

def allowsPersistentScalarLearning : Bool :=
  family == triggerValue || family == thumbstickAxis || family == forceSensor ||
    family == gripValue

def allowsPersistentBooleanLearning : Bool := family == controllerButton

end PathFamily

end WKOpenVR.InputHealth
