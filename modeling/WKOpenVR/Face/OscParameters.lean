import WKOpenVR.Face.AddressFilter
import WKOpenVR.FloatArith

/-!
# The parameters of a face frame

What the driver publishes of a face frame (`FaceOscPublisher.cpp`): the parameters of the
eyes, of the expressions by their old and by their new names, and those that are computed
from the upstream shapes. A parameter is the address it is published to, and its value.
`publishEye`, `publishExpressions` and `publishCurrentVrcft` list the parameters in the
order of the calls of `OscPublishFloat`.

The values are those of the code, on numbers `K` of which no law is assumed: they may be
the floats, with their rounding.
-/

namespace WKOpenVR.Face

open Text FloatArith

/-! ## Frames -/

/-- The expressions of the upstream runtime, in their order. -/
inductive UpstreamShape
  | eyeSquintRight | eyeSquintLeft | eyeWideRight | eyeWideLeft | browPinchRight | browPinchLeft
  | browLowererRight | browLowererLeft | browInnerUpRight | browInnerUpLeft | browOuterUpRight
  | browOuterUpLeft | nasalDilationRight | nasalDilationLeft | nasalConstrictRight
  | nasalConstrictLeft | cheekSquintRight | cheekSquintLeft | cheekPuffRight | cheekPuffLeft
  | cheekSuckRight | cheekSuckLeft | jawOpen | jawRight | jawLeft | jawForward | jawBackward
  | jawClench | jawMandibleRaise | mouthClosed | lipSuckUpperRight | lipSuckUpperLeft
  | lipSuckLowerRight | lipSuckLowerLeft | lipSuckCornerRight | lipSuckCornerLeft
  | lipFunnelUpperRight | lipFunnelUpperLeft | lipFunnelLowerRight | lipFunnelLowerLeft
  | lipPuckerUpperRight | lipPuckerUpperLeft | lipPuckerLowerRight | lipPuckerLowerLeft
  | mouthUpperUpRight | mouthUpperUpLeft | mouthUpperDeepenRight | mouthUpperDeepenLeft
  | noseSneerRight | noseSneerLeft | mouthLowerDownRight | mouthLowerDownLeft | mouthUpperRight
  | mouthUpperLeft | mouthLowerRight | mouthLowerLeft | mouthCornerPullRight
  | mouthCornerPullLeft | mouthCornerSlantRight | mouthCornerSlantLeft | mouthFrownRight
  | mouthFrownLeft | mouthStretchRight | mouthStretchLeft | mouthDimpleRight | mouthDimpleLeft
  | mouthRaiserUpper | mouthRaiserLower | mouthPressRight | mouthPressLeft | mouthTightenerRight
  | mouthTightenerLeft | tongueOut | tongueUp | tongueDown | tongueRight | tongueLeft
  | tongueRoll | tongueBendDown | tongueCurlUp | tongueSquish | tongueFlat | tongueTwistRight
  | tongueTwistLeft | softPalateClose | throatSwallow | neckFlexRight | neckFlexLeft
  deriving DecidableEq, Repr

/-- What is read of a frame. -/
structure Frame (K : Type*) where
  eyeGazeL : Fin 3 → K
  eyeGazeR : Fin 3 → K
  eyeOpennessL : K
  eyeOpennessR : K
  pupilDilationL : K
  pupilDilationR : K
  expressions : Fin 63 → K
  upstreamExpressions : UpstreamShape → K
  /-- Bit 0 for the data of the eyes, and bit 1 for the expressions. -/
  flags : UInt32

def upstreamExpressionNames : List (UpstreamShape × String) :=
  [(.eyeSquintRight, "EyeSquintRight"), (.eyeSquintLeft, "EyeSquintLeft"),
   (.eyeWideRight, "EyeWideRight"), (.eyeWideLeft, "EyeWideLeft"),
   (.browPinchRight, "BrowPinchRight"), (.browPinchLeft, "BrowPinchLeft"),
   (.browLowererRight, "BrowLowererRight"), (.browLowererLeft, "BrowLowererLeft"),
   (.browInnerUpRight, "BrowInnerUpRight"), (.browInnerUpLeft, "BrowInnerUpLeft"),
   (.browOuterUpRight, "BrowOuterUpRight"), (.browOuterUpLeft, "BrowOuterUpLeft"),
   (.nasalDilationRight, "NasalDilationRight"), (.nasalDilationLeft, "NasalDilationLeft"),
   (.nasalConstrictRight, "NasalConstrictRight"), (.nasalConstrictLeft, "NasalConstrictLeft"),
   (.cheekSquintRight, "CheekSquintRight"), (.cheekSquintLeft, "CheekSquintLeft"),
   (.cheekPuffRight, "CheekPuffRight"), (.cheekPuffLeft, "CheekPuffLeft"),
   (.cheekSuckRight, "CheekSuckRight"), (.cheekSuckLeft, "CheekSuckLeft"), (.jawOpen, "JawOpen"),
   (.jawRight, "JawRight"), (.jawLeft, "JawLeft"), (.jawForward, "JawForward"),
   (.jawBackward, "JawBackward"), (.jawClench, "JawClench"),
   (.jawMandibleRaise, "JawMandibleRaise"), (.mouthClosed, "MouthClosed"),
   (.lipSuckUpperRight, "LipSuckUpperRight"), (.lipSuckUpperLeft, "LipSuckUpperLeft"),
   (.lipSuckLowerRight, "LipSuckLowerRight"), (.lipSuckLowerLeft, "LipSuckLowerLeft"),
   (.lipSuckCornerRight, "LipSuckCornerRight"), (.lipSuckCornerLeft, "LipSuckCornerLeft"),
   (.lipFunnelUpperRight, "LipFunnelUpperRight"), (.lipFunnelUpperLeft, "LipFunnelUpperLeft"),
   (.lipFunnelLowerRight, "LipFunnelLowerRight"), (.lipFunnelLowerLeft, "LipFunnelLowerLeft"),
   (.lipPuckerUpperRight, "LipPuckerUpperRight"), (.lipPuckerUpperLeft, "LipPuckerUpperLeft"),
   (.lipPuckerLowerRight, "LipPuckerLowerRight"), (.lipPuckerLowerLeft, "LipPuckerLowerLeft"),
   (.mouthUpperUpRight, "MouthUpperUpRight"), (.mouthUpperUpLeft, "MouthUpperUpLeft"),
   (.mouthUpperDeepenRight, "MouthUpperDeepenRight"),
   (.mouthUpperDeepenLeft, "MouthUpperDeepenLeft"), (.noseSneerRight, "NoseSneerRight"),
   (.noseSneerLeft, "NoseSneerLeft"), (.mouthLowerDownRight, "MouthLowerDownRight"),
   (.mouthLowerDownLeft, "MouthLowerDownLeft"), (.mouthUpperRight, "MouthUpperRight"),
   (.mouthUpperLeft, "MouthUpperLeft"), (.mouthLowerRight, "MouthLowerRight"),
   (.mouthLowerLeft, "MouthLowerLeft"), (.mouthCornerPullRight, "MouthCornerPullRight"),
   (.mouthCornerPullLeft, "MouthCornerPullLeft"),
   (.mouthCornerSlantRight, "MouthCornerSlantRight"),
   (.mouthCornerSlantLeft, "MouthCornerSlantLeft"), (.mouthFrownRight, "MouthFrownRight"),
   (.mouthFrownLeft, "MouthFrownLeft"), (.mouthStretchRight, "MouthStretchRight"),
   (.mouthStretchLeft, "MouthStretchLeft"), (.mouthDimpleRight, "MouthDimpleRight"),
   (.mouthDimpleLeft, "MouthDimpleLeft"), (.mouthRaiserUpper, "MouthRaiserUpper"),
   (.mouthRaiserLower, "MouthRaiserLower"), (.mouthPressRight, "MouthPressRight"),
   (.mouthPressLeft, "MouthPressLeft"), (.mouthTightenerRight, "MouthTightenerRight"),
   (.mouthTightenerLeft, "MouthTightenerLeft"), (.tongueOut, "TongueOut"),
   (.tongueUp, "TongueUp"), (.tongueDown, "TongueDown"), (.tongueRight, "TongueRight"),
   (.tongueLeft, "TongueLeft"), (.tongueRoll, "TongueRoll"), (.tongueBendDown, "TongueBendDown"),
   (.tongueCurlUp, "TongueCurlUp"), (.tongueSquish, "TongueSquish"), (.tongueFlat, "TongueFlat"),
   (.tongueTwistRight, "TongueTwistRight"), (.tongueTwistLeft, "TongueTwistLeft"),
   (.softPalateClose, "SoftPalateClose"), (.throatSwallow, "ThroatSwallow"),
   (.neckFlexRight, "NeckFlexRight"), (.neckFlexLeft, "NeckFlexLeft")]

def expressionNames : List String :=
  ["EyeLookOutLeft", "EyeLookInLeft", "EyeLookUpLeft", "EyeLookDownLeft", "EyeLookOutRight",
   "EyeLookInRight", "EyeLookUpRight", "EyeLookDownRight", "EyeWideLeft", "EyeWideRight",
   "EyeSquintLeft", "EyeSquintRight", "BrowLowererLeft", "BrowLowererRight", "BrowInnerUpLeft",
   "BrowInnerUpRight", "BrowOuterUpLeft", "BrowOuterUpRight", "BrowPinchLeft", "BrowPinchRight",
   "CheekPuffLeft", "CheekPuffRight", "CheekSuckLeft", "CheekSuckRight", "NoseSneerLeft",
   "NoseSneerRight", "JawOpen", "JawForward", "JawLeft", "JawRight", "LipSuckUpperLeft",
   "LipSuckUpperRight", "LipSuckLowerLeft", "LipSuckLowerRight", "LipFunnelUpperLeft",
   "LipFunnelUpperRight", "LipFunnelLowerLeft", "LipFunnelLowerRight", "LipPuckerUpperLeft",
   "LipPuckerUpperRight", "MouthClose", "MouthUpperLeft", "MouthUpperRight", "MouthLowerLeft",
   "MouthLowerRight", "MouthSmileLeft", "MouthSmileRight", "MouthSadLeft", "MouthSadRight",
   "MouthStretchLeft", "MouthStretchRight", "MouthDimpleLeft", "MouthDimpleRight",
   "MouthRaiserUpper", "MouthRaiserLower", "MouthPressLeft", "MouthPressRight",
   "MouthTightenerLeft", "MouthTightenerRight", "TongueOut", "TongueUp", "TongueDown",
   "TongueLeft"]

/-- The later name of an expression, where it was renamed. -/
def upstreamAlias : ℕ → Option String
  | 40 => some "MouthClosed"
  | 45 => some "MouthCornerPullLeft"
  | 46 => some "MouthCornerPullRight"
  | 47 => some "MouthFrownLeft"
  | 48 => some "MouthFrownRight"
  | _ => none

/-! ## Values -/

section

variable {K : Type*} [FloatArith K] (frame : Frame K) (v : K)

def isInvalidUpstreamSignal : Bool := !isFinite v || decide (lit 1000000 ≤ v)

def clampExpressionOutputSignal : K :=
  if isInvalidUpstreamSignal v then lit 0 else clamp v (lit 0) (lit 1)

def signedUnitOrZero : K :=
  if isInvalidUpstreamSignal v then lit 0 else clamp v (lit (-1)) (lit 1)

def upstream (shape : UpstreamShape) : K :=
  clampExpressionOutputSignal (frame.upstreamExpressions shape)

def avg2 (a b : K) : K := (a + b) * lit 0.5

def browUpRight : K :=
  upstream frame .browOuterUpRight * lit 0.6 + upstream frame .browInnerUpRight * lit 0.4

def browUpLeft : K :=
  upstream frame .browOuterUpLeft * lit 0.6 + upstream frame .browInnerUpLeft * lit 0.4

def browDownRight : K :=
  upstream frame .browLowererRight * lit 0.75 + upstream frame .browPinchRight * lit 0.25

def browDownLeft : K :=
  upstream frame .browLowererLeft * lit 0.75 + upstream frame .browPinchLeft * lit 0.25

def mouthSmileRight : K :=
  upstream frame .mouthCornerPullRight * lit 0.8 + upstream frame .mouthCornerSlantRight * lit 0.2

def mouthSmileLeft : K :=
  upstream frame .mouthCornerPullLeft * lit 0.8 + upstream frame .mouthCornerSlantLeft * lit 0.2

def mouthSadRight : K :=
  max (upstream frame .mouthFrownRight) (upstream frame .mouthStretchRight)

def mouthSadLeft : K := max (upstream frame .mouthFrownLeft) (upstream frame .mouthStretchLeft)

/-! ## Parameters -/

def v2Prefix : Address := ascii "/avatar/parameters/v2/"

variable (name : String) (value : K)

/-- An address does not exceed the buffer it is written to, of 96 bytes. -/
def publishFtV2Float : List (Address × K) :=
  let address := v2Prefix ++ ascii name
  if 96 ≤ address.length then [] else [(address, signedUnitOrZero value)]

/-- The two addresses do not exceed the buffers they are written to, of 64 bytes. -/
def emitBoth : List (Address × K) :=
  if 64 < avatarPrefix.length + (ascii name).length + 1 then []
  else if 64 < v2Prefix.length + (ascii name).length + 1 then []
  else [(avatarPrefix ++ ascii name, value), (v2Prefix ++ ascii name, value)]

def publishEye : List (Address × K) :=
  let gxL := signedUnitOrZero (frame.eyeGazeL 0)
  let gyL := signedUnitOrZero (frame.eyeGazeL 1)
  let gxR := signedUnitOrZero (frame.eyeGazeR 0)
  let gyR := signedUnitOrZero (frame.eyeGazeR 1)
  let openL := clampExpressionOutputSignal frame.eyeOpennessL
  let openR := clampExpressionOutputSignal frame.eyeOpennessR
  let pupil := clampExpressionOutputSignal
    ((clampExpressionOutputSignal frame.pupilDilationL +
      clampExpressionOutputSignal frame.pupilDilationR) * lit 0.5)
  [(ascii "/avatar/parameters/LeftEyeX", gxL),
   (ascii "/avatar/parameters/LeftEyeY", gyL),
   (ascii "/avatar/parameters/RightEyeX", gxR),
   (ascii "/avatar/parameters/RightEyeY", gyR),
   (ascii "/avatar/parameters/LeftEyeLid", openL),
   (ascii "/avatar/parameters/RightEyeLid", openR),
   (ascii "/avatar/parameters/EyesDilation", pupil),
   (ascii "/avatar/parameters/v2/EyeLeftX", gxL),
   (ascii "/avatar/parameters/v2/EyeLeftY", gyL),
   (ascii "/avatar/parameters/v2/EyeRightX", gxR),
   (ascii "/avatar/parameters/v2/EyeRightY", gyR),
   (ascii "/avatar/parameters/v2/EyeOpenLeft", openL),
   (ascii "/avatar/parameters/v2/EyeOpenRight", openR),
   (ascii "/avatar/parameters/v2/PupilDilation", pupil)]

/-- An expression is published by its own name and by its later one. -/
def publishExpressions : List (Address × K) :=
  (List.finRange 63).flatMap fun i =>
    let value := clampExpressionOutputSignal (frame.expressions i)
    emitBoth (expressionNames.getD i "") value ++
      match upstreamAlias i with
      | some name => emitBoth name value
      | none => []

def publishCurrentVrcft : List (Address × K) :=
  let u := upstream frame
  let gxL := signedUnitOrZero (frame.eyeGazeL 0)
  let gyL := signedUnitOrZero (frame.eyeGazeL 1)
  let gxR := signedUnitOrZero (frame.eyeGazeR 0)
  let gyR := signedUnitOrZero (frame.eyeGazeR 1)
  let openL := clampExpressionOutputSignal frame.eyeOpennessL
  let openR := clampExpressionOutputSignal frame.eyeOpennessR
  let pupilL := clampExpressionOutputSignal frame.pupilDilationL
  let pupilR := clampExpressionOutputSignal frame.pupilDilationR
  let pupil := avg2 pupilL pupilR
  let browUpRight := browUpRight frame
  let browUpLeft := browUpLeft frame
  let browDownRight := browDownRight frame
  let browDownLeft := browDownLeft frame
  let browExpressionRight := max (u .browInnerUpRight) (u .browOuterUpRight) - browDownRight
  let browExpressionLeft := max (u .browInnerUpLeft) (u .browOuterUpLeft) - browDownLeft
  let lipSuckUpper := avg2 (u .lipSuckUpperRight) (u .lipSuckUpperLeft)
  let lipSuckLower := avg2 (u .lipSuckLowerRight) (u .lipSuckLowerLeft)
  let lipFunnelUpper := avg2 (u .lipFunnelUpperRight) (u .lipFunnelUpperLeft)
  let lipFunnelLower := avg2 (u .lipFunnelLowerRight) (u .lipFunnelLowerLeft)
  let lipPuckerUpper := avg2 (u .lipPuckerUpperRight) (u .lipPuckerUpperLeft)
  let lipPuckerLower := avg2 (u .lipPuckerLowerRight) (u .lipPuckerLowerLeft)
  let mouthUpperUp := avg2 (u .mouthUpperUpRight) (u .mouthUpperUpLeft)
  let mouthLowerDown := avg2 (u .mouthLowerDownRight) (u .mouthLowerDownLeft)
  let mouthStretch := avg2 (u .mouthStretchRight) (u .mouthStretchLeft)
  let mouthTightener := avg2 (u .mouthTightenerRight) (u .mouthTightenerLeft)
  let smileRight := mouthSmileRight frame
  let smileLeft := mouthSmileLeft frame
  let sadRight := mouthSadRight frame
  let sadLeft := mouthSadLeft frame
  let computed : List (String × K) :=
    [("EyeX", avg2 gxL gxR),
     ("EyeY", avg2 gyL gyR),
     ("EyeLeftX", gxL),
     ("EyeLeftY", gyL),
     ("EyeRightX", gxR),
     ("EyeRightY", gyR),
     ("PupilDilation", pupil),
     ("PupilDiameterLeft", pupilL),
     ("PupilDiameterRight", pupilR),
     ("PupilDiameter", pupil),
     ("EyeOpenLeft", openL),
     ("EyeOpenRight", openR),
     ("EyeOpen", avg2 openL openR),
     ("EyeClosedLeft", lit 1 - openL),
     ("EyeClosedRight", lit 1 - openR),
     ("EyeClosed", lit 1 - avg2 openL openR),
     ("EyeLidLeft", openL * lit 0.75 + u .eyeWideLeft * lit 0.25),
     ("EyeLidRight", openR * lit 0.75 + u .eyeWideRight * lit 0.25),
     ("EyeLid", avg2 openL openR * lit 0.75 + avg2 (u .eyeWideLeft) (u .eyeWideRight) * lit 0.25),
     ("EyeWide", max (u .eyeWideLeft) (u .eyeWideRight)),
     ("EyeSquint", max (u .eyeSquintLeft) (u .eyeSquintRight)),
     ("EyesSquint", max (u .eyeSquintLeft) (u .eyeSquintRight)),
     ("BrowUpRight", browUpRight),
     ("BrowUpLeft", browUpLeft),
     ("BrowDownRight", browDownRight),
     ("BrowDownLeft", browDownLeft),
     ("BrowUp", avg2 browUpRight browUpLeft),
     ("BrowDown", avg2 browDownRight browDownLeft),
     ("BrowInnerUp", avg2 (u .browInnerUpLeft) (u .browInnerUpRight)),
     ("BrowOuterUp", avg2 (u .browOuterUpLeft) (u .browOuterUpRight)),
     ("BrowExpressionRight", browExpressionRight),
     ("BrowExpressionLeft", browExpressionLeft),
     ("BrowExpression", avg2 browExpressionRight browExpressionLeft),
     ("JawX", u .jawRight - u .jawLeft),
     ("JawZ", u .jawForward - u .jawBackward),
     ("CheekSquint", avg2 (u .cheekSquintLeft) (u .cheekSquintRight)),
     ("CheekPuffSuckLeft", u .cheekPuffLeft - u .cheekSuckLeft),
     ("CheekPuffSuckRight", u .cheekPuffRight - u .cheekSuckRight),
     ("CheekPuffSuck", avg2 (u .cheekPuffLeft)
        (u .cheekPuffRight) - avg2 (u .cheekSuckLeft) (u .cheekSuckRight)),
     ("CheekSuck", avg2 (u .cheekSuckLeft) (u .cheekSuckRight)),
     ("MouthUpperX", u .mouthUpperRight - u .mouthUpperLeft),
     ("MouthLowerX", u .mouthLowerRight - u .mouthLowerLeft),
     ("MouthX", avg2 (u .mouthUpperRight)
        (u .mouthLowerRight) - avg2 (u .mouthUpperLeft) (u .mouthLowerLeft)),
     ("LipSuckUpper", lipSuckUpper),
     ("LipSuckLower", lipSuckLower),
     ("LipSuck", avg2 lipSuckUpper lipSuckLower),
     ("LipFunnelUpper", lipFunnelUpper),
     ("LipFunnelLower", lipFunnelLower),
     ("LipFunnel", avg2 lipFunnelUpper lipFunnelLower),
     ("LipPuckerUpper", lipPuckerUpper),
     ("LipPuckerLower", lipPuckerLower),
     ("LipPuckerRight", avg2 (u .lipPuckerUpperRight) (u .lipPuckerLowerRight)),
     ("LipPuckerLeft", avg2 (u .lipPuckerUpperLeft) (u .lipPuckerLowerLeft)),
     ("LipPucker", avg2 lipPuckerUpper lipPuckerLower),
     ("LipSuckFunnelUpper", lipSuckUpper - lipFunnelUpper),
     ("LipSuckFunnelLower", lipSuckLower - lipFunnelLower),
     ("LipSuckFunnelLowerLeft", u .lipSuckLowerLeft - u .lipFunnelLowerLeft),
     ("LipSuckFunnelLowerRight", u .lipSuckLowerRight - u .lipFunnelLowerRight),
     ("LipSuckFunnelUpperLeft", u .lipSuckUpperLeft - u .lipFunnelUpperLeft),
     ("LipSuckFunnelUpperRight", u .lipSuckUpperRight - u .lipFunnelUpperRight),
     ("MouthUpperUp", mouthUpperUp),
     ("MouthLowerDown", mouthLowerDown),
     ("MouthOpen", avg2 mouthUpperUp mouthLowerDown),
     ("MouthStretch", mouthStretch),
     ("MouthTightener", mouthTightener),
     ("MouthPress", avg2 (u .mouthPressRight) (u .mouthPressLeft)),
     ("MouthDimple", avg2 (u .mouthDimpleRight) (u .mouthDimpleLeft)),
     ("NoseSneer", avg2 (u .noseSneerRight) (u .noseSneerLeft)),
     ("MouthTightenerStretch", mouthTightener - mouthStretch),
     ("MouthTightenerStretchLeft", u .mouthTightenerLeft - u .mouthStretchLeft),
     ("MouthTightenerStretchRight", u .mouthTightenerRight - u .mouthStretchRight),
     ("MouthCornerYLeft", u .mouthCornerSlantLeft - u .mouthFrownLeft),
     ("MouthCornerYRight", u .mouthCornerSlantRight - u .mouthFrownRight),
     ("MouthCornerY", avg2 (u .mouthCornerSlantLeft - u .mouthFrownLeft)
        (u .mouthCornerSlantRight - u .mouthFrownRight)),
     ("MouthSmileRight", smileRight),
     ("MouthSmileLeft", smileLeft),
     ("MouthSadRight", sadRight),
     ("MouthSadLeft", sadLeft),
     ("SmileFrownRight", smileRight - u .mouthFrownRight),
     ("SmileFrownLeft", smileLeft - u .mouthFrownLeft),
     ("SmileFrown", avg2 smileRight smileLeft - avg2 (u .mouthFrownRight) (u .mouthFrownLeft)),
     ("SmileSadRight", smileRight - sadRight),
     ("SmileSadLeft", smileLeft - sadLeft),
     ("SmileSad", avg2 smileRight smileLeft - avg2 sadRight sadLeft),
     ("TongueX", u .tongueRight - u .tongueLeft),
     ("TongueY", u .tongueUp - u .tongueDown),
     ("TongueArchY", u .tongueCurlUp - u .tongueBendDown),
     ("TongueShape", u .tongueFlat - u .tongueSquish)]
  (upstreamExpressionNames.flatMap fun (shape, name) => publishFtV2Float name (u shape)) ++
    computed.flatMap fun (name, value) => publishFtV2Float name value

end

end WKOpenVR.Face
