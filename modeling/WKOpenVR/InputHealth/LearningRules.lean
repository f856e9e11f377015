import WKOpenVR.FloatMath
import WKOpenVR.InputHealth.PathPolicy

/-!
# The rules of learning

When a component is at rest, and how the values it has at rest are accumulated
(`LearningRules.h`, `WelfordAccumulator.h`). Numbers are of a type `K` of which no law is
assumed; `float` and `double` literals are the values of rational numbers in it.
-/

namespace WKOpenVR.InputHealth

open FloatArith FloatMath

/-- `InputHealthCompensationKind`. -/
inductive CompensationKind
  | scalarSingle
  | stickX
  | stickY
  | boolean
  deriving DecidableEq, Repr

variable (kind : CompensationKind)

def CompensationKind.isStickKind : Bool :=
  kind == stickX || kind == stickY

/-! ## Metadata -/

/-- `kOpenVrScalarTypeAbsolute`. -/
def isAbsoluteScalar (scalarType : UInt8) : Bool := scalarType == 0

variable (scalarUnits : UInt8)

/-- `kOpenVrScalarUnitsNormalizedOneSided`. -/
def isOneSidedScalar : Bool := scalarUnits == 0

/-- `kOpenVrScalarUnitsNormalizedTwoSided`. -/
def isTwoSidedScalar : Bool := scalarUnits == 1

variable (path : Path)

def scalarMetadataAllowsCompensation (scalarType scalarUnits : UInt8) : Bool :=
  let family := classifyPathFamily path
  if !isAbsoluteScalar scalarType then false
  else if family.isTriggerRemapFamily || family.isIdleFloorFamily then
    kind == .scalarSingle && isOneSidedScalar scalarUnits
  else if family.isThumbstickAxisFamily then kind.isStickKind && isTwoSidedScalar scalarUnits
  else false

def scalarMetadataAllowsLearning (family : PathFamily) (path : Path) (kind : CompensationKind)
    (scalarType scalarUnits : UInt8) : Bool :=
  family.allowsPersistentScalarLearning &&
    scalarMetadataAllowsCompensation kind path scalarType scalarUnits

def isSystemButtonPath : Bool := mentions path "/input/system/"

/-! ## Buttons -/

def buttonBounceReadyTransitions : UInt64 := 3

/-- The debounce time for the longest bounce: a millisecond more, within bounds. -/
def debounceFromBounceInterval (intervalUs : UInt32) : UInt32 :=
  max 1000 (min 20000 (intervalUs + 1000))

variable {K : Type*} [FloatMath K]

/-! ## Rest -/

def isStrictStickRest (x y : K) (buttonsQuiet : Bool) : Bool :=
  buttonsQuiet && decide (fabs x < lit 0.05) && decide (fabs y < lit 0.05)

def isStableStickRestCandidate (x y : K) (buttonsQuiet : Bool) : Bool :=
  buttonsQuiet && decide (hypot x y ≤ lit 0.15)

variable (value : K)

def isStrictTriggerRest : Bool := decide (value < lit 0.05)

def isStableTriggerRestCandidate (buttonsQuiet : Bool) : Bool :=
  buttonsQuiet && decide (lit 0 ≤ value) && decide (value ≤ lit 0.10)

/-- The values of a component and its partner since `sinceUs`, by their extremes. -/
structure StableRestWindow (K : Type*) where
  active : Bool
  sinceUs : UInt64
  minPrimary : K
  maxPrimary : K
  minPartner : K
  maxPartner : K

namespace StableRestWindow

/-- `ResetStableRestWindow`. -/
def reset : StableRestWindow K := ⟨false, 0, lit 0, lit 0, lit 0, lit 0⟩

/-- The window that starts with these values. -/
def startAt (primary partner : K) (nowUs : UInt64) : StableRestWindow K :=
  ⟨true, nowUs, primary, primary, partner, partner⟩

variable (w : StableRestWindow K)

/-- The window with one more pair of values. -/
def widen (primary partner : K) : StableRestWindow K :=
  { w with
    minPrimary := FloatMath.min w.minPrimary primary
    maxPrimary := FloatArith.max w.maxPrimary primary
    minPartner := FloatMath.min w.minPartner partner
    maxPartner := FloatArith.max w.maxPartner partner }

def exceeds (maxSpan : K) : Bool :=
  decide (maxSpan < w.maxPrimary - w.minPrimary) || decide (maxSpan < w.maxPartner - w.minPartner)

variable (candidate : Bool)

/-- `UpdateStableRestWindow`: whether the values have been stable for long enough. -/
def update (primary partner : K) (nowUs : UInt64)
    (maxSpan : K) (minWindowUs : UInt64) : Bool × StableRestWindow K :=
  if !candidate then (false, reset)
  else if !w.active then (false, startAt primary partner nowUs)
  else if (w.widen primary partner).exceeds maxSpan then (false, startAt primary partner nowUs)
  else
    (decide (w.sinceUs ≤ nowUs) && decide (minWindowUs ≤ nowUs - w.sinceUs),
      w.widen primary partner)

/-- With the default `kStableRestSpanMax` and `kStableRestWindowUs`. -/
def observe (primary partner : K) (nowUs : UInt64) : Bool × StableRestWindow K :=
  w.update candidate primary partner nowUs (lit 0.010) 1000000

end StableRestWindow

/-! ## Mean and deviation -/

/-- `WelfordState`: `m2` is the sum of the squared distances from the running mean. -/
structure WelfordState (K : Type*) where
  count : UInt64
  mean : K
  m2 : K

namespace WelfordState

/-- `WelfordReset`. -/
def reset : WelfordState K := ⟨0, lit 0, lit 0⟩

variable (s : WelfordState K)

/-- `WelfordUpdate`. -/
def update (x : K) : WelfordState K :=
  let count := s.count + 1
  let delta := x - s.mean
  let mean := s.mean + delta / ofNat count.toNat
  ⟨count, mean, s.m2 + delta * (x - mean)⟩

def sampleVariance : K :=
  if s.count < 2 then lit 0 else s.m2 / ofNat (s.count - 1).toNat

def sampleStdDev : K := sqrt s.sampleVariance

end WelfordState

end WKOpenVR.InputHealth
