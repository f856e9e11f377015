import WKOpenVR.Pose

/-!
# The dropout ladder

The per-device state machine of the phantom module (`DropoutState`): while a
tracker is silent, the ladder escalates from the real pose (`real`) through a
blend (`blendOut`) and synthesised poses (`synthReckon`, `synthIk`) to an
out-of-range result (`outOfRange`) and to no pose at all (`lost`); a healthy
pose brings it back through `blendIn`.

Times are readings of the performance counter, 64-bit integers, and the
timings are in milliseconds; the conversion (`qpcMs`) is 64-bit, too.
-/

namespace WKOpenVR.Phantom

/-- The states of the ladder (`TrackerState`). -/
inductive TrackerState
  | real
  | blendOut
  | synthReckon
  | synthIk
  | synthMl
  | blendIn
  | outOfRange
  | lost
  deriving DecidableEq, Repr

/-- The timings of the ladder, in milliseconds (`LadderTimings`). -/
structure LadderTimings where
  dropoutSilenceMs : ℕ
  blendOutMs : ℕ
  blendInMs : ℕ
  reckonHoldMs : ℕ
  synthHoldMs : ℕ
  lostHoldMs : ℕ
  deriving DecidableEq, Repr

/-- The default timings (`LadderTimings::Defaults`). -/
def LadderTimings.defaults : LadderTimings where
  dropoutSilenceMs := 40
  blendOutMs := 80
  blendInMs := 150
  reckonHoldMs := 250
  synthHoldMs := 2000
  lostHoldMs := 5000

/-- Two's complement 64-bit arithmetic: the value an `int64_t` operation
    leaves, for the exact result `x`. -/
def i64 (x : ℤ) : ℤ := x.bmod (2 ^ 64)

/-- The value an unsigned 32-bit conversion leaves. -/
def u32 (x : ℤ) : ℕ := (x % 2 ^ 32).toNat

/-- The ticks `dtNs` of the performance counter in milliseconds (`QpcMs`). -/
def qpcMs (dtNs qpcFreq : ℤ) : ℤ :=
  if qpcFreq ≤ 0 ∨ dtNs ≤ 0 then 0 else (i64 (dtNs * 1000)).tdiv qpcFreq

/-- The ladder of a device (`DropoutState`). -/
structure DropoutState (K : Type*) where
  timings : LadderTimings
  state : TrackerState
  ikAvailable : Bool
  /-- The last healthy pose; `-1` before the first one. -/
  lastRealQpcNs : ℤ
  /-- The start of the dropout; `-1` outside of one. -/
  dropoutStartQpcNs : ℤ
  /-- The start of the blend back; `-1` outside of one. -/
  blendInStartQpcNs : ℤ
  dropoutAnchor : DriverPose K
  lastRealPose : DriverPose K
  dropoutCount : ℕ
  longestDropoutMs : ℕ
  deriving DecidableEq, Repr

namespace DropoutState

variable {K : Type*}

def fresh [Inhabited K] (t : LadderTimings) : DropoutState K where
  timings := t
  state := .real
  ikAvailable := false
  lastRealQpcNs := -1
  dropoutStartQpcNs := -1
  blendInStartQpcNs := -1
  dropoutAnchor := default
  lastRealPose := default
  dropoutCount := 0
  longestDropoutMs := 0

variable (s : DropoutState K)

def setTimings (t : LadderTimings) : DropoutState K := { s with timings := t }

def setIkAvailable (v : Bool) : DropoutState K := { s with ikAvailable := v }

variable (qpcNs : ℤ)

/-- `OnRealPoseObserved`: a healthy pose resets the silence, and starts the
    blend back from any state of a dropout. Other poses are ignored. -/
def onRealPoseObserved (observed : DriverPose K) : DropoutState K :=
  if observed.result = .runningOK ∧ observed.poseIsValid ∧ observed.deviceIsConnected then
    let s := { s with lastRealQpcNs := qpcNs, lastRealPose := observed }
    if s.state = .outOfRange ∨ s.state = .lost ∨ s.state = .synthReckon ∨ s.state = .synthIk ∨
        s.state = .synthMl then
      { s with state := .blendIn, blendInStartQpcNs := qpcNs }
    else if s.state = .blendOut then
      { s with state := .blendIn, blendInStartQpcNs := qpcNs }
    else s
  else s

/-! ## Tick

`Tick` runs three blocks one after the other: the detection of a silence, the
escalation of a dropout by its age, and the end of the blend back. -/

variable (qpcFreq : ℤ)

/-- The milliseconds since the last healthy pose. -/
def silenceMs : ℤ :=
  if s.lastRealQpcNs < 0 then 0 else qpcMs (i64 (qpcNs - s.lastRealQpcNs)) qpcFreq

/-- A silence in `real` starts a dropout, at the last healthy pose. -/
def detectSilence : DropoutState K :=
  if s.state = .real ∧ 0 ≤ s.lastRealQpcNs ∧
      (s.timings.dropoutSilenceMs : ℤ) ≤ s.silenceMs qpcNs qpcFreq then
    { s with
      state := .blendOut
      dropoutStartQpcNs := s.lastRealQpcNs
      dropoutAnchor := s.lastRealPose
      dropoutCount := s.dropoutCount + 1 }
  else s

/-- A dropout of the age `ageMs` goes up the ladder, one rung after the other. -/
def escalateTo (ageMs : ℤ) : DropoutState K :=
  let s := if s.state = .blendOut ∧ (s.timings.blendOutMs : ℤ) ≤ ageMs then
    { s with state := .synthReckon } else s
  let s := if s.state = .synthReckon ∧ s.ikAvailable ∧ (s.timings.reckonHoldMs : ℤ) ≤ ageMs then
    { s with state := .synthIk } else s
  let s := if (s.timings.synthHoldMs : ℤ) ≤ ageMs ∧ s.state ≠ .outOfRange ∧ s.state ≠ .lost then
    { s with state := .outOfRange } else s
  if (s.timings.lostHoldMs : ℤ) ≤ ageMs ∧ s.state ≠ .lost then
    { s with state := .lost, longestDropoutMs := max s.longestDropoutMs (u32 ageMs) }
  else s

/-- The escalation, which the states `real` and `blendIn` do not take part in. -/
def escalate : DropoutState K :=
  if 0 ≤ s.dropoutStartQpcNs ∧ s.state ≠ .real ∧ s.state ≠ .blendIn then
    s.escalateTo (qpcMs (i64 (qpcNs - s.dropoutStartQpcNs)) qpcFreq)
  else s

/-- The blend back ends in `real` once its window has elapsed. -/
def finishBlendIn : DropoutState K :=
  if s.state = .blendIn ∧ 0 ≤ s.blendInStartQpcNs then
    if (s.timings.blendInMs : ℤ) ≤ qpcMs (i64 (qpcNs - s.blendInStartQpcNs)) qpcFreq then
      { s with
        state := .real
        longestDropoutMs :=
          if 0 ≤ s.dropoutStartQpcNs then
            max s.longestDropoutMs (u32 (max 0
              (qpcMs (i64 (s.blendInStartQpcNs - s.dropoutStartQpcNs)) qpcFreq)))
          else s.longestDropoutMs
        dropoutStartQpcNs := -1
        blendInStartQpcNs := -1 }
    else s
  else s

/-- `Tick`: the state after the elapsed time. -/
def tick : DropoutState K :=
  ((s.detectSilence qpcNs qpcFreq).escalate qpcNs qpcFreq).finishBlendIn qpcNs qpcFreq

/-! ## What a ladder publishes -/

/-- `should_publish`: not in `lost`. -/
def shouldPublish : Bool := s.state != .lost

/-- `tracking_result_override`: out of range in `outOfRange`, healthy otherwise. -/
def trackingResultOverride : TrackingResult :=
  if s.state = .outOfRange then .runningOutOfRange else .runningOK

/-- `blend_alpha`: the fraction of a blend, on the clamped elapsed time. -/
def blendAlpha : ℚ :=
  if s.state = .blendOut ∧ 0 ≤ s.dropoutStartQpcNs then
    max 0 (min (qpcMs (i64 (qpcNs - s.dropoutStartQpcNs)) qpcFreq / max 1 s.timings.blendOutMs) 1)
  else if s.state = .blendIn ∧ 0 ≤ s.blendInStartQpcNs then
    max 0 (min (qpcMs (i64 (qpcNs - s.blendInStartQpcNs)) qpcFreq / max 1 s.timings.blendInMs) 1)
  else 0

end DropoutState

end WKOpenVR.Phantom
