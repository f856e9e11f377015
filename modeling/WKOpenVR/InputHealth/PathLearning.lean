import WKOpenVR.InputHealth.LearningRules

/-!
# Learning a path

What the overlay knows of one component of a device (`PathState`), and what it makes of a
sample of it, as the loops of `LearningEngine::Tick` do for each component.

* A button is learned from its bounces (`observeBounce`), or from the times between many
  presses (`observePress`).
* A scalar is learned at rest: a sample at rest (`detectRest`) is accumulated
  (`accumulate`). The component is ready once there are enough samples and they deviate
  little (`checkReady`). A component that was ready and has drifted for ten seconds is
  learned anew (`checkDrift`).

A sample asks for the profile to be synchronized, and for the compensation to be pushed to
the driver, or withdrawn (`Report`). `Becomes` says what this has to do with the component
being ready: readiness changes with a push of the new value only.
-/

namespace WKOpenVR.InputHealth

open FloatArith FloatMath

/-- What has been learned of a component. -/
structure Learned (K : Type*) where
  restOffset : K
  stddev : K
  triggerMin : K
  triggerMax : K
  deadzoneRadius : K
  debounceUs : UInt32

/-- `PathState`. The credit is in halves. -/
structure PathState (K : Type*) where
  serialHash : UInt64
  path : Path
  kind : CompensationKind
  rest : WelfordState K
  restCredit : ℕ
  triggerPeak : K
  shortMean : K
  shortMeanInitialized : Bool
  lastPressCount : UInt64
  lastPressTimeUs : UInt64
  interPressUs : List UInt64
  stableRest : StableRestWindow K
  sampleCount : UInt64
  ready : Bool
  driftShiftPending : Bool
  driftExceededSinceUs : UInt64
  driftCooldownUntilUs : UInt64
  learned : Learned K
  lastUpdatedUnix : UInt64
  driftShiftResets : UInt32

/-- The fields of `InputHealthSnapshotBody` that are used to learn. -/
structure SnapshotBody (K : Type*) where
  deviceSerialHash : UInt64
  partnerHandle : UInt64
  /-- The buffer of `INPUTHEALTH_PATH_LEN` characters. -/
  path : List UInt8
  isScalar : Bool
  isBoolean : Bool
  axisRole : UInt8
  scalarType : UInt8
  scalarUnits : UInt8
  lastBoolean : Bool
  lastValue : K
  pressCount : UInt64
  bounceTransitionCount : UInt64
  bounceMaxIntervalUs : UInt32
  scalarRangeInitialized : Bool
  observedMax : K

def inputHealthPathLen : ℕ := 64

/-- The text in a buffer for paths (`PathFromBody`, and `InputHealthPathString` of the driver). -/
def pathString (buffer : List UInt8) : Path := (buffer.take inputHealthPathLen).takeWhile (· != 0)

namespace SnapshotBody

variable {K : Type*} (b : SnapshotBody K)

/-- `KindForBody`. -/
def kind : CompensationKind :=
  if b.isBoolean then .boolean
  else if b.axisRole = 1 then .stickX
  else if b.axisRole = 2 then .stickY
  else .scalarSingle

end SnapshotBody

def readyThreshold (kind : CompensationKind) : UInt64 := if kind = .boolean then 500 else 1024

def isTriggerKind (kind : CompensationKind) (family : PathFamily) : Bool :=
  kind == .scalarSingle && family.isTriggerRemapFamily

/-- What a sample asks for: nothing, `SyncProfile`, or `SyncProfile` and `PushCompensation`. -/
inductive Report
  | quiet
  | sync (immediate : Bool)
  | push (enabled immediate : Bool)
  deriving DecidableEq, Repr

namespace PathState

variable {K : Type*}

/-- After a report, the same component is learned, and it is ready as it was before, or as
    it was pushed. -/
structure Becomes (before after : PathState K) (report : Report) : Prop where
  serialHash : after.serialHash = before.serialHash
  path : after.path = before.path
  ready : match report with
    | .quiet | .sync _ => after.ready = before.ready
    | .push enabled _ => after.ready = enabled

section

variable {a b c : PathState K} {report : Report}

theorem Becomes.refl (a : PathState K) : a.Becomes a .quiet := ⟨rfl, rfl, rfl⟩

theorem Becomes.trans (hab : a.Becomes b .quiet) (hbc : b.Becomes c report) :
    a.Becomes c report := by
  refine ⟨hbc.serialHash.trans hab.serialHash, hbc.path.trans hab.path, ?_⟩
  rcases report with _ | _ | _
  · exact hbc.ready.trans hab.ready
  · exact hbc.ready.trans hab.ready
  · exact hbc.ready

end

def initial [FloatMath K] : PathState K where
  serialHash := 0
  path := []
  kind := .scalarSingle
  rest := .reset
  restCredit := 0
  triggerPeak := lit 0
  shortMean := lit 0
  shortMeanInitialized := false
  lastPressCount := 0
  lastPressTimeUs := 0
  interPressUs := []
  stableRest := .reset
  sampleCount := 0
  ready := false
  driftShiftPending := false
  driftExceededSinceUs := 0
  driftCooldownUntilUs := 0
  learned := ⟨lit 0, lit 0, lit 0, lit 0, lit 0, 0⟩
  lastUpdatedUnix := 0
  driftShiftResets := 0

variable (state : PathState K)

/-- The kind of a component is set anew at each sample. -/
def withKind (kind : CompensationKind) : PathState K := { state with kind }

theorem becomes_withKind (kind : CompensationKind) :
    state.Becomes (state.withKind kind) .quiet := ⟨rfl, rfl, rfl⟩

/-! ## Buttons -/

section Button

variable (state : PathState K) (b : SnapshotBody K) (nowUs unix : UInt64)

/-- A button that bounces is debounced, for longer if it turns out to bounce longer. -/
def observeBounce : PathState K × Report :=
  if !isSystemButtonPath state.path &&
      decide (buttonBounceReadyTransitions ≤ b.bounceTransitionCount) &&
      decide (0 < b.bounceMaxIntervalUs) then
    let learned := debounceFromBounceInterval b.bounceMaxIntervalUs
    if !state.ready || decide (state.learned.debounceUs < learned) then
      ({ state with
          learned := { state.learned with debounceUs := learned }
          ready := true
          lastUpdatedUnix := unix
          sampleCount := max state.sampleCount (max b.pressCount b.bounceTransitionCount) },
        .push true true)
    else (state, .quiet)
  else (state, .quiet)

/-- The times between presses, of which the last 1024 are kept. -/
def notePress : PathState K :=
  { state with
    interPressUs :=
      if state.lastPressTimeUs ≠ 0 then
        (if 1024 ≤ state.interPressUs.length then state.interPressUs.tail
          else state.interPressUs) ++ [nowUs - state.lastPressTimeUs]
      else state.interPressUs
    lastPressTimeUs := nowUs
    lastPressCount := b.pressCount
    sampleCount := max state.sampleCount b.pressCount }

/-- The first percentile of the times, within bounds. There are at most 1024 of them, for
    which `(size - 1) * 0.01` is rounded down to the quotient. -/
def learnedDebounce (times : List UInt64) : UInt32 :=
  let samples := times.mergeSort fun t u => decide (t ≤ u)
  (max 1000 (min 20000 (samples.getD ((samples.length - 1) / 100) 0))).toUInt32

/-- A button is ready after enough presses. -/
def observePress : PathState K × Report :=
  if state.lastPressCount < b.pressCount then
    let state := state.notePress b nowUs
    if !state.ready && decide (readyThreshold state.kind ≤ state.sampleCount) &&
        !state.interPressUs.isEmpty then
      ({ state with
          learned := { state.learned with debounceUs := learnedDebounce state.interPressUs }
          ready := true
          lastUpdatedUnix := unix },
        .push true true)
    else (state, .sync false)
  else (state, .quiet)

theorem becomes_observeBounce :
    state.Becomes (state.observeBounce b unix).1 (state.observeBounce b unix).2 := by
  rw [observeBounce]
  dsimp only
  split_ifs
  · exact ⟨rfl, rfl, rfl⟩
  · exact .refl state
  · exact .refl state

theorem becomes_notePress : state.Becomes (state.notePress b nowUs) .quiet := ⟨rfl, rfl, rfl⟩

theorem becomes_observePress :
    state.Becomes (state.observePress b nowUs unix).1 (state.observePress b nowUs unix).2 := by
  have hnote := state.becomes_notePress b nowUs
  rw [observePress]
  dsimp only
  split_ifs
  · exact hnote.trans ⟨rfl, rfl, rfl⟩
  · exact hnote.trans ⟨rfl, rfl, rfl⟩
  · exact .refl state

end Button

/-! ## Scalars -/

variable [FloatMath K]

/-- What is known of the device when a scalar is observed. -/
structure Surroundings (K : Type*) where
  /-- `rest_burst_active_`: samples count fully. -/
  restBurstActive : Bool
  buttonsQuiet : Bool
  /-- The value of the partner axis, if there is one. -/
  partnerValue : Option K
  /-- No other component of the same input is in use. -/
  peerIdle : Bool

section Scalar

variable (state : PathState K) (env : Surroundings K) (family : PathFamily) (b : SnapshotBody K)
  (nowUs unix : UInt64)

/-- The largest value of a trigger. -/
def raisePeak : PathState K :=
  if isTriggerKind state.kind family then
    let peak := FloatArith.max state.triggerPeak b.lastValue
    { state with
      triggerPeak := if b.scalarRangeInitialized then FloatArith.max peak b.observedMax else peak }
  else state

variable (candidate : Bool) (partner : K)

/-- The stable rest of the component, with what candidates there are for it. -/
def observeWindow : Bool × PathState K :=
  let (stable, window) := state.stableRest.observe candidate b.lastValue partner nowUs
  (stable, { state with stableRest := window })

/-- Whether the component is at rest. -/
def detectRest : Bool × PathState K :=
  if family.isThumbstickAxisFamily && state.kind.isStickKind then
    match env.partnerValue with
    | some partner =>
      let strictRest := isStrictStickRest b.lastValue partner env.buttonsQuiet
      let (stableRest, state) := state.observeWindow b nowUs
        (isStableStickRestCandidate b.lastValue partner env.buttonsQuiet) partner
      (strictRest || stableRest, state)
    | none => (false, { state with stableRest := .reset })
  else if isTriggerKind state.kind family || family.isIdleFloorFamily then
    let strictRest := isStrictTriggerRest b.lastValue
    let (stableRest, state) := state.observeWindow b nowUs
      (isStableTriggerRestCandidate b.lastValue
        (env.buttonsQuiet && (!family.isIdleFloorFamily || env.peerIdle))) (lit 0)
    (if family.isIdleFloorFamily then stableRest && env.peerIdle else strictRest || stableRest,
      state)
  else (decide (fabs b.lastValue < lit 0.05) && env.buttonsQuiet, state)

/-- A sample at rest is accumulated once its credit is full: a sample has a credit of a
    half, or of one in a burst. -/
def accumulate : PathState K :=
  let credit := state.restCredit + if env.restBurstActive then 2 else 1
  let rest := (fun s : WelfordState K => s.update b.lastValue)^[credit / 2] state.rest
  { state with
    rest
    restCredit := credit % 2
    sampleCount := rest.count
    shortMean :=
      if state.shortMeanInitialized then
        state.shortMean + lit 0.05 * (b.lastValue - state.shortMean)
      else b.lastValue
    shortMeanInitialized := true }

/-- A component that has drifted is learned anew. -/
def relearn : PathState K :=
  { state with
    ready := false
    driftShiftPending := true
    driftExceededSinceUs := 0
    driftCooldownUntilUs := nowUs + 60000000
    driftShiftResets := state.driftShiftResets + 1
    sampleCount := 0
    restCredit := 0
    rest := .reset
    shortMeanInitialized := false
    learned := ⟨lit 0, lit 0, lit 0, lit 0, lit 0, 0⟩
    lastUpdatedUnix := unix }

/-- Of a component that is ready, the short mean is compared with what was learned. -/
def checkDrift : PathState K × Report :=
  let gate := lit 3 * FloatArith.max (lit 0.001) state.learned.stddev
  if state.driftCooldownUntilUs ≤ nowUs ∧
      gate < fabs (state.shortMean - state.learned.restOffset) then
    let since := if state.driftExceededSinceUs = 0 then nowUs else state.driftExceededSinceUs
    if 10000000 ≤ nowUs - since then (state.relearn nowUs unix, .push false true)
    else ({ state with driftExceededSinceUs := since }, .quiet)
  else ({ state with driftExceededSinceUs := 0, driftShiftPending := false }, .quiet)

def clampDouble (value lo hi : K) : K := FloatArith.max lo (FloatMath.min value hi)

/-- What is learned from the samples at rest. -/
def learn (stddev : K) : Learned K :=
  let learned := { state.learned with restOffset := state.rest.mean, stddev }
  let learned :=
    if isTriggerKind state.kind family then
      { learned with
        triggerMin := clampDouble state.rest.mean (lit 0) (lit 0.10)
        triggerMax := if lit 0.10 < state.triggerPeak then state.triggerPeak else lit 1 }
    else if family.isIdleFloorFamily then
      { learned with
        restOffset := clampDouble state.rest.mean (lit 0) (lit 0.05)
        triggerMin := lit 0
        triggerMax := lit 0
        deadzoneRadius := lit 0 }
    else learned
  if family.isThumbstickAxisFamily && state.kind.isStickKind then
    { learned with deadzoneRadius := clampDouble (stddev * lit 3) (lit 0.01) (lit 0.08) }
  else learned

/-- A component is ready once it has enough samples, which deviate little. This is only
    asked of a component that is not ready, so that the profile is saved immediately. -/
def checkReady : PathState K × Report :=
  let stddev := state.rest.sampleStdDev
  let limit : K := if isTriggerKind state.kind family then lit 0.05 else lit 0.02
  if readyThreshold state.kind ≤ state.rest.count ∧ stddev < limit then
    ({ state with
        ready := true
        driftShiftPending := false
        learned := state.learn family stddev
        lastUpdatedUnix := unix },
      .push true !state.ready)
  else (state, .sync false)

def observeScalar : PathState K × Report :=
  let state := state.withKind b.kind
  if !scalarMetadataAllowsLearning family state.path state.kind b.scalarType b.scalarUnits then
    (state, .quiet)
  else
    let (rest, state) := (state.raisePeak family b).detectRest env family b nowUs
    if !rest then (state, .quiet)
    else
      let state := state.accumulate env b
      if state.ready then state.checkDrift nowUs unix else state.checkReady family unix

theorem becomes_raisePeak : state.Becomes (state.raisePeak family b) .quiet := by
  rw [raisePeak]
  split_ifs
  · exact ⟨rfl, rfl, rfl⟩
  · exact ⟨rfl, rfl, rfl⟩
  · exact .refl state

theorem becomes_observeWindow :
    state.Becomes (state.observeWindow b nowUs candidate partner).2 .quiet := ⟨rfl, rfl, rfl⟩

theorem becomes_detectRest : state.Becomes (state.detectRest env family b nowUs).2 .quiet := by
  rw [detectRest]
  dsimp only
  split_ifs
  · rcases env.partnerValue with _ | partner
    · exact ⟨rfl, rfl, rfl⟩
    · exact state.becomes_observeWindow b nowUs _ partner
  · exact state.becomes_observeWindow b nowUs _ _
  · exact state.becomes_observeWindow b nowUs _ _
  · exact .refl state

theorem becomes_accumulate : state.Becomes (state.accumulate env b) .quiet := ⟨rfl, rfl, rfl⟩

theorem becomes_checkDrift :
    state.Becomes (state.checkDrift nowUs unix).1 (state.checkDrift nowUs unix).2 := by
  rw [checkDrift]
  dsimp only
  split_ifs <;> exact ⟨rfl, rfl, rfl⟩

theorem becomes_checkReady :
    state.Becomes (state.checkReady family unix).1 (state.checkReady family unix).2 := by
  rw [checkReady]
  split_ifs <;> exact ⟨rfl, rfl, rfl⟩

theorem becomes_observeScalar :
    state.Becomes (state.observeScalar env family b nowUs unix).1
      (state.observeScalar env family b nowUs unix).2 := by
  have hkind := state.becomes_withKind b.kind
  have hrest := (hkind.trans (becomes_raisePeak _ family b)).trans
    (becomes_detectRest _ env family b nowUs)
  have hsample := hrest.trans (becomes_accumulate _ env b)
  rw [observeScalar]
  dsimp only
  split_ifs
  · exact hkind
  · exact hrest
  · exact hsample.trans (becomes_checkDrift _ nowUs unix)
  · exact hsample.trans (becomes_checkReady _ family unix)

end Scalar

end PathState

end WKOpenVR.InputHealth
