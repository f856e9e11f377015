import WKOpenVR.Machine
import WKOpenVR.Phantom.Dropout
import WKOpenVR.Phantom.RoleInference

/-!
# The roles of the trackers

The phantom module keeps the body role of every tracker in its slot. A role comes from
three sources:

* an inference cycle (`maybeRunInference`), about once a second, infers the roles of the
  trackers that are live and have enough samples, and an arbiter decides for each of them
  whether its role is kept, adopted, replaced or dropped (`decideRole`);
* a snap (`runSnap`) gives roles from one static read of the positions;
* a request gives a role to the tracker with a serial (`setDeviceRole`).

The roles of the last two are *sticky*: they are kept by serial, and a returning device
has its role again. A manual role is never changed by the other two, and a role from a
snap only after several cycles that contradict it (`updateStickyOverride`).

Whether the roles are different is the subject of `WKOpenVR.Phantom.RoleUnique`.
-/

namespace WKOpenVR.Phantom

open Arith

/-! ## The arbiter -/

/-- What becomes of the role of a slot (`RoleAction`). -/
inductive RoleAction
  | keep | adopt | reassign | drop
  deriving DecidableEq

structure RoleArbiterParams (K : Type*) where
  adoptConf : K
  reassignMargin : K
  dropConf : K
  holdMs : ℕ

/-- A role that contradicts a sticky one, and for how many cycles. -/
structure StickyOverrideState where
  candidate : BodyRole
  streak : UInt8

def StickyOverrideState.fresh : StickyOverrideState := ⟨.none, 0⟩

variable {K : Type*} [Arith K]

def RoleArbiterParams.defaults : RoleArbiterParams K where
  adoptConf := toFloat (lit 0.60)
  reassignMargin := toFloat (lit 0.15)
  dropConf := toFloat (lit 0.30)
  holdMs := 1500

def decideRole (current : BodyRole) (userTagged : Bool) (inferred : BodyRole)
    (inferredConf currentRoleConf : K) (msSinceChange : ℕ) (params : RoleArbiterParams K) :
    RoleAction :=
  if userTagged then .keep
  else if current = .none then
    if inferred ≠ .none ∧ params.adoptConf ≤ inferredConf then .adopt else .keep
  else if msSinceChange < params.holdMs then .keep
  else if currentRoleConf < params.dropConf ∧
      (inferred = .none ∨ inferredConf < params.adoptConf) then .drop
  else if inferred ≠ .none ∧ inferred ≠ current ∧ params.adoptConf ≤ inferredConf ∧
      toFloat (currentRoleConf + params.reassignMargin) ≤ inferredConf then .reassign
  else .keep

/-- `UpdateStickyOverride`: whether the sticky role is to be replaced. -/
def updateStickyOverride (state : StickyOverrideState) (current inferred : BodyRole)
    (inferredConf currentFit : K) (params : RoleArbiterParams K) (extraMargin : K)
    (requiredStreak : UInt8) : Bool × StickyOverrideState :=
  if inferred ≠ .none ∧ current ≠ .none ∧ inferred ≠ current ∧
      toFloat (params.adoptConf + extraMargin) ≤ inferredConf ∧
      toFloat (currentFit + params.reassignMargin) ≤ inferredConf then
    let state : StickyOverrideState :=
      if state.candidate ≠ inferred then ⟨inferred, 1⟩
      else if state.streak < requiredStreak then { state with streak := state.streak + 1 }
      else state
    if state.streak < requiredStreak then (false, state) else (true, .fresh)
  else (false, .fresh)

/-- The default of `extra_margin`. -/
def stickyExtraMargin : K := toFloat (lit 0.15)

/-- The default of `required_streak`. -/
def stickyRequiredStreak : UInt8 := 5

/-! ## Slots -/

/-- What the module keeps of a device (`DeviceSlot`). -/
structure TrackerSlot (K : Type*) where
  /-- Whether the serial is known. -/
  resolved : Bool
  serialHash : UInt64
  /-- Whether the device is a generic tracker. -/
  isTracker : Bool
  role : BodyRole
  /-- The time of the last pose; 0 before the first one. -/
  lastObservedQpc : ℤ
  lastObservedValid : Bool
  lastObserved : Vec3 K
  inferAccum : RoleInferenceAccumulator K
  inferredRole : BodyRole
  inferredConfidence : K
  /-- Whether the role was inferred. -/
  inferredApplied : Bool
  /-- The time of the last change of the role; 0 before the first one. -/
  roleChangeQpc : ℤ
  stickyOverride : StickyOverrideState

def TrackerSlot.fresh : TrackerSlot K where
  resolved := false
  serialHash := 0
  isTracker := false
  role := .none
  lastObservedQpc := 0
  lastObservedValid := false
  lastObserved := ⟨lit 0, lit 0, lit 0⟩
  inferAccum := .fresh
  inferredRole := .none
  inferredConfidence := toFloat (lit 0)
  inferredApplied := false
  roleChangeQpc := 0
  stickyOverride := .fresh

structure RoleConfig (K : Type*) [Arith K] where
  qpcFreq : ℤ
  lostHoldMs : ℕ
  inferParams : InferenceParams K
  arbiterParams : RoleArbiterParams K
  sorter : Sorter K

def RoleConfig.lostHoldQpc (cfg : RoleConfig K) : ℤ := (cfg.lostHoldMs * cfg.qpcFreq).tdiv 1000

/-- The slots, and the roles kept by serial. -/
structure RoleState (n : ℕ) (K : Type*) where
  slots : Fin n → TrackerSlot K
  roleBySerialHash : UInt64 → Option BodyRole
  manualRoleHashes : UInt64 → Bool
  lastInferenceQpc : ℤ
  /-- The time of the last event. -/
  clock : ℤ

def RoleState.fresh (n : ℕ) (clock : ℤ) : RoleState n K where
  slots _ := .fresh
  roleBySerialHash _ := none
  manualRoleHashes _ := false
  lastInferenceQpc := 0
  clock := clock

variable {n : ℕ} (cfg : RoleConfig K) (now : ℤ) (st : RoleState n K) (s : TrackerSlot K)

/-- Whether a slot has a tracker that was seen not too long ago. -/
def isLive : Bool :=
  s.isTracker && s.resolved &&
    decide (¬(s.lastObservedQpc = 0 ∨ cfg.lostHoldQpc < now - s.lastObservedQpc))

/-- Whether the role of the slot is kept by serial. -/
def RoleState.sticky : Bool := (st.roleBySerialHash s.serialHash).isSome

/-- Whether the role of the slot was picked by hand. -/
def RoleState.manual : Bool := st.manualRoleHashes s.serialHash

/-! ## Poses -/

/-- `ResolveSerialIfMissing`, where the device has the given hash of its serial and is a
    tracker or not, if this can be read. -/
def resolveSerialIfMissing (props : Option (UInt64 × Bool)) (s : TrackerSlot K) : TrackerSlot K :=
  if s.resolved then s
  else
    match props with
    | none => s
    | some (serialHash, isTracker) =>
      { s with
        resolved := true
        serialHash
        isTracker
        role := (st.roleBySerialHash serialHash).getD s.role }

structure Observation (K : Type*) where
  /-- What the device says about itself. -/
  props : Option (UInt64 × Bool)
  /-- Whether the pose is tracked. -/
  valid : Bool
  pos : Vec3 K
  /-- The head, if it is known and not tilted too far. -/
  head : Option (Head K × HeadAxes K)

def accumulateInferenceSample (head : Option (Head K × HeadAxes K)) (s : TrackerSlot K) :
    TrackerSlot K :=
  match head with
  | some (head, axes) =>
    if s.isTracker && s.lastObservedValid then
      { s with inferAccum := s.inferAccum.addSample head axes s.lastObserved }
    else s
  | none => s

def observedSlot (o : Observation K) (s : TrackerSlot K) : TrackerSlot K :=
  accumulateInferenceSample o.head
    { resolveSerialIfMissing st o.props s with
      lastObservedQpc := now
      lastObservedValid := o.valid
      lastObserved := o.pos }

variable (i : Fin n)

/-- `RecordQuashedPose`: the pose of a hidden device is recorded only. -/
def recordQuashedPose (props : Option (UInt64 × Bool)) : RoleState n K :=
  { st with slots := Function.update st.slots i (resolveSerialIfMissing st props (st.slots i)) }

def onRealPoseObserved (o : Observation K) : RoleState n K :=
  { st with slots := Function.update st.slots i (observedSlot now st o (st.slots i)) }

/-! ## Inference cycles -/

/-- How well a tracker fits a role. -/
def RoleConfig.fit (f : TrackerMotionFeatures K) (role : BodyRole) : K :=
  roleFitConfidence f role inferenceCandidateRoles cfg.inferParams

/-- The features of a slot, if it takes part in a cycle. -/
def featuresOf : Option (TrackerMotionFeatures K) :=
  let minSamples :=
    if cfg.inferParams.minStaticSamples = 0 then 1 else cfg.inferParams.minStaticSamples
  let f := s.inferAccum.compute
  if isLive cfg now s && f.hasData && decide (¬f.sampleCount < minSamples) then some f else none

/-- The slots that take part in a cycle. -/
def selected : List (Fin n × TrackerMotionFeatures K) :=
  (List.finRange n).filterMap fun i => (featuresOf cfg now (st.slots i)).map (i, ·)

def inferred : List ((Fin n × TrackerMotionFeatures K) × RoleAssignment K) :=
  (selected cfg now st).zip (inferRoles cfg.sorter ((selected cfg now st).map (·.2))
    inferenceCandidateRoles cfg.inferParams)

/-- What a cycle does with the role of a slot for which the role `role` is inferred. -/
def slotAction (sticky manual : Bool) (s : TrackerSlot K) (f : TrackerMotionFeatures K)
    (role : BodyRole) (confidence : K) : RoleAction × StickyOverrideState :=
  if sticky then
    if manual || s.role = .none then (.keep, s.stickyOverride)
    else
      let r := updateStickyOverride s.stickyOverride s.role role confidence (cfg.fit f s.role)
        cfg.arbiterParams stickyExtraMargin stickyRequiredStreak
      (if r.1 then .reassign else .keep, r.2)
  else if s.role ≠ .none && !s.inferredApplied then (.keep, s.stickyOverride)
  else
    let currentFit := if s.role = .none then toFloat (lit 0) else cfg.fit f s.role
    let msSinceChange := if s.roleChangeQpc = 0 then 2 ^ 32 - 1
      else u32 (((now - s.roleChangeQpc) * 1000).tdiv cfg.qpcFreq)
    (decideRole s.role false role confidence currentFit msSinceChange cfg.arbiterParams,
      s.stickyOverride)

def TrackerSlot.release : TrackerSlot K :=
  { s with role := .none, inferredApplied := false, roleChangeQpc := now }

def TrackerSlot.apply (role : BodyRole) : RoleAction → TrackerSlot K
  | .keep => s
  | .adopt | .reassign => { s with role, inferredApplied := true, roleChangeQpc := now }
  | .drop => s.release now

/-- The slot after a cycle that infers a role for it. -/
def inferSlot (sticky manual : Bool) (s : TrackerSlot K) (f : TrackerMotionFeatures K)
    (a : RoleAssignment K) : TrackerSlot K :=
  let r := slotAction cfg now sticky manual s f a.role a.confidence
  TrackerSlot.apply now
    { s with
      inferredRole := a.role
      inferredConfidence := a.confidence
      inferAccum := s.inferAccum.decay (lit 0.8)
      stickyOverride := r.2 } a.role r.1

/-- One slot of a cycle. A sticky role that is replaced remains sticky. -/
def inferStep (x : (Fin n × TrackerMotionFeatures K) × RoleAssignment K) : RoleState n K :=
  let s := st.slots x.1.1
  let action := (slotAction cfg now (st.sticky s) (st.manual s) s x.1.2 x.2.role x.2.confidence).1
  { st with
    slots := Function.update st.slots x.1.1
      (inferSlot cfg now (st.sticky s) (st.manual s) s x.1.2 x.2)
    roleBySerialHash :=
      if st.sticky s && action = .reassign then
        Function.update st.roleBySerialHash s.serialHash (some x.2.role)
      else st.roleBySerialHash }

/-- The inferred roles of trackers that have gone away are freed. -/
def freeRemoved : RoleState n K :=
  { st with slots := fun i =>
      let s := st.slots i
      if s.inferredApplied && s.role ≠ .none && !st.sticky s && s.lastObservedQpc ≠ 0 &&
          cfg.lostHoldQpc < now - s.lastObservedQpc then s.release now
      else s }

def cycleDue : Bool :=
  0 < cfg.qpcFreq &&
    !(st.lastInferenceQpc ≠ 0 && now - st.lastInferenceQpc < cfg.qpcFreq)

def maybeRunInference : RoleState n K :=
  if cycleDue cfg now st then
    freeRemoved cfg now ((inferred cfg now st).foldl (inferStep cfg now)
      { st with lastInferenceQpc := now })
  else st

/-! ## Snaps and requests -/

def snapTrackers : List (Fin n × Vec3 K) :=
  (List.finRange n).filterMap fun i =>
    let s := st.slots i
    if s.isTracker && s.resolved && s.lastObservedValid then some (i, s.lastObserved) else none

variable (a : SnapAssignment (Fin n) K)

/-- The slot with the role that a snap gives it. -/
def snapSlot : TrackerSlot K :=
  { s with
    stickyOverride := .fresh
    role := a.role
    inferredRole := a.role
    inferredConfidence := a.confidence
    inferredApplied := true
    roleChangeQpc := now }

def snapStep : RoleState n K :=
  let s := st.slots a.id
  if a.role = .none ∨ st.manual s then st
  else
    { st with
      roleBySerialHash := Function.update st.roleBySerialHash s.serialHash (some a.role)
      slots := Function.update st.slots a.id (snapSlot now s a) }

/-- `RunSnapLocked`. -/
def runSnap (head : Head K) (axes : Option (HeadAxes K)) : RoleState n K :=
  let r := snapCalibrate cfg.sorter head axes (snapTrackers st) cfg.inferParams
  if r.ok then r.assignments.foldl (snapStep now) st else st

/-- `RequestSetPhantomDeviceRole`. -/
def setDeviceRole (serialHash : UInt64) (role : BodyRole) (manual : Bool) : RoleState n K :=
  { st with
    roleBySerialHash := Function.update st.roleBySerialHash serialHash
      (if role = .none then none else some role)
    manualRoleHashes := Function.update st.manualRoleHashes serialHash (role ≠ .none && manual)
    slots := fun i =>
      let s := st.slots i
      if s.serialHash = serialHash then { s with role, stickyOverride := .fresh } else s }

/-! ## Runs -/

inductive RoleEvent (n : ℕ) (K : Type*)
  /-- A pose of a device. -/
  | observe (i : Fin n) (now : ℤ) (o : Observation K)
  /-- A pose of a hidden device. -/
  | quashed (i : Fin n) (now : ℤ) (props : Option (UInt64 × Bool))
  /-- An inference cycle. -/
  | cycle (now : ℤ)
  /-- A snap, with the head as it is then. -/
  | snap (now : ℤ) (head : Head K) (axes : Option (HeadAxes K))
  /-- A request for the role of a device. -/
  | setDeviceRole (serialHash : UInt64) (role : BodyRole) (manual : Bool)

def RoleState.at (st : RoleState n K) : RoleState n K := { st with clock := now }

/-- The module, with its poses, cycles, snaps and requests in any order. -/
def roleMachine (n : ℕ) : Machine (RoleState n K) (RoleEvent n K) where
  init := {st | ∃ clock, st = .fresh n clock}
  step st
    | .observe i now o =>
      if st.clock ≤ now then some ((onRealPoseObserved now st i o).at now) else none
    | .quashed i now props =>
      if st.clock ≤ now then some ((recordQuashedPose st i props).at now) else none
    | .cycle now => if st.clock ≤ now then some ((maybeRunInference cfg now st).at now) else none
    | .snap now head axes =>
      if st.clock ≤ now then some ((runSnap cfg now st head axes).at now) else none
    | .setDeviceRole serialHash role manual => some (setDeviceRole st serialHash role manual)

end WKOpenVR.Phantom
