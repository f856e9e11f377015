import WKOpenVR.Driver.CompensationTable
import Mathlib.Data.List.AList

/-!
# The learning engine

The overlay's `LearningEngine` and the profiles it learns into (`LearningEngine.cpp`,
`Profiles.cpp`). A profile has a record for each path of a device that has been learned, and
a switch for the corrections of the device. The engine pushes to the driver what is learned,
and withdraws it when it is unlearned, when the corrections are switched off, or when it has
to be learned anew.

What the engine pushes is collected in the `outbox`, in order: it does not depend on how the
requests fare, all of whose failures are logged and dropped. `PushCompensation` makes no
request while the pipe is closed; this is left to the one who takes the requests out of the
outbox. A profile is saved to a file, which may fail. The content of the file is that of the
profile, and is not written again if it has not changed; so a save is a replacement.

A `std::unordered_map` is iterated in no particular order: the order is a parameter where it
matters. During a call of the engine the clocks are read once.
-/

namespace WKOpenVR.InputHealth

open FloatArith FloatMath Text

/-! ## Profiles -/

def CompensationKind.kindString : CompensationKind → String
  | stickX => "stick_x"
  | stickY => "stick_y"
  | boolean => "boolean"
  | scalarSingle => "scalar_single"

def CompensationKind.kindFromString (kind : String) : CompensationKind :=
  if kind = "stick_x" then .stickX
  else if kind = "stick_y" then .stickY
  else if kind = "boolean" then .boolean
  else .scalarSingle

structure LearnedPathRecord (K : Type*) where
  path : Path
  kind : String
  sampleCount : UInt64
  ready : Bool
  learned : Learned K
  lastUpdatedUnix : UInt64
  driftShiftResets : UInt32

/-- The fields of `DeviceProfile` that the engine uses. -/
structure DeviceProfile (K : Type*) where
  serialHash : UInt64
  correctionsEnabled : Bool := true
  learnedPaths : List (LearnedPathRecord K) := []

variable {K : Type*}

/-- What the engine knows of a component, as a record. -/
def PathState.record (state : PathState K) : LearnedPathRecord K where
  path := state.path
  kind := state.kind.kindString
  sampleCount := state.sampleCount
  ready := state.ready
  learned := state.learned
  lastUpdatedUnix := state.lastUpdatedUnix
  driftShiftResets := state.driftShiftResets

namespace DeviceProfile

variable (profile : DeviceProfile K) (path : Path)

def findRecord : Option (LearnedPathRecord K) :=
  profile.learnedPaths.find? (·.path = path)

/-- The first record of a path is replaced, or one is added at the end. -/
def setRecordIn (record : LearnedPathRecord K) :
    List (LearnedPathRecord K) → List (LearnedPathRecord K)
  | [] => [record]
  | r :: records =>
    if r.path = record.path then record :: records else r :: setRecordIn record records

def setRecord (record : LearnedPathRecord K) : DeviceProfile K :=
  { profile with learnedPaths := setRecordIn record profile.learnedPaths }

/-- The records of a path are erased. -/
def forgetPath : DeviceProfile K :=
  { profile with learnedPaths := profile.learnedPaths.filter (·.path ≠ path) }

end DeviceProfile

/-! ## The engine -/

/-- The clocks during a call of the engine, and the profiles that can be saved. -/
structure Instant where
  /-- `SteadyMicros`. -/
  nowUs : UInt64
  /-- `UnixSeconds`. -/
  unix : UInt64
  saves : UInt64 → Bool

/-- The entries of the snapshot, by handle. -/
abbrev Entries (K : Type*) := List (UInt64 × SnapshotBody K)

structure Engine (K : Type*) where
  /-- `ProfileStore::profiles_`. -/
  profiles : AList fun _ : UInt64 => DeviceProfile K
  /-- The profiles as they were last saved. -/
  files : UInt64 → Option (DeviceProfile K)
  /-- `states_`. The key text has a part of fixed length for the device. -/
  states : UInt64 × Path → Option (PathState K)
  restBurstActive : Bool
  /-- `device_button_quiet_until_us_`. -/
  buttonQuietUntilUs : UInt64 → Option UInt64
  /-- `device_last_periodic_save_us_`. -/
  lastPeriodicSaveUs : UInt64 → UInt64
  /-- The requests to the driver. -/
  outbox : List (CompensationEntry K)

namespace Engine

variable (e : Engine K)

/-- The profile of a device, which is created with default values (`GetOrCreate`). -/
def profile (serial : UInt64) : DeviceProfile K :=
  (e.profiles.lookup serial).getD { serialHash := serial }

def setProfile (serial : UInt64) (profile : DeviceProfile K) : Engine K :=
  { e with profiles := e.profiles.insert serial profile }

def setState (serial : UInt64) (path : Path) (state : PathState K) : Engine K :=
  { e with states := Function.update e.states (serial, path) (some state) }

def trySaveProfile (t : Instant) (profile : DeviceProfile K) : Bool × Engine K :=
  if profile.serialHash ≠ 0 ∧ t.saves profile.serialHash = true then
    (true, { e with files := Function.update e.files profile.serialHash (some profile) })
  else (false, e)

variable [FloatMath K] (path : Path)

def copyPath : List UInt8 :=
  (path.take (inputHealthPathLen - 1)).rightpad inputHealthPathLen 0

/-- The request for a component, unless the policy suppresses it. Nothing is enabled for a
    device with corrections switched off. -/
def compensation (serial : UInt64) (state : PathState K) (enabled : Bool) :
    Option (CompensationEntry K) :=
  if enabled && (!(classifyPathFamily state.path).allowsDriverCompensation ||
      (state.kind == .boolean && isSystemButtonPath state.path)) then none
  else
    some {
      deviceSerialHash := serial
      path := copyPath state.path
      kind := state.kind
      enabled := enabled && !(e.profiles.lookup serial).any (!·.correctionsEnabled)
      learnedRestOffset := toFloat state.learned.restOffset
      learnedTriggerMin := toFloat state.learned.triggerMin
      learnedTriggerMax := toFloat state.learned.triggerMax
      learnedDeadzoneRadius := toFloat state.learned.deadzoneRadius
      learnedDebounceUs := (min 65535 state.learned.debounceUs).toUInt16 }

def pushCompensation (serial : UInt64) (state : PathState K) (enabled : Bool) : Engine K :=
  { e with outbox := e.outbox ++ (e.compensation serial state enabled).toList }

def pushAll (serial : UInt64) (pushes : List (PathState K × Bool)) : Engine K :=
  pushes.foldl (fun e push => e.pushCompensation serial push.1 push.2) e

/-! ### Ticks -/

/-- `LearnedPathMaterialEqual`. -/
def materialEqual (a b : LearnedPathRecord K) : Bool :=
  a.path == b.path && a.kind == b.kind && a.ready == b.ready &&
    FloatArith.eq a.learned.restOffset b.learned.restOffset &&
    FloatArith.eq a.learned.stddev b.learned.stddev &&
    FloatArith.eq a.learned.triggerMin b.learned.triggerMin &&
    FloatArith.eq a.learned.triggerMax b.learned.triggerMax &&
    FloatArith.eq a.learned.deadzoneRadius b.learned.deadzoneRadius &&
    a.learned.debounceUs == b.learned.debounceUs && a.lastUpdatedUnix == b.lastUpdatedUnix &&
    a.driftShiftResets == b.driftShiftResets

/-- `SyncProfile`: the record is updated. A change is saved, but not more than once a minute
    unless it is immediate. -/
def syncProfile (t : Instant) (serial : UInt64) (state : PathState K) (immediate : Bool) :
    Engine K :=
  let old := (e.profile serial).findRecord state.path
  let materialChange := !old.any (materialEqual · state.record)
  let profile := (e.profile serial).setRecord state.record
  let lastDeviceSave := e.lastPeriodicSaveUs serial
  let e := e.setProfile serial profile
  if !immediate && !materialChange then e
  else if !immediate && decide (lastDeviceSave ≠ 0 ∧ t.nowUs - lastDeviceSave < 60000000) then e
  else
    let (saved, e) := e.trySaveProfile t profile
    if saved && !immediate then
      { e with lastPeriodicSaveUs := Function.update e.lastPeriodicSaveUs serial t.nowUs }
    else e

/-- What a record says of a component. -/
def restore (state : PathState K) (record : LearnedPathRecord K) : PathState K :=
  let stddev := record.learned.stddev
  { state with
    kind := .kindFromString record.kind
    sampleCount := record.sampleCount
    ready := record.ready
    learned := record.learned
    lastUpdatedUnix := record.lastUpdatedUnix
    driftShiftResets := record.driftShiftResets
    rest :=
      if 1 < record.sampleCount then
        ⟨record.sampleCount, record.learned.restOffset,
          stddev * stddev * ofNat (record.sampleCount - 1).toNat⟩
      else state.rest }

def stateFor (serial : UInt64) (path : Path) : PathState K × Engine K :=
  let state := (e.states (serial, path)).getD .initial
  if state.serialHash = 0 then
    let state := { state with serialHash := serial, path }
    let profile := e.profile serial
    let state := match profile.findRecord path with
      | some record => restore state record
      | none => state
    (state, (e.setProfile serial profile).setState serial path state)
  else (state, e)

/-- The state of a component is kept, and what it asks for is done. -/
def report (t : Instant) (serial : UInt64) (path : Path) (state : PathState K) : Report → Engine K
  | .quiet => e.setState serial path state
  | .sync immediate => (e.setState serial path state).syncProfile t serial state immediate
  | .push enabled immediate =>
    ((e.setState serial path state).syncProfile t serial state immediate).pushCompensation
      serial state enabled

/-- The first loop of `Tick`, for one entry. The state of a button is updated twice. -/
def tickBoolean (t : Instant) (b : SnapshotBody K) : Engine K :=
  let serial := b.deviceSerialHash
  let path := pathString b.path
  if !b.isBoolean || serial == 0 || path.isEmpty ||
      !(classifyPathFamily path).allowsPersistentBooleanLearning then e
  else
    let (state, e) := e.stateFor serial path
    let (state, bounce) := (state.withKind .boolean).observeBounce b t.unix
    let e := e.report t serial path state bounce
    let pressed := decide (state.lastPressCount < b.pressCount)
    let (state, press) := state.observePress b t.nowUs t.unix
    let e := e.report t serial path state press
    if pressed then
      { e with
        buttonQuietUntilUs :=
          Function.update e.buttonQuietUntilUs serial (some (t.nowUs + 500000)) }
    else e

/-- The text up to the last slash. -/
def dropSegment : Path :=
  if path.contains 47 then (path.reverse.dropWhile (· != 47)).tail.reverse else path

def inputStem : Path :=
  if endsWithPathSegment path "/value" then path.take (path.length - 6)
  else if endsWithPathSegment path "/force" then path.take (path.length - 6)
  else if endsWithPathSegment path "/pressure" then path.take (path.length - 9)
  else dropSegment path

def isPeerPathForStem (stem : Path) : Bool := !stem.isEmpty && (stem ++ [47]).isPrefixOf path

structure IdlePeerEvidence where
  peerPresent : Bool
  peerIdle : Bool

/-- `CheckIdleFloorPeers`: the buttons and sensors of the same input. -/
def checkIdleFloorPeers (entries : Entries K) (current : SnapshotBody K) (currentPath : Path) :
    IdlePeerEvidence :=
  let stem := inputStem currentPath
  entries.foldl (fun evidence entry =>
    let peer := entry.2
    let peerPath := pathString peer.path
    if peer.deviceSerialHash != current.deviceSerialHash || peerPath.isEmpty ||
        peerPath == currentPath || !isPeerPathForStem peerPath stem then evidence
    else if peer.isBoolean && (mentions peerPath "/click" || mentions peerPath "/touch") then
      ⟨true, evidence.peerIdle && !peer.lastBoolean⟩
    else if peer.isScalar && (classifyPathFamily peerPath).isIdleFloorFamily then
      ⟨true, evidence.peerIdle && !decide (lit 0.05 < fabs peer.lastValue)⟩
    else evidence) ⟨false, true⟩

/-- The second loop of `Tick`, for one entry. -/
def tickScalar (t : Instant) (entries : Entries K) (b : SnapshotBody K) : Engine K :=
  let serial := b.deviceSerialHash
  let path := pathString b.path
  let family := classifyPathFamily path
  let idlePeers := checkIdleFloorPeers entries b path
  if !b.isScalar || serial == 0 || path.isEmpty || !family.allowsPersistentScalarLearning ||
      (family.isIdleFloorFamily && !idlePeers.peerPresent) then e
  else
    let env : PathState.Surroundings K :=
      { restBurstActive := e.restBurstActive
        buttonsQuiet :=
          (e.buttonQuietUntilUs serial).all fun quietUntil => decide (quietUntil ≤ t.nowUs)
        partnerValue := (entries.lookup b.partnerHandle).map (·.lastValue)
        peerIdle := idlePeers.peerIdle }
    let (state, e) := e.stateFor serial path
    let (state, report) := state.observeScalar env family b t.nowUs t.unix
    e.report t serial path state report

def tick (t : Instant) (entries : Entries K) : Engine K :=
  let e := entries.foldl (fun e entry => e.tickBoolean t entry.2) e
  entries.foldl (fun e entry => e.tickScalar t entries entry.2) e

/-! ### Commands -/

/-- What is pushed of a record: its path, its kind and what is learned. -/
def recordState (serial : UInt64) (record : LearnedPathRecord K) : PathState K :=
  { PathState.initial with
    serialHash := serial
    path := record.path
    kind := .kindFromString record.kind
    ready := record.ready
    learned := record.learned }

/-- What is withdrawn of a record. -/
def clearState (serial : UInt64) (record : LearnedPathRecord K) : PathState K :=
  { PathState.initial with
    serialHash := serial
    path := record.path
    kind := .kindFromString record.kind }

/-- The records of a profile that are pushed, as ready ones. -/
def isPushed (record : LearnedPathRecord K) : Bool :=
  record.ready && (classifyPathFamily record.path).allowsDriverCompensation

def setDeviceCorrectionsEnabled (t : Instant) (serial : UInt64) (enabled : Bool) : Engine K :=
  let profile := e.profile serial
  if serial = 0 then e
  else if profile.correctionsEnabled = enabled then e.setProfile serial profile
  else
    let profile := { profile with correctionsEnabled := enabled }
    let e := ((e.setProfile serial profile).trySaveProfile t profile).2
    let records := profile.learnedPaths.filter fun record => !enabled || isPushed record
    e.pushAll profile.serialHash
      (records.map fun record => (recordState profile.serialHash record, enabled && record.ready))

/-- `PushReadyCompensations`, for the profile of one device. -/
def pushReadyProfile (serial : UInt64) : Engine K :=
  match e.profiles.lookup serial with
  | none => e
  | some profile =>
    if !profile.correctionsEnabled then e
    else
      e.pushAll profile.serialHash
        ((profile.learnedPaths.filter isPushed).map fun record =>
          (recordState profile.serialHash record, true))

/-- `PushReadyCompensations`, with the order in which the profiles are visited. -/
def pushReadyCompensations (order : List UInt64) : Engine K :=
  order.foldl (fun e serial => e.pushReadyProfile serial) e

def unlearnPath (t : Instant) (serial : UInt64) (path : Path) : Engine K :=
  if serial = 0 ∨ path = [] then e
  else
    let profile := e.profile serial
    let erased := profile.learnedPaths.filter (·.path = path)
    -- The kind of the last record that is erased.
    let kind :=
      erased.foldl (fun _ record => .kindFromString record.kind) CompensationKind.scalarSingle
    let profile := profile.forgetPath path
    let e := ((e.setProfile serial profile).trySaveProfile t profile).2
    let e := { e with states := Function.update e.states (serial, path) none }
    e.pushCompensation serial { PathState.initial with serialHash := serial, path, kind } false

def unlearnDevice (t : Instant) (serial : UInt64) : Engine K :=
  if serial = 0 then e
  else
    let profile := e.profile serial
    let e :=
      e.pushAll serial (profile.learnedPaths.map fun record => (clearState serial record, false))
    let profile := { profile with learnedPaths := [] }
    let e := ((e.setProfile serial profile).trySaveProfile t profile).2
    { e with states := fun key => (e.states key).filter (·.serialHash ≠ serial) }

end Engine

end WKOpenVR.InputHealth
