import WKOpenVR.Machine
import WKOpenVR.Safety.Markers

/-!
# The launch of the driver

At a launch, the markers of each enabled module are assessed (`applySafetyGate`); then,
if a single module was found to crash again and again outside of any operation, it is
disabled as well (`applyRepeatedActiveOnlyBackoff`).

The driver is a machine whose sessions may end at any point, also between two operations
on files. Beside the files, its state keeps what is left to be done of the last call, and
what happened to each module (`Record`), which the code does not know: where its last
session is, or was when the driver ended, and how often it crashed outside of any
operation. In runs in which no call is cut off, the files tell as much of it as is needed
(`Consistent`), so that it can be said exactly when a launch disables a module
(`launch_disables_iff`). A launch that is cut off may leave a module disabled and with the
markers of the crash (`cut_launch_keeps_markers`).
-/

namespace WKOpenVR.Safety

open Text List

/-! ## The gates -/

/-- The files of all modules. -/
abbrev Store := ModuleId → Files

structure SafetyGateResult where
  module : ModuleId
  enabled : Bool
  assessment : LaunchAssessment
  deriving DecidableEq

variable (m : ModuleId) (f : Files)

/-- `ApplySafetyGate`, for a module that is enabled. -/
def applySafetyGate : SafetyGateResult × Files :=
  let (assessment, f) := assessLaunch m false f
  ({ module := m, enabled := f.autoDisabled.isNone, assessment }, f)

def applySafetyGates : List ModuleId → Store → List SafetyGateResult × Store
  | [], s => ([], s)
  | m :: ms, s =>
    let (gate, f) := applySafetyGate m (s m)
    let (gates, s) := applySafetyGates ms (Function.update s m f)
    (gate :: gates, s)

/-- Whether a module crashed again and again outside of any operation. -/
def SafetyGateResult.isCandidate (gate : SafetyGateResult) : Bool :=
  gate.enabled && gate.assessment.hadStaleActive && !gate.assessment.hadStaleSuspect &&
    !gate.assessment.autoDisabled &&
    decide (activeOnlyAutoDisableThreshold ≤ gate.assessment.activeUncleanCount)

variable (gates : List SafetyGateResult)

/-- `ApplyRepeatedActiveOnlyBackoff`: a single candidate is disabled; of several, it is
    not known which is at fault. -/
def applyRepeatedActiveOnlyBackoff (s : Store) : List SafetyGateResult × Store :=
  match gates.filter SafetyGateResult.isCandidate with
  | [c] =>
    (gates.map fun gate => if gate.module = c.module then { gate with enabled := false } else gate,
      Function.update s c.module
        (markFault c.module (ascii "repeated_unclean_driver_exit") (s c.module)))
  | _ => (gates, s)

/-- The modules in the order of their gates. -/
def ModuleId.all : List ModuleId :=
  [.calibration, .smoothing, .inputHealth, .faceTracking, .captions, .phantom, .oscRouter]

variable (on : ModuleId → Bool)

/-- The launch gate, for the modules that are on. -/
def launch (s : Store) : List SafetyGateResult × Store :=
  let (gates, s) := applySafetyGates (ModuleId.all.filter on) s
  applyRepeatedActiveOnlyBackoff gates s

/-- Whether a module is still enabled after its gate. -/
def isSafe (m : ModuleId) : Bool :=
  gates.any fun gate => gate.module = m ∧ gate.enabled

/-- `DetectFeatureFlags`, for the modules whose flag files are present: the router is on
    also if another module needs it, and without the router these are not started. -/
def detectFeatureFlags (s : Store) : (ModuleId → Bool) × Store :=
  let (gates, s) := applySafetyGates
    (([.calibration, .smoothing, .inputHealth, .faceTracking, .captions, .phantom]).filter on) s
  let orOn := on .oscRouter || isSafe gates .faceTracking || isSafe gates .captions
  let (orGate, s) := applySafetyGates (if orOn then [.oscRouter] else []) s
  let (gates, s) := applyRepeatedActiveOnlyBackoff (gates ++ orGate) s
  (fun m => isSafe gates m &&
    (isSafe gates .oscRouter || !(m = .faceTracking ∨ m = .captions)), s)

/-! ## The operations of a launch -/

def applyStore (ops : List (ModuleId × FileOp)) (s : Store) : Store :=
  ops.foldl (fun s op => Function.update s op.1 (op.2.apply (s op.1))) s

/-- The operations of `applySafetyGates`. -/
def applySafetyGatesOps : List ModuleId → Store → List (ModuleId × FileOp)
  | [], _ => []
  | m :: ms, s => (assessLaunchOps m false (s m)).map (m, ·) ++
      applySafetyGatesOps ms (Function.update s m (applySafetyGate m (s m)).2)

/-- The operations of `applyRepeatedActiveOnlyBackoff`. -/
def backoffOps : List (ModuleId × FileOp) :=
  match gates.filter SafetyGateResult.isCandidate with
  | [c] => (markFaultOps c.module (ascii "repeated_unclean_driver_exit")).map (c.module, ·)
  | _ => []

def launchOps (s : Store) : List (ModuleId × FileOp) :=
  applySafetyGatesOps (ModuleId.all.filter on) s ++
    backoffOps (applySafetyGates (ModuleId.all.filter on) s).1

theorem applyStore_append (ops ops' : List (ModuleId × FileOp)) (s : Store) :
    applyStore (ops ++ ops') s = applyStore ops' (applyStore ops s) :=
  foldl_append

/-- The operations of a call for one module. -/
theorem applyStore_map (ops : List FileOp) (s : Store) :
    applyStore (ops.map (m, ·)) s = Function.update s m (applyOps ops (s m)) := by
  induction ops generalizing s with
  | nil => exact (Function.update_eq_self m s).symm
  | cons op ops ih =>
    refine (ih _).trans ((Function.update_idem ..).trans ?_)
    change Function.update s m (applyOps ops (Function.update s m (op.apply (s m)) m)) = _
    rw [Function.update_self]
    rfl

theorem applyStore_applySafetyGatesOps (ms : List ModuleId) (s : Store) :
    applyStore (applySafetyGatesOps ms s) s = (applySafetyGates ms s).2 := by
  induction ms generalizing s with
  | nil => rfl
  | cons m ms ih =>
    rw [applySafetyGatesOps, applyStore_append, applyStore_map, applyOps_assessLaunchOps]
    exact ih _

/-- All operations of a launch, one after the other, make the launch. -/
theorem applyStore_launchOps (s : Store) : applyStore (launchOps on s) s = (launch on s).2 := by
  rw [launchOps, applyStore_append, applyStore_applySafetyGatesOps]
  simp only [backoffOps, launch, applyRepeatedActiveOnlyBackoff]
  split
  · exact applyStore_map ..
  · rfl

/-! ## Sessions -/

/-- Where a session of a module is. It has not begun before the module is marked active,
    as it never does if the module is disabled. -/
inductive Session
  | waiting
  | running
  | scope (reason : List UInt8)
  | closed
  deriving DecidableEq

/-- What happened to a module: whether it takes part in the session of the driver; where
    its last session is, or was when the driver ended; and the crashes outside of any
    scope, since it was last shut down or enabled again. -/
structure Record where
  live : Bool
  last : Session
  outside : ℕ
  deriving DecidableEq

variable (r : Record)

/-- The module takes part in a new session. -/
def Record.launch : Record := { r with live := true, last := .waiting }

def Record.exit : Record :=
  if r.live then
    { r with live := false, outside := if r.last = .running then r.outside + 1 else r.outside }
  else r

structure State where
  up : Bool
  files : Store
  /-- The operations that are left of the last call. -/
  pending : List (ModuleId × FileOp)
  records : ModuleId → Record

inductive Event
  /-- The driver is launched, with these modules enabled. -/
  | launch (on : ModuleId → Bool)
  | markActive (m : ModuleId)
  | enterScope (m : ModuleId) (reason : List UInt8)
  | exitScope (m : ModuleId)
  /-- The module is shut down cleanly. -/
  | markClean (m : ModuleId)
  /-- The next operation of the last call. -/
  | fileOp
  /-- The driver ends: a crash, for the modules that were not shut down. -/
  | exit
  /-- The user enables a module that is disabled. -/
  | clearAutoDisabled (m : ModuleId)

/-- A call for the module `m`. -/
def State.call (s : State) (m : ModuleId) (ops : List FileOp) (r : Record) : State :=
  { s with pending := ops.map (m, ·), records := Function.update s.records m r }

/-- A call is made when the one before is done. -/
def State.callIf (s : State) (p : Prop) [Decidable p] (m : ModuleId) (ops : List FileOp)
    (r : Record) : Option State :=
  if s.pending = [] ∧ p then some (s.call m ops r) else none

/-- The driver, beginning with no files at all. -/
def machine : Machine State Event where
  init := {s | s.up = false ∧ (∀ m, s.files m = ⟨none, none, none, none, none⟩) ∧
    s.pending = [] ∧ ∀ m, s.records m = ⟨false, .waiting, 0⟩}
  step s
    | .launch on =>
      if s.up = false ∧ s.pending = [] then some
        { up := true
          files := s.files
          pending := launchOps on s.files
          records := fun m => if on m then (s.records m).launch else s.records m }
      else none
    | .markActive m =>
      let r := s.records m
      s.callIf (r.live ∧ r.last = .waiting ∧ (s.files m).autoDisabled.isNone) m (markActiveOps m)
        { r with last := .running }
    | .enterScope m reason =>
      let r := s.records m
      s.callIf (r.live ∧ r.last = .running) m (markSuspectOps m reason)
        { r with last := .scope reason }
    | .exitScope m =>
      let r := s.records m
      match r.last with
      | .scope _ => s.callIf r.live m clearSuspectOps { r with last := .running }
      | _ => none
    | .markClean m =>
      let r := s.records m
      s.callIf (r.live ∧ r.last = .running) m (markCleanOps m)
        { r with last := .closed, outside := 0 }
    | .fileOp =>
      match s.pending with
      | [] => none
      | op :: ops => some { s with files := applyStore [op] s.files, pending := ops }
    | .exit =>
      if s.up then
        some { s with up := false, pending := [], records := fun m => (s.records m).exit }
      else none
    | .clearAutoDisabled m =>
      s.callIf (s.files m).autoDisabled.isSome m clearAutoDisabledOps
        { s.records m with outside := 0 }

/-- The driver does not end before all operations of a call are done. -/
def Uncut (s : State) : Event → Prop
  | .exit => s.pending = []
  | _ => True

instance : DecidableRel Uncut := fun s e => by cases e <;> unfold Uncut <;> infer_instance

/-- A reason that is read as one of a cleanup: its first line is one, and the file is
    not too large. -/
def ReadsAsCleanup (reason : List UInt8) : Prop :=
  (markerBody m reason).length ≤ 65536 ∧ isCleanupOnlySuspectReason (reason.takeWhile (· != 10))

instance (m : ModuleId) (reason : List UInt8) : Decidable (ReadsAsCleanup m reason) :=
  inferInstanceAs (Decidable (_ ∧ _))

/-- The last session crashed in a scope, other than a cleanup. -/
def Record.CrashedInScope : Prop :=
  ∃ reason, r.last = .scope reason ∧ ¬ReadsAsCleanup m reason

/-- The last session crashed outside of any scope, and it was not the first. -/
def Record.CrashedRepeatedly : Prop := r.last = .running ∧ 3 ≤ r.outside % 2 ^ 32

/-! ## What a launch does to the files -/

theorem filter_eq_singleton_iff {α : Type*} {l : List α} (hl : l.Nodup) {p : α → Bool} {a : α} :
    l.filter p = [a] ↔ (a ∈ l ∧ p a) ∧ ∀ b ∈ l, p b → b = a := by
  constructor
  · intro h
    have hmem (b : α) : b ∈ l ∧ p b ↔ b = a := by
      rw [← mem_filter, h, mem_singleton]
    exact ⟨(hmem a).2 rfl, fun b hb hp => (hmem b).1 ⟨hb, hp⟩⟩
  · rintro ⟨ha, hall⟩
    have hall (b : α) (hb : b ∈ l.filter p) : b = a :=
      hall b (mem_filter.1 hb).1 (mem_filter.1 hb).2
    have hnodup := hl.filter p
    match hf : l.filter p with
    | [] => exact absurd (hf ▸ mem_filter.2 ha) not_mem_nil
    | [b] => rw [hall b (hf ▸ mem_singleton_self b)]
    | b :: c :: _ =>
      have hb := hall b (by simp [hf])
      have hc := hall c (by simp [hf])
      simp [hf, hb, hc] at hnodup

theorem ModuleId.mem_all : m ∈ all := by cases m <;> decide

theorem ModuleId.nodup_filter : (all.filter on).Nodup :=
  List.Nodup.filter on (by decide)

theorem module_applySafetyGate : (applySafetyGate m f).1.module = m := rfl

variable {ms : List ModuleId}

/-- Each gate is about the files of its module only. -/
theorem applySafetyGates_eq (hms : ms.Nodup) (s : Store) :
    applySafetyGates ms s = (ms.map fun m => (applySafetyGate m (s m)).1,
      fun m => if m ∈ ms then (applySafetyGate m (s m)).2 else s m) := by
  induction ms generalizing s with
  | nil => simp [applySafetyGates]
  | cons m ms ih =>
    obtain ⟨hm, hms⟩ := nodup_cons.1 hms
    have hcons : applySafetyGates (m :: ms) s =
        ((applySafetyGate m (s m)).1 ::
          (applySafetyGates ms (Function.update s m (applySafetyGate m (s m)).2)).1,
          (applySafetyGates ms (Function.update s m (applySafetyGate m (s m)).2)).2) := rfl
    rw [hcons, ih hms]
    have hne (m') (hm' : m' ∈ ms) : m' ≠ m := ne_of_mem_of_not_mem hm' hm
    refine Prod.ext ?_ (funext fun m' => ?_)
    · refine congrArg (_ :: ·) (map_congr_left fun m' hm' => ?_)
      rw [Function.update_of_ne (hne m' hm')]
    · by_cases h : m' = m
      · subst h
        simp [hm]
      · simp [h]

theorem applySafetyGates_append (ms ms' : List ModuleId) (s : Store) :
    applySafetyGates (ms ++ ms') s =
      ((applySafetyGates ms s).1 ++ (applySafetyGates ms' (applySafetyGates ms s).2).1,
        (applySafetyGates ms' (applySafetyGates ms s).2).2) := by
  induction ms generalizing s with
  | nil => rfl
  | cons m ms ih => simp only [cons_append, applySafetyGates, ih]

open ModuleId

/-- The start of the driver is a launch with the flags that are present, up to the
    router. -/
theorem exists_launch_eq_detectFeatureFlags (s : Store) :
    ∃ on' : ModuleId → Bool, (∀ m, m ≠ .oscRouter → on' m = on m) ∧
      detectFeatureFlags on s =
        (fun m => isSafe (launch on' s).1 m &&
          (isSafe (launch on' s).1 .oscRouter || !(m = .faceTracking ∨ m = .captions)),
        (launch on' s).2) := by
  let others : List ModuleId :=
    [.calibration, .smoothing, .inputHealth, .faceTracking, .captions, .phantom]
  let gates := (applySafetyGates (others.filter on) s).1
  let orOn := on .oscRouter || isSafe gates .faceTracking || isSafe gates .captions
  let on' (m : ModuleId) : Bool := if m = .oscRouter then orOn else on m
  refine ⟨on', fun m hm => if_neg hm, ?_⟩
  have hall : all.filter on' = others.filter on ++ if orOn then [.oscRouter] else [] := by
    have hothers : others.filter on' = others.filter on :=
      filter_congr fun m hm => if_neg (by rintro rfl; exact absurd hm (by decide))
    have hrouter : [oscRouter].filter on' = if orOn then [.oscRouter] else [] := by
      rw [filter_singleton, Bool.cond_eq_ite]
      rfl
    rw [← hothers, ← hrouter]
    exact filter_append others [.oscRouter]
  rw [launch, hall, applySafetyGates_append]
  rfl

open SafetyGateResult

/-- A module is disabled by the backoff if it is the only candidate. -/
theorem applyRepeatedActiveOnlyBackoff_apply {g : ModuleId → SafetyGateResult}
    (hg : ∀ m, (g m).module = m) (s : Store) (m : ModuleId) :
    (applyRepeatedActiveOnlyBackoff (ms.map g) s).2 m =
      if ms.filter (fun m => (g m).isCandidate) = [m] then
        markFault m (ascii "repeated_unclean_driver_exit") (s m)
      else s m := by
  rw [applyRepeatedActiveOnlyBackoff, filter_map]
  change _ = if ms.filter (isCandidate ∘ g) = [m] then _ else _
  match ms.filter (isCandidate ∘ g) with
  | [] => simp
  | [c] =>
    by_cases h : m = c
    · subst h
      simp [hg]
    · simp [hg, h, Ne.symm h]
  | c :: c' :: _ => simp

/-- A module is enabled after the backoff if it was before, and is not the only
    candidate. -/
theorem isSafe_applyRepeatedActiveOnlyBackoff {g : ModuleId → SafetyGateResult}
    (hg : ∀ m, (g m).module = m) (s : Store) (m : ModuleId) :
    isSafe (applyRepeatedActiveOnlyBackoff (ms.map g) s).1 m = true ↔
      (m ∈ ms ∧ (g m).enabled = true) ∧ ms.filter (fun m => (g m).isCandidate) ≠ [m] := by
  rw [applyRepeatedActiveOnlyBackoff, filter_map]
  change _ ↔ _ ∧ ms.filter (isCandidate ∘ g) ≠ [m]
  match ms.filter (isCandidate ∘ g) with
  | [] => simp [isSafe, hg]
  | [c] =>
    by_cases h : m = c
    · subst h
      simp [isSafe, hg, apply_ite]
    · simp [isSafe, hg, apply_ite, h, Ne.symm h]
  | c :: c' :: _ => simp [isSafe, hg]

/-- The modules that crashed again and again, by what is found at a launch. -/
def candidates (s : Store) : List ModuleId :=
  (ModuleId.all.filter on).filter fun m => (applySafetyGate m (s m)).1.isCandidate

theorem candidates_eq_singleton_iff {on : ModuleId → Bool} {s : Store} {m : ModuleId} :
    candidates on s = [m] ↔ (on m ∧ (applySafetyGate m (s m)).1.isCandidate) ∧
      ∀ m', on m' → (applySafetyGate m' (s m')).1.isCandidate → m' = m := by
  rw [candidates, filter_eq_singleton_iff (nodup_filter on)]
  simp [mem_all]

/-- The files of a module after a launch. -/
theorem launch_apply (s : Store) (m : ModuleId) :
    (launch on s).2 m =
      if candidates on s = [m] then
        markFault m (ascii "repeated_unclean_driver_exit") (applySafetyGate m (s m)).2
      else if on m then (applySafetyGate m (s m)).2 else s m := by
  have hmem : m ∈ all.filter on ↔ on m = true := by simp [mem_all]
  rw [launch, applySafetyGates_eq (nodup_filter on)]
  refine (applyRepeatedActiveOnlyBackoff_apply (fun m => module_applySafetyGate m _) _ m).trans ?_
  change (if candidates on s = [m] then _ else _) = _
  simp only [hmem]
  by_cases hc : candidates on s = [m]
  · rw [if_pos hc, if_pos hc, if_pos (candidates_eq_singleton_iff.1 hc).1.1]
  · rw [if_neg hc, if_neg hc]

/-- A module is enabled after a launch if it was on, and is not disabled now. -/
theorem isSafe_launch_iff {on : ModuleId → Bool} {s : Store} {m : ModuleId} :
    isSafe (launch on s).1 m = true ↔ on m = true ∧ ((launch on s).2 m).autoDisabled = none := by
  rw [launch_apply, launch, applySafetyGates_eq (nodup_filter on)]
  refine (isSafe_applyRepeatedActiveOnlyBackoff (fun m => module_applySafetyGate m _) _ m).trans ?_
  change _ ∧ candidates on s ≠ [m] ↔ _
  split_ifs with hc hon
  · simp [hc, markFault_eq]
  · simp [hc, hon, mem_all, applySafetyGate]
  · simp [hon]

/-- Whatever is in the files, a module other than the router is started if and only if its
    flag is present, it is not disabled now, and the router that it may need is started;
    and the router is not started if it is disabled now. -/
theorem started_iff (on : ModuleId → Bool) (s : Store) :
    (∀ m, m ≠ .oscRouter → ((detectFeatureFlags on s).1 m = true ↔ on m = true ∧
      ((detectFeatureFlags on s).2 m).autoDisabled = none ∧
        (m = .faceTracking ∨ m = .captions → (detectFeatureFlags on s).1 .oscRouter = true))) ∧
    ((detectFeatureFlags on s).1 .oscRouter = true →
      ((detectFeatureFlags on s).2 .oscRouter).autoDisabled = none) := by
  obtain ⟨on', hon', heq⟩ := exists_launch_eq_detectFeatureFlags on s
  have hrouter : (detectFeatureFlags on s).1 .oscRouter = isSafe (launch on' s).1 .oscRouter := by
    simp [heq]
  refine ⟨fun m hm => ?_, fun h => ?_⟩
  · rw [hrouter, ← hon' m hm, heq, Bool.and_eq_true, isSafe_launch_iff, and_assoc]
    refine and_congr_right' (and_congr_right' ?_)
    by_cases hneeds : m = .faceTracking ∨ m = .captions <;> simp [hneeds]
  · rw [heq]
    exact (isSafe_launch_iff.1 (hrouter ▸ h)).2

/-! ## The records and the files -/

/-- The reason of the scope that a session is in. -/
def Session.reason : Session → Option (List UInt8)
  | .scope reason => some reason
  | _ => none

/-- The crash that the record has, and that is not counted yet. -/
def Record.uncounted : UInt32 := if r.live = false ∧ r.last = .running then 1 else 0

/-- The files of a module are those that its record tells. -/
structure Consistent (m : ModuleId) (f : Files) (r : Record) : Prop where
  active : f.active.isSome ↔ r.last = .running ∨ r.last.reason.isSome
  suspect : f.suspect = r.last.reason.map (markerBody m)
  counter : (readCounters f).activeUnclean + r.uncounted = UInt32.ofNat r.outside
  disabled : f.autoDisabled.isSome → r.last = .waiting

theorem isCleanup_readField (reason : List UInt8) :
    isCleanupOnlySuspectReason (readField (readTextFile (some (markerBody m reason)))
      (ascii "reason=")) = true ↔ ReadsAsCleanup m reason := by
  rw [readField_markerBody, ReadsAsCleanup]
  split_ifs with h
  · exact ⟨fun h' => absurd h' (by decide), fun h' => absurd h'.1 (by omega)⟩
  · exact ⟨fun h' => ⟨by omega, h'⟩, fun h' => h'.2⟩

variable {m f r}

/-- Without markers, the gate does nothing. -/
theorem applySafetyGate_of_none (ha : f.active = none) (hs : f.suspect = none) :
    applySafetyGate m f = (⟨m, f.autoDisabled.isNone, {}⟩, f) := by
  simp [applySafetyGate, assessLaunch, ha, hs]

/-- A module that was active, and in no scope: the crash is counted. -/
theorem applySafetyGate_of_active (ha : f.active.isSome) (hs : f.suspect = none) :
    applySafetyGate m f = (⟨m, f.autoDisabled.isNone,
      { hadStaleActive := true
        activeUncleanCount := (readCounters f).activeUnclean + 1
        suspectUncleanCount := (readCounters f).suspectUnclean }⟩,
      clearRuntimeMarkers (writeCounters m
        ⟨(readCounters f).activeUnclean + 1, (readCounters f).suspectUnclean⟩ f)) := by
  have hne : f.active ≠ none := Option.isSome_iff_ne_none.1 ha
  simp [applySafetyGate, assessLaunch, assessStale, ha, hs, hne, clearRuntimeMarkers_eq,
    writeCounters]

/-- A module that was in a scope is no candidate; it is disabled, unless this was a
    cleanup. -/
theorem applySafetyGate_of_suspect {reason : List UInt8}
    (hs : f.suspect = some (markerBody m reason)) :
    (applySafetyGate m f).1.isCandidate = false ∧
      (applySafetyGate m f).2 =
        (if ReadsAsCleanup m reason then clearRuntimeMarkers
          else markFault m (ascii "unclean_exit_during_module_operation")) (writeCounters m
          ⟨(readCounters f).activeUnclean, (readCounters f).suspectUnclean + 1⟩ f) := by
  have hcleanup := isCleanup_readField m reason
  have hreason : ascii "unclean_exit_during_module_operation" ≠ [] := by decide
  by_cases hc : ReadsAsCleanup m reason
  · have hread := hcleanup.2 hc
    simp [applySafetyGate, assessLaunch, assessStale, isCandidate, hs, hread, hc]
  · have hread := Bool.eq_false_iff.2 (mt hcleanup.1 hc)
    simp [applySafetyGate, assessLaunch, assessStale, isCandidate, hs, hread, hc,
      hreason]

/-- Files without markers, in which all crashes are counted, are those of a module whose
    session has not begun. -/
theorem Consistent.of_launch (ha : f.active = none) (hs : f.suspect = none)
    (hc : (readCounters f).activeUnclean = UInt32.ofNat r.outside) : Consistent m f r.launch where
  active := by simp [ha, Record.launch, Session.reason]
  suspect := hs
  counter := by simpa [Record.uncounted, Record.launch] using hc
  disabled _ := rfl

theorem threshold_le_ofNat (n : ℕ) :
    activeOnlyAutoDisableThreshold ≤ UInt32.ofNat n ↔ 3 ≤ n % 2 ^ 32 := by
  rw [UInt32.le_iff_toNat_le, UInt32.toNat_ofNat']
  rfl

/-- What the gate makes of a record. -/
structure GateSpec (m : ModuleId) (f : Files) (r : Record) : Prop where
  consistent : Consistent m (applySafetyGate m f).2 r.launch
  disabled_iff : (applySafetyGate m f).2.autoDisabled.isSome ↔
    f.autoDisabled.isSome ∨ r.CrashedInScope m
  candidate_iff : (applySafetyGate m f).1.isCandidate ↔ r.CrashedRepeatedly

/-- Without a session, there is nothing to be found. -/
theorem Consistent.gate_of_idle (h : Consistent m f r) (hrun : r.last ≠ .running)
    (hscope : r.last.reason = none) : GateSpec m f r := by
  have ha : f.active = none := by simpa [hrun, hscope] using h.active
  have hs : f.suspect = none := by simpa [hscope] using h.suspect
  have hno : ¬r.CrashedInScope m := fun ⟨reason, hr, _⟩ => by simp [hr, Session.reason] at hscope
  have hgate : applySafetyGate m f = _ := applySafetyGate_of_none ha hs
  refine ⟨?_, by simp [hgate, hno], ?_⟩
  · rw [hgate]
    exact .of_launch ha hs (by simpa [Record.uncounted, hrun] using h.counter)
  · simp [hgate, isCandidate, Record.CrashedRepeatedly, hrun]

/-- The gate counts what the record has, and decides by it. -/
theorem Consistent.gate (h : Consistent m f r) (hlive : r.live = false) : GateSpec m f r := by
  cases hr : r.last with
  | waiting | closed => exact h.gate_of_idle (by simp [hr]) (by simp [hr, Session.reason])
  -- A crash outside a scope left the active marker, and is counted only now.
  | running =>
    have ha : f.active.isSome := h.active.2 (.inl hr)
    have hs : f.suspect = none := by simpa [hr, Session.reason] using h.suspect
    have hd : f.autoDisabled = none := by simpa [hr] using h.disabled
    have hcount : (readCounters f).activeUnclean + 1 = UInt32.ofNat r.outside := by
      simpa [Record.uncounted, hlive, hr] using h.counter
    have hgate : applySafetyGate m f = _ := applySafetyGate_of_active ha hs
    refine ⟨?_, ?_, ?_⟩
    · rw [hgate]
      exact .of_launch rfl rfl ((readCounters_writeCounters m _ f).trans hcount)
    · simp [hgate, clearRuntimeMarkers_eq, writeCounters, hd, Record.CrashedInScope, hr]
    · simp [hgate, isCandidate, Record.CrashedRepeatedly, hr, hd, hcount,
        threshold_le_ofNat]
  -- The suspect marker of a crash in a scope decides before the active one.
  | scope reason =>
    have hs : f.suspect = some (markerBody m reason) := by
      simpa [hr, Session.reason] using h.suspect
    have hd : f.autoDisabled = none := by simpa [hr] using h.disabled
    have hcount : (readCounters f).activeUnclean = UInt32.ofNat r.outside := by
      simpa [Record.uncounted, hr] using h.counter
    obtain ⟨hcand, hfiles⟩ := applySafetyGate_of_suspect hs
    have hread := readCounters_writeCounters m
      ⟨(readCounters f).activeUnclean, (readCounters f).suspectUnclean + 1⟩ f
    refine ⟨?_, ?_, by simp [hcand, Record.CrashedRepeatedly, hr]⟩
    · rw [hfiles]
      split_ifs <;> exact .of_launch rfl rfl (hread.trans hcount)
    · rw [hfiles]
      split_ifs with hc
      · simp [clearRuntimeMarkers_eq, writeCounters, hd, Record.CrashedInScope, hr, hc]
      · simp [markFault_eq, Record.CrashedInScope, hr, hc]

/-! ## Runs -/

/-- The files once the last call is done. -/
def State.settled (s : State) : Store := applyStore s.pending s.files

/-- The files of all modules will be those that the records tell, and no module takes part
    in a session when there is none. -/
structure Inv (s : State) : Prop where
  consistent : ∀ m, Consistent m (s.settled m) (s.records m)
  live : s.up = false → ∀ m, (s.records m).live = false

variable {s s' : State} {reason : List UInt8}

theorem State.settled_of_done (h : s.pending = []) : s.settled = s.files := by
  rw [settled, h]
  rfl

theorem Inv.consistent_of_done (h : Inv s) (hdone : s.pending = []) (m : ModuleId) :
    Consistent m (s.files m) (s.records m) := by
  have hm := h.consistent m
  rwa [State.settled_of_done hdone] at hm

theorem Inv.call (h : Inv s) (hdone : s.pending = []) {ops : List FileOp}
    (hc : Consistent m (applyOps ops (s.files m)) r) (hlive : r.live = (s.records m).live) :
    Inv (s.call m ops r) where
  consistent m' := by
    rw [State.settled, State.call, applyStore_map]
    by_cases hm : m' = m
    · subst hm
      simpa using hc
    · simpa [hm] using h.consistent_of_done hdone m'
  live hup m' := by
    by_cases hm : m' = m
    · subst hm
      simpa [State.call, hlive] using h.live hup m'
    · simpa [State.call, hm] using h.live hup m'

theorem State.callIf_eq_some {p : Prop} [Decidable p] {ops : List FileOp}
    (h : s.callIf p m ops r = some s') : s.pending = [] ∧ p ∧ s' = s.call m ops r := by
  obtain ⟨⟨hdone, hp⟩, hs⟩ := Option.ite_none_right_eq_some.1 h
  exact ⟨hdone, hp, (Option.some.inj hs).symm⟩

/-- A module that takes part in a session has no crash that is not counted. -/
theorem Consistent.counter_of_live (h : Consistent m f r) (hlive : r.live = true) :
    (readCounters f).activeUnclean = UInt32.ofNat r.outside := by
  simpa [Record.uncounted, hlive] using h.counter

/-- Being disabled does not concern a session that has not begun. -/
theorem Consistent.fault (h : Consistent m f r.launch) :
    Consistent m (markFault m reason f) r.launch :=
  .of_launch rfl rfl (h.counter_of_live rfl)

theorem Consistent.start (h : Consistent m f r) (hlive : r.live = true) (hlast : r.last = .waiting)
    (hd : f.autoDisabled = none) : Consistent m (markActive m f) { r with last := .running } where
  active := by simp [markActive_eq]
  suspect := by simpa [markActive_eq, hlast, Session.reason] using h.suspect
  counter := by simpa [Record.uncounted, hlive] using h.counter_of_live hlive
  disabled := by simp [markActive_eq, hd]

theorem Consistent.enterScope (h : Consistent m f r) (hlive : r.live = true)
    (hlast : r.last = .running) :
    Consistent m (markSuspect m reason f) { r with last := .scope reason } where
  active := by simpa [markSuspect_eq, Session.reason] using h.active.2 (.inl hlast)
  suspect := rfl
  counter := by simpa [Record.uncounted] using h.counter_of_live hlive
  disabled hd := by simpa [hlast] using h.disabled hd

theorem Consistent.exitScope (h : Consistent m f r) (hlive : r.live = true)
    (hlast : r.last = .scope reason) :
    Consistent m (clearSuspect f) { r with last := .running } where
  active := by simpa [clearSuspect_eq] using h.active.2 (.inr (by simp [hlast, Session.reason]))
  suspect := rfl
  counter := by simpa [Record.uncounted, hlive] using h.counter_of_live hlive
  disabled hd := by simpa [hlast] using h.disabled hd

theorem Consistent.close (h : Consistent m f r) (hlast : r.last = .running) :
    Consistent m (markClean m f) { r with last := .closed, outside := 0 } where
  active := by simp [markClean_eq, Session.reason]
  suspect := rfl
  counter := by
    simp [Record.uncounted]
    rfl
  disabled hd := by simpa [hlast] using h.disabled hd

theorem Consistent.clear (h : Consistent m f r) (hd : f.autoDisabled.isSome) :
    Consistent m (clearAutoDisabled f) { r with outside := 0 } where
  active := by simp [clearAutoDisabled_eq, h.disabled hd, Session.reason]
  suspect := by simp [clearAutoDisabled_eq, h.disabled hd, Session.reason]
  counter := by
    simp [Record.uncounted, h.disabled hd]
    rfl
  disabled := by simp [clearAutoDisabled_eq]

/-- A crash is counted by the record, and not yet by the files. -/
theorem Consistent.exit (h : Consistent m f r) : Consistent m f r.exit := by
  cases hlive : r.live with
  | false => simpa [Record.exit, hlive] using h
  | true =>
    have hcounter := h.counter_of_live hlive
    rw [Record.exit, if_pos hlive]
    refine ⟨h.active, h.suspect, ?_, h.disabled⟩
    by_cases hr : r.last = .running
    · simp [Record.uncounted, hr, hcounter, UInt32.ofNat_add]
    · simp [Record.uncounted, hr, hcounter]

/-- What a launch finds is consistent, and what it leaves as well. -/
theorem Inv.launch (h : Inv s) (hup : s.up = false) (hdone : s.pending = [])
    (on : ModuleId → Bool) (m : ModuleId) :
    Consistent m ((launch on s.files).2 m)
      (if on m then (s.records m).launch else s.records m) := by
  have hgate := (h.consistent_of_done hdone m).gate (h.live hup m)
  rw [launch_apply]
  split_ifs with hc hon hon
  · exact hgate.consistent.fault
  · exact absurd (candidates_eq_singleton_iff.1 hc).1.1 hon
  · exact hgate.consistent
  · exact h.consistent_of_done hdone m

theorem inv_step {e : Event} (h : Inv s) (he : Uncut s e) (hs : machine.step s e = some s') :
    Inv s' := by
  cases e with
  | launch on =>
    obtain ⟨⟨hup, hdone⟩, hs⟩ := Option.ite_none_right_eq_some.1 hs
    obtain rfl := Option.some.inj hs
    refine ⟨fun m => ?_, nofun⟩
    rw [State.settled, applyStore_launchOps]
    exact h.launch hup hdone on m
  | markActive m =>
    obtain ⟨hdone, ⟨hlive, hlast, hd⟩, rfl⟩ := State.callIf_eq_some hs
    exact h.call hdone ((h.consistent_of_done hdone m).start hlive hlast (by simpa using hd)) rfl
  | enterScope m reason =>
    obtain ⟨hdone, ⟨hlive, hlast⟩, rfl⟩ := State.callIf_eq_some hs
    exact h.call hdone ((h.consistent_of_done hdone m).enterScope hlive hlast) rfl
  | exitScope m =>
    simp only [machine] at hs
    split at hs
    · rename_i reason hlast
      obtain ⟨hdone, hlive, rfl⟩ := State.callIf_eq_some hs
      exact h.call hdone ((h.consistent_of_done hdone m).exitScope hlive hlast) rfl
    · cases hs
  | markClean m =>
    obtain ⟨hdone, ⟨-, hlast⟩, rfl⟩ := State.callIf_eq_some hs
    exact h.call hdone ((h.consistent_of_done hdone m).close hlast) rfl
  | fileOp =>
    -- What the files will be does not change when a part of the call is done.
    have hc := h.consistent
    simp only [machine] at hs
    split at hs
    · cases hs
    · rename_i op ops hpending
      cases hs
      simp only [State.settled, hpending] at hc
      exact ⟨hc, h.live⟩
  | exit =>
    obtain ⟨-, hs⟩ := Option.ite_none_right_eq_some.1 hs
    obtain rfl := Option.some.inj hs
    refine ⟨fun m => (h.consistent_of_done he m).exit, fun _ m => ?_⟩
    cases hlive : (s.records m).live <;> simp [Record.exit, hlive]
  | clearAutoDisabled m =>
    obtain ⟨hdone, hd, rfl⟩ := State.callIf_eq_some hs
    exact h.call hdone ((h.consistent_of_done hdone m).clear hd) rfl

variable {es : List Event}

theorem inv_of_run (h : machine.RunIf Uncut es s) : Inv s := by
  refine h.invariant (fun s hs => ?_) fun s e s' hi he hs => inv_step hi he hs
  obtain ⟨-, hfiles, hdone, hrecords⟩ := hs
  refine ⟨fun m => ?_, fun _ m => by rw [hrecords]⟩
  rw [State.settled_of_done hdone, hfiles, hrecords]
  exact ⟨by simp [Session.reason], rfl, rfl, fun h => rfl⟩

/-- A module that is disabled has no markers. -/
theorem Consistent.no_markers (h : Consistent m f r) (hd : f.autoDisabled.isSome) :
    f.active = none ∧ f.suspect = none := by
  have hlast := h.disabled hd
  have hactive := h.active
  have hsuspect := h.suspect
  simp only [hlast, Session.reason] at hactive hsuspect
  exact ⟨by simpa using hactive, hsuspect⟩

/-- The modules that a launch disables. -/
theorem Inv.launch_disables (h : Inv s) (hdone : s.pending = []) (hup : s.up = false)
    (on : ModuleId → Bool) (m : ModuleId) :
    (s.files m).autoDisabled = none ∧ ((Safety.launch on s.files).2 m).autoDisabled.isSome ↔
      on m ∧ ((s.records m).CrashedInScope m ∨ (s.records m).CrashedRepeatedly ∧
        ∀ m', on m' → m' ≠ m → ¬(s.records m').CrashedRepeatedly) := by
  have hgate (m : ModuleId) := (h.consistent_of_done hdone m).gate (h.live hup m)
  have hsingle : candidates on s.files = [m] ↔ (on m ∧ (s.records m).CrashedRepeatedly) ∧
      ∀ m', on m' → m' ≠ m → ¬(s.records m').CrashedRepeatedly := by
    rw [candidates_eq_singleton_iff]
    simp only [(hgate _).candidate_iff]
    exact and_congr_right' (forall₂_congr fun m' _ => not_imp_not.symm)
  rw [launch_apply]
  cases hd : (s.files m).autoDisabled with
  | some _ =>
    -- A module that is disabled has no session that could have crashed.
    have hlast := (h.consistent_of_done hdone m).disabled (by rw [hd]; rfl)
    simp [Record.CrashedInScope, Record.CrashedRepeatedly, hlast]
  | none =>
    have hscope := (hgate m).disabled_iff
    rw [hd, Option.isSome_none, Bool.false_eq_true, false_or] at hscope
    by_cases hc : candidates on s.files = [m]
    · obtain ⟨⟨hon, hrep⟩, hothers⟩ := hsingle.1 hc
      rw [if_pos hc]
      exact iff_of_true ⟨rfl, rfl⟩ ⟨hon, .inr ⟨hrep, hothers⟩⟩
    · rw [if_neg hc]
      rw [hsingle] at hc
      split_ifs with hon
      · rw [hscope]
        refine ⟨fun h => ⟨hon, .inl h.2⟩, fun h => ⟨rfl, h.2.resolve_right fun hrep => ?_⟩⟩
        exact hc ⟨⟨hon, hrep.1⟩, hrep.2⟩
      · simp [hd, hon]

/-- In any run in which no call is cut off, and whenever no call is being made, a module that
    is disabled has no markers; and between two sessions, it is known exactly which modules
    the next launch disables: those that crashed in a scope, other than a cleanup, and a
    module that crashed outside of any scope three times or more (with overflow), if it is
    the only one. -/
theorem launch_disables_iff (h : machine.RunIf Uncut es s) (hdone : s.pending = []) :
    (∀ m, (s.files m).autoDisabled.isSome →
      (s.files m).active = none ∧ (s.files m).suspect = none) ∧
    (s.up = false → ∀ (on : ModuleId → Bool) (m : ModuleId),
      (s.files m).autoDisabled = none ∧ ((launch on s.files).2 m).autoDisabled.isSome ↔
        on m ∧ ((s.records m).CrashedInScope m ∨ (s.records m).CrashedRepeatedly ∧
          ∀ m', on m' → m' ≠ m → ¬(s.records m').CrashedRepeatedly)) :=
  ⟨fun m hd => ((inv_of_run h).consistent_of_done hdone m).no_markers hd,
    (inv_of_run h).launch_disables hdone⟩

def fresh : State where
  up := false
  files _ := ⟨none, none, none, none, none⟩
  pending := []
  records _ := ⟨false, .waiting, 0⟩

theorem fresh_mem_init : fresh ∈ machine.init := ⟨rfl, fun _ => rfl, rfl, fun _ => rfl⟩

/-- A session of the phantom module alone, whose launch has `n` operations. -/
def phantomSession (n : ℕ) : List Event :=
  .launch (· == .phantom) :: List.replicate n .fileOp ++
    [.markActive .phantom, .fileOp, .fileOp]

/-- The third crash outside of any scope disables a module. -/
theorem launch_disables_third : ∃ es s, machine.RunIf Uncut es s ∧ s.pending = [] ∧
    (s.files .phantom).autoDisabled = none ∧
      ((launch (· == .phantom) s.files).2 .phantom).autoDisabled.isSome := by
  obtain ⟨s, hrun, hdone, hup, hrec⟩ : ∃ s, machine.RunIf Uncut
      (phantomSession 0 ++ [.exit] ++ phantomSession 3 ++
        [.enterScope .phantom (ascii "request"), .fileOp, .exitScope .phantom, .fileOp, .exit] ++
        phantomSession 3 ++ [.exit]) s ∧
      s.pending = [] ∧ s.up = false ∧ s.records .phantom = ⟨false, .running, 3⟩ :=
    machine.exists_runIf _ fresh_mem_init (by decide +kernel)
  refine ⟨_, s, hrun, hdone,
    ((launch_disables_iff hrun hdone).2 hup _ .phantom).2 ⟨rfl, .inr ⟨?_, ?_⟩⟩⟩
  · rw [hrec]
    exact ⟨rfl, by decide⟩
  · intro m' hon hne
    exact absurd (by simpa using hon) hne

/-- A module has crashed in a scope. The launch after it counts the crash and writes the
    marker that disables the module; the driver ends there. -/
theorem cut_launch_keeps_markers : ∃ s, machine.Run (phantomSession 0 ++
      [.enterScope .phantom (ascii "request"), .fileOp, .exit, .launch (· == .phantom), .fileOp,
        .fileOp, .exit]) s ∧
    s.up = false ∧ s.pending = [] ∧ (s.files .phantom).autoDisabled.isSome ∧
      (s.files .phantom).active.isSome ∧ (s.files .phantom).suspect.isSome :=
  machine.exists_runIf _ fresh_mem_init (by decide +kernel)

end WKOpenVR.Safety
