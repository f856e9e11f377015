import WKOpenVR.Text

/-!
# The marker files of the modules

Each module of the driver has files that outlive the process: the *active* marker says
that the module was started, the *suspect* marker that it is in an operation that may
crash, and for which reason; both are removed when the module is shut down cleanly, so
that markers found at the next launch are those of a crash. Crashes are counted in the
*counter* file. The *auto-disabled* marker keeps the module from being started.

Files are texts of lines `key=value`, which are written and read here as the code does
(`readField_markerBody`, `readCounters_writeCounters`). A call of the code is the list of
its operations on the files, in their order, as the process may end between any two of
them. At a launch, the markers that are found are assessed (`assessLaunch`).
-/

namespace WKOpenVR.Safety

open Text List

/-- The modules that take part in the safety of the driver. -/
inductive ModuleId
  | calibration | smoothing | inputHealth | faceTracking | oscRouter | captions | phantom
  deriving DecidableEq

def ModuleId.slug : ModuleId → List UInt8
  | .calibration => ascii "calibration"
  | .smoothing => ascii "smoothing"
  | .inputHealth => ascii "inputhealth"
  | .faceTracking => ascii "facetracking"
  | .oscRouter => ascii "oscrouter"
  | .captions => ascii "captions"
  | .phantom => ascii "phantom"

def ModuleId.flagFile : ModuleId → List UInt8
  | .calibration => ascii "enable_calibration.flag"
  | .smoothing => ascii "enable_smoothing.flag"
  | .inputHealth => ascii "enable_inputhealth.flag"
  | .faceTracking => ascii "enable_facetracking.flag"
  | .oscRouter => ascii "enable_oscrouter.flag"
  | .captions => ascii "enable_captions.flag"
  | .phantom => ascii "enable_phantom.flag"

/-- The files of a module, with their contents. -/
structure Files where
  active : Option (List UInt8)
  suspect : Option (List UInt8)
  clean : Option (List UInt8)
  counter : Option (List UInt8)
  autoDisabled : Option (List UInt8)
  deriving DecidableEq

inductive MarkerFile
  | active | suspect | clean | counter | autoDisabled
  deriving DecidableEq

/-- `DeleteFileIfPresent` and `WriteTextFile`, which succeed. -/
inductive FileOp
  | delete (file : MarkerFile)
  | write (file : MarkerFile) (body : List UInt8)
  deriving DecidableEq

def Files.set (f : Files) (body : Option (List UInt8)) : MarkerFile → Files
  | .active => { f with active := body }
  | .suspect => { f with suspect := body }
  | .clean => { f with clean := body }
  | .counter => { f with counter := body }
  | .autoDisabled => { f with autoDisabled := body }

def FileOp.apply (f : Files) : FileOp → Files
  | .delete file => f.set none file
  | .write file body => f.set (some body) file

def applyOps (ops : List FileOp) (f : Files) : Files := ops.foldl FileOp.apply f

variable (m : ModuleId) (reason : List UInt8) (f : Files)

/-! ## Texts -/

/-- `ReadTextFile`: nothing is read of a file that is empty or too large. -/
def readTextFile : Option (List UInt8) → List UInt8
  | none => []
  | some body => if body.length = 0 ∨ body.length > 65536 then [] else body

def markerBody : List UInt8 :=
  ascii "module=" ++ m.slug ++ ascii "\nflag=" ++ m.flagFile ++ ascii "\nreason=" ++ reason ++
    ascii "\n"

/-- `ReadField`: what follows the key, up to the end of its line. -/
def readField (body key : List UInt8) : List UInt8 :=
  match afterFirst key body with
  | none => []
  | some rest => rest.takeWhile (· != 10)

/-- `ReadUnsignedField`: the digits that the value begins with. -/
def readUnsignedField (body key : List UInt8) : UInt32 :=
  ((readField body key).takeWhile isDigit).foldl
    (fun out ch => out * 10 + UInt32.ofNat (ch.toNat - 48)) 0

structure CrashCounters where
  activeUnclean : UInt32
  suspectUnclean : UInt32
  deriving DecidableEq

def readCounters (f : Files) : CrashCounters where
  activeUnclean := readUnsignedField (readTextFile f.counter) (ascii "active_unclean=")
  suspectUnclean := readUnsignedField (readTextFile f.counter) (ascii "suspect_unclean=")

def countersBody (m : ModuleId) (counters : CrashCounters) : List UInt8 :=
  ascii "module=" ++ m.slug ++ ascii "\nactive_unclean=" ++
    decimal counters.activeUnclean.toNat ++ ascii "\nsuspect_unclean=" ++
    decimal counters.suspectUnclean.toNat ++ ascii "\n"

def writeCounters (m : ModuleId) (counters : CrashCounters) (f : Files) : Files :=
  { f with counter := some (countersBody m counters) }

def isCleanupOnlySuspectReason (reason : List UInt8) : Bool :=
  reason = ascii "shutdown" ∨ reason = ascii "flag_removed"

/-! ## Markers -/

def markActiveOps : List FileOp :=
  [.delete .clean, .write .active (markerBody m (ascii "active"))]

def markActive : Files := applyOps (markActiveOps m) f

def markSuspectOps : List FileOp := [.write .suspect (markerBody m reason)]

def markSuspect : Files := applyOps (markSuspectOps m reason) f

def clearSuspectOps : List FileOp := [.delete .suspect]

def clearSuspect : Files := applyOps clearSuspectOps f

def markCleanOps : List FileOp :=
  [.delete .active, .delete .suspect, .delete .counter,
    .write .clean (markerBody m (ascii "clean_shutdown"))]

def markClean : Files := applyOps (markCleanOps m) f

def clearRuntimeMarkersOps : List FileOp := [.delete .active, .delete .suspect]

def clearRuntimeMarkers : Files := applyOps clearRuntimeMarkersOps f

def markFaultOps : List FileOp :=
  .write .autoDisabled (markerBody m reason) :: clearRuntimeMarkersOps ++ [.delete .clean]

def markFault : Files := applyOps (markFaultOps m reason) f

def clearAutoDisabledOps : List FileOp :=
  [.delete .autoDisabled, .delete .active, .delete .suspect, .delete .counter]

def clearAutoDisabled : Files := applyOps clearAutoDisabledOps f

/-! What the calls leave, once all their operations are done. -/

theorem markActive_eq :
    markActive m f = { f with clean := none, active := some (markerBody m (ascii "active")) } :=
  rfl

theorem markSuspect_eq :
    markSuspect m reason f = { f with suspect := some (markerBody m reason) } :=
  rfl

theorem clearSuspect_eq : clearSuspect f = { f with suspect := none } := rfl

theorem markClean_eq :
    markClean m f = { f with active := none, suspect := none, counter := none
                             clean := some (markerBody m (ascii "clean_shutdown")) } :=
  rfl

theorem clearRuntimeMarkers_eq :
    clearRuntimeMarkers f = { f with active := none, suspect := none } :=
  rfl

theorem markFault_eq :
    markFault m reason f = { f with autoDisabled := some (markerBody m reason), active := none
                                    suspect := none, clean := none } :=
  rfl

theorem clearAutoDisabled_eq :
    clearAutoDisabled f = { f with autoDisabled := none, active := none, suspect := none
                                   counter := none } :=
  rfl

/-- Markers do not concern the counters. -/
@[simp]
theorem readCounters_markActive : readCounters (markActive m f) = readCounters f := rfl

@[simp]
theorem readCounters_markSuspect : readCounters (markSuspect m reason f) = readCounters f := rfl

@[simp]
theorem readCounters_clearSuspect : readCounters (clearSuspect f) = readCounters f := rfl

structure LaunchAssessment where
  hadStaleActive : Bool := false
  hadStaleSuspect : Bool := false
  autoDisabled : Bool := false
  activeUncleanCount : UInt32 := 0
  suspectUncleanCount : UInt32 := 0
  suspectReason : List UInt8 := []
  reason : List UInt8 := []
  deriving DecidableEq

/-- The number of launches after a crash outside of any operation from which on a module
    can be disabled. -/
def activeOnlyAutoDisableThreshold : UInt32 := 3

/-- The assessment of markers that were found, before anything is done about them. -/
def assessStale (allowActiveOnlyAutoDisable : Bool) (f : Files) : LaunchAssessment :=
  let counters := readCounters f
  if f.suspect.isSome then
    let suspectReason := readField (readTextFile f.suspect) (ascii "reason=")
    { hadStaleActive := f.active.isSome
      hadStaleSuspect := true
      activeUncleanCount := counters.activeUnclean
      suspectUncleanCount := counters.suspectUnclean + 1
      suspectReason := suspectReason
      reason := if isCleanupOnlySuspectReason suspectReason then []
        else ascii "unclean_exit_during_module_operation" }
  else
    { hadStaleActive := f.active.isSome
      activeUncleanCount := counters.activeUnclean + 1
      suspectUncleanCount := counters.suspectUnclean
      reason := if allowActiveOnlyAutoDisable ∧
          activeOnlyAutoDisableThreshold ≤ counters.activeUnclean + 1
        then ascii "repeated_unclean_driver_exit" else [] }

/-- `AssessLaunch`: what is found is counted; then the module is disabled, or what was
    found is removed. -/
def assessLaunch (m : ModuleId) (allowActiveOnlyAutoDisable : Bool) (f : Files) :
    LaunchAssessment × Files :=
  if f.active.isNone ∧ f.suspect.isNone then ({}, f)
  else
    let result := assessStale allowActiveOnlyAutoDisable f
    let f := writeCounters m ⟨result.activeUncleanCount, result.suspectUncleanCount⟩ f
    if result.reason ≠ [] then ({ result with autoDisabled := true }, markFault m result.reason f)
    else (result, clearRuntimeMarkers f)

/-- The operations of `assessLaunch`. -/
def assessLaunchOps (m : ModuleId) (allowActiveOnlyAutoDisable : Bool) (f : Files) : List FileOp :=
  if f.active.isNone ∧ f.suspect.isNone then []
  else
    let result := assessStale allowActiveOnlyAutoDisable f
    .write .counter (countersBody m ⟨result.activeUncleanCount, result.suspectUncleanCount⟩) ::
      if result.reason ≠ [] then markFaultOps m result.reason else clearRuntimeMarkersOps

theorem applyOps_assessLaunchOps (allowActiveOnlyAutoDisable : Bool) :
    applyOps (assessLaunchOps m allowActiveOnlyAutoDisable f) f =
      (assessLaunch m allowActiveOnlyAutoDisable f).2 := by
  simp only [assessLaunchOps, assessLaunch]
  split_ifs <;> rfl

/-! ## What was written is read -/

theorem readTextFile_some {body : List UInt8} (hpos : 0 < body.length)
    (hlen : body.length ≤ 65536) : readTextFile (some body) = body :=
  if_neg (by omega)

theorem ascii_newline : ascii "\n" = [10] := by decide

/-- A field is read up to the end of its line, if its key does not come before. -/
theorem readField_append {before key : List UInt8} (hkey : ¬key <:+: before ++ key.dropLast)
    (value rest : List UInt8) :
    readField (before ++ (key ++ (value ++ 10 :: rest))) key = value.takeWhile (· != 10) := by
  rw [readField, afterFirst_append hkey]
  exact takeWhile_ne_append 10 value rest

/-- The reason of a marker is read up to the end of its line, if the file is not too
    large. -/
theorem readField_markerBody :
    readField (readTextFile (some (markerBody m reason))) (ascii "reason=") =
      if (markerBody m reason).length > 65536 then [] else reason.takeWhile (· != 10) := by
  have hpos : 0 < (markerBody m reason).length := by
    simp [markerBody, ascii]
  split_ifs with hlen
  · rw [readTextFile, if_pos (.inr hlen)]
    rfl
  · have hkey : ¬ascii "reason=" <:+:
        (ascii "module=" ++ m.slug ++ ascii "\nflag=" ++ m.flagFile ++ [10]) ++
          (ascii "reason=").dropLast := by
      cases m <;> decide +kernel
    have hbody : markerBody m reason =
        (ascii "module=" ++ m.slug ++ ascii "\nflag=" ++ m.flagFile ++ [10]) ++
          (ascii "reason=" ++ (reason ++ [10])) := by
      have hreason : ascii "\nreason=" = 10 :: ascii "reason=" := by decide
      simp only [markerBody, hreason, ascii_newline, append_assoc, cons_append,
        nil_append]
    rw [readTextFile_some hpos (by omega), hbody, readField_append hkey]

/-- Digits are read with overflow. -/
theorem foldl_digits (ds : List UInt8) (acc : ℕ) :
    ds.foldl (fun out ch => out * 10 + UInt32.ofNat (ch.toNat - 48)) (UInt32.ofNat acc) =
      UInt32.ofNat (ds.foldl (fun acc c => 10 * acc + (c.toNat - 48)) acc) := by
  induction ds generalizing acc with
  | nil => rfl
  | cons c ds ih =>
    have hstep : UInt32.ofNat acc * 10 + UInt32.ofNat (c.toNat - 48) =
        UInt32.ofNat (10 * acc + (c.toNat - 48)) := by
      rw [UInt32.ofNat_add, UInt32.ofNat_mul, UInt32.mul_comm]
      rfl
    rw [foldl_cons, foldl_cons, hstep, ih]

/-- The crashes outside of any operation are read as they were written. -/
theorem readCounters_writeCounters (counters : CrashCounters) (f : Files) :
    (readCounters (writeCounters m counters f)).activeUnclean = counters.activeUnclean := by
  have hslug : m.slug.length ≤ 12 := by cases m <;> decide
  have hsize (n : UInt32) : (decimal n.toNat).length ≤ 10 :=
    length_decimal_le (by have := n.toNat_lt; omega)
  -- The key is found at its own line and not in the slug before it.
  have hkey : ¬ascii "active_unclean=" <:+:
      (ascii "module=" ++ m.slug ++ [10]) ++ (ascii "active_unclean=").dropLast := by
    cases m <;> decide +kernel
  obtain ⟨rest, hrest, hbody⟩ : ∃ rest, rest.length ≤ 100 ∧
      (writeCounters m counters f).counter = some ((ascii "module=" ++ m.slug ++ [10]) ++
        (ascii "active_unclean=" ++ (decimal counters.activeUnclean.toNat ++ 10 :: rest))) := by
    refine ⟨ascii "suspect_unclean=" ++ decimal counters.suspectUnclean.toNat ++ [10], ?_, ?_⟩
    · have := hsize counters.suspectUnclean
      simp [ascii]
      omega
    · have hactive : ascii "\nactive_unclean=" = 10 :: ascii "active_unclean=" := by decide
      have hsuspect : ascii "\nsuspect_unclean=" = 10 :: ascii "suspect_unclean=" := by decide
      simp only [writeCounters, countersBody, hactive, hsuspect, ascii_newline, append_assoc,
        cons_append, nil_append]
  have hdigits (c) (hc : c ∈ decimal counters.activeUnclean.toNat) : isDigit c = true :=
    isDigit_of_mem_decimal hc
  have hvalue : readField (readTextFile (writeCounters m counters f).counter)
      (ascii "active_unclean=") = decimal counters.activeUnclean.toNat := by
    rw [hbody, readTextFile_some, readField_append hkey]
    · refine takeWhile_ne_of_not_mem fun h => ?_
      exact absurd (hdigits _ h) (by decide)
    · simp [ascii]
    · have := hsize counters.activeUnclean
      simp [ascii]
      omega
  rw [readCounters, readUnsignedField, hvalue, takeWhile_eq_self_iff.2 hdigits]
  exact (foldl_digits _ 0).trans (by rw [← digitsValue, digitsValue_decimal, UInt32.ofNat_toNat])

end WKOpenVR.Safety
