import WKOpenVR.Machine
import Mathlib.Data.List.Infix

/-!
# The queued update

The overlay can queue an update: `QueueUpdateForSteamVrClose` starts a thread that
downloads and verifies the installer (`RunDownload`), persists the queued update in a
file, and then sets the install state to *ready*. `CancelQueuedUpdate` sets the flag
`cancelDownload`, deletes the file, and resets the install state.

The two run on different threads. They share the flags, the install state, which is
read and written under a mutex, and the file; what they do in between is local to their
thread. One action of the machine is one access to what is shared, by the thread of the
user interface or by the download, so that its runs are the interleavings of the two.
What the network and the file system answer to the download is part of the action.

The download polls the flag while it transfers the installer, and once more at the
end of the transfer. It does not look at the flag after that, nor if the installer is
in the cache already. A cancel that comes then is lost: the download writes the file
and sets the state to ready, after the cancel has returned. If none does, the cancel is
final: `cancel_final`.
-/

namespace WKOpenVR.Overlay.UpdateNotice

/-! ## The shared state -/

inductive UpdateInstallPhase
  | idle
  | downloading
  | ready
  | launching
  | failed
  deriving DecidableEq, Repr

structure UpdateInstallState where
  phase : UpdateInstallPhase := .idle
  queuedForSteamVrExit : Bool := false
  canQueue : Bool := false
  bytesDownloaded : ℤ := 0
  totalBytes : ℤ := 0
  targetTag : String := ""
  targetVersion : String := ""
  selectedModule : String := ""
  assetName : String := ""
  installerPath : String := ""
  expectedSha256 : String := ""
  statusMessage : String := ""
  errorMessage : String := ""
  deriving DecidableEq, Repr

structure UpdateNoticeState where
  available : Bool := false
  checkComplete : Bool := false
  latestTag : String := ""
  latestVersion : String := ""
  releaseUrl : String := ""
  errorMessage : String := ""
  install : UpdateInstallState := {}

/-- The persisted queue marker. -/
structure PendingFile where
  tag : String
  version : String
  repo : String
  module : String
  asset : String
  path : String
  sha256 : String
  deriving DecidableEq, Repr

def installStateFromPending (pending : PendingFile) : UpdateInstallState where
  phase := .ready
  queuedForSteamVrExit := true
  canQueue := false
  targetTag := pending.tag
  targetVersion := pending.version
  selectedModule := pending.module
  assetName := pending.asset
  installerPath := pending.path
  expectedSha256 := pending.sha256
  statusMessage := "Installer verified. It will start after SteamVR closes."

structure Shared where
  notice : UpdateNoticeState
  downloadInFlight : Bool
  cancelDownload : Bool
  /-- The file at the pending path, if there is one. -/
  pendingFile : Option PendingFile

namespace Shared

variable (sh : Shared)

def setInstallState (install : UpdateInstallState) : Shared :=
  { sh with notice := { sh.notice with install := install } }

def updateDownloadProgress (downloaded total : ℤ) : Shared :=
  sh.setInstallState
    { sh.notice.install with bytesDownloaded := downloaded, totalBytes := total }

end Shared

/-! ## The download -/

structure ModuleReleaseSpec where
  displayName : String
  repoName : String
  deriving DecidableEq, Repr

structure InstallerAsset where
  tagName : String := ""
  version : String := ""
  assetName : String := ""
  sha256 : String := ""
  sizeBytes : ℤ := 0
  deriving DecidableEq, Repr

def maxInstallerBytes : ℤ := 512 * 1024 * 1024

/-- One round of the transfer: the data received, and whether it was written. -/
inductive Chunk
  | finished
  | failed (error : String)
  | data (got : ℕ) (written : Bool)

/-- What the network and the file system answer to a step of the download. -/
structure Answers where
  /-- The release, or why it could not be read (`FetchInstallerAsset`). -/
  asset : Except String InstallerAsset := .ok {}
  /-- The updater cache, empty if it could not be created, and whether the path of the
      installer is under it. -/
  updaterDir : String := ""
  isUnderUpdaterDir : Bool := true
  /-- The cache holds an installer of the expected size and hash. -/
  cached : Bool := false
  /-- Why the transfer could not be started. -/
  connected : Except String Unit := .ok ()
  chunk : Chunk := .finished
  hashMatches : Bool := true
  sizeMatches : Bool := true
  moved : Bool := true
  persisted : Bool := true

/-- The asset and the path of its installer in the cache. -/
def Answers.target (a : Answers) : Except String (InstallerAsset × String) :=
  match a.asset with
  | .error err => .error (if err = "" then "could not read module release" else err)
  | .ok asset =>
    if a.updaterDir = "" then .error "could not create updater cache directory"
    else if a.isUnderUpdaterDir then .ok (asset, a.updaterDir ++ "\\" ++ asset.assetName)
    else .error "installer cache path was outside the updater cache"

/-- The points of `RunDownload`, and of `DownloadToFile`, at which it accesses what is
    shared, or is answered to. -/
inductive DownloadPc
  | copyInstall
  | fetchAsset
  | storeTarget
  | checkCached
  | openDownload
  | poll (downloaded : ℤ)
  | readChunk (downloaded : ℤ)
  | showProgress (downloaded : ℤ)
  | pollLast (downloaded : ℤ) (error : Option String)
  | showComplete
  | verifyDownload
  | verifyFinal
  | writePending
  | storeReady
  | failLoad (message : String)
  | failStore
  | clearInFlight
  | clearCancel
  deriving DecidableEq

/-- The thread of `RunDownload`, with its local variables. -/
structure Worker where
  pc : DownloadPc
  spec : ModuleReleaseSpec
  expectedTag : String
  install : UpdateInstallState := {}
  asset : InstallerAsset := {}
  finalPath : String := ""

namespace Worker

variable (w : Worker) (sh : Shared) (a : Answers)

/-- The thread continues at `pc`. -/
def goto (pc : DownloadPc) : Option Worker := some { w with pc := pc }

/-- `fail`, up to its first access to what is shared. -/
def fail (message : String) : Option Worker := w.goto (.failLoad message)

def failDownload (err : String) : Option Worker :=
  w.fail (if err = "" then "installer download failed" else err)

def pending : PendingFile where
  tag := w.asset.tagName
  version := w.asset.version
  repo := w.spec.repoName
  module := w.spec.displayName
  asset := w.asset.assetName
  path := w.finalPath
  sha256 := w.asset.sha256

/-- The point after a round of the transfer. -/
def receive (downloaded : ℤ) : DownloadPc :=
  match a.chunk with
  | .finished => .pollLast downloaded none
  | .failed err => .pollLast downloaded (some err)
  | .data got written =>
    if downloaded + got > w.asset.sizeBytes ∨ downloaded + got > maxInstallerBytes then
      .pollLast (downloaded + got) (some "installer download exceeded the expected size")
    else if written then .showProgress (downloaded + got)
    else .pollLast (downloaded + got) (some "installer cache write failed")

def effect : Shared :=
  match w.pc with
  | .storeTarget | .failStore => sh.setInstallState w.install
  | .showProgress downloaded => sh.updateDownloadProgress downloaded w.asset.sizeBytes
  | .showComplete => sh.updateDownloadProgress w.asset.sizeBytes w.asset.sizeBytes
  | .writePending => if a.persisted then { sh with pendingFile := some w.pending } else sh
  | .storeReady => sh.setInstallState (installStateFromPending w.pending)
  | .clearInFlight => { sh with downloadInFlight := false }
  | .clearCancel => { sh with cancelDownload := false }
  | _ => sh

/-- The thread after a step, if it has not ended. -/
def next : Option Worker :=
  match w.pc with
  | .copyInstall => some { w with pc := .fetchAsset, install := sh.notice.install }
  | .fetchAsset =>
    match a.target with
    | .error message => w.fail message
    | .ok (asset, finalPath) =>
      some { w with
        pc := .storeTarget
        asset := asset
        finalPath := finalPath
        install := { w.install with
          targetTag := asset.tagName
          targetVersion := asset.version
          assetName := asset.assetName
          expectedSha256 := asset.sha256
          installerPath := finalPath
          totalBytes := asset.sizeBytes
          statusMessage := "Downloading installer..." } }
  | .storeTarget => w.goto .checkCached
  | .checkCached => w.goto (if a.cached then .verifyFinal else .openDownload)
  | .openDownload =>
    if w.asset.sizeBytes ≤ 0 ∨ w.asset.sizeBytes > maxInstallerBytes then
      w.failDownload "installer size is outside the allowed range"
    else
      match a.connected with
      | .error err => w.failDownload err
      | .ok () => w.goto (.poll 0)
  | .poll downloaded =>
    w.goto (if sh.cancelDownload then .pollLast downloaded none else .readChunk downloaded)
  | .readChunk downloaded => w.goto (w.receive a downloaded)
  | .showProgress downloaded => w.goto (.poll downloaded)
  | .pollLast downloaded error =>
    if sh.cancelDownload then w.failDownload "download cancelled"
    else
      match error with
      | some err => w.failDownload err
      | none =>
        if downloaded = w.asset.sizeBytes then w.goto .showComplete
        else w.failDownload "installer download size did not match GitHub metadata"
  | .showComplete => w.goto .verifyDownload
  | .verifyDownload =>
    if !a.hashMatches then w.fail "downloaded installer SHA-256 did not match GitHub metadata"
    else if !a.moved then w.fail "could not move verified installer into the updater cache"
    else w.goto .verifyFinal
  | .verifyFinal =>
    if !a.hashMatches then w.fail "cached installer SHA-256 did not match after final write"
    else if !a.sizeMatches then w.fail "cached installer size did not match after final write"
    else w.goto .writePending
  | .writePending =>
    if a.persisted then w.goto .storeReady else w.fail "could not persist the update queue"
  | .storeReady => w.goto .clearInFlight
  | .failLoad message =>
    some { w with
      pc := .failStore
      install := { w.install with
        phase := if sh.cancelDownload then .idle else .failed
        queuedForSteamVrExit := false
        canQueue := true
        errorMessage := message
        statusMessage := "" } }
  | .failStore => w.goto .clearInFlight
  | .clearInFlight => w.goto .clearCancel
  | .clearCancel => none

end Worker

/-! ## The system -/

/-- An access of the user interface to what is shared, or to the thread. -/
inductive ClientOp
  | readNotice (spec : ModuleReleaseSpec)
  | acquire
  | clearCancel
  | join
  | storeDownloading (spec : ModuleReleaseSpec)
  | startWorker (spec : ModuleReleaseSpec) (tag : String)
  | storeCancel
  | deletePending
  | storeIdle
  deriving DecidableEq

/-- The requests of the user. The module the update is for is selected by the flags of
    the modules installed. -/
inductive Call
  | queue (spec : ModuleReleaseSpec)
  | cancel
  deriving DecidableEq

/-- `QueueUpdateForSteamVrClose`: what follows the first access depends on it. -/
def queueUpdateForSteamVrClose (spec : ModuleReleaseSpec) : List ClientOp := [.readNotice spec]

def cancelQueuedUpdate : List ClientOp := [.storeCancel, .deletePending, .storeIdle]

def Call.ops : Call → List ClientOp
  | .queue spec => queueUpdateForSteamVrClose spec
  | .cancel => cancelQueuedUpdate

/-- The shared state and the two threads. -/
structure System extends Shared where
  /-- What is left of the call of the user interface. -/
  client : List ClientOp
  /-- The last call made. -/
  lastCall : Option Call
  /-- The thread of the download, while it runs. -/
  worker : Option Worker

namespace System

variable (s : System)

/-- A step of the user interface: the operation `op`, followed by `ops`. -/
def clientStep (op : ClientOp) (ops : List ClientOp) : Option System :=
  match op with
  | .readNotice spec =>
    if !s.notice.available || s.notice.latestTag = "" then some { s with client := [] }
    else if s.notice.install.queuedForSteamVrExit ∧ s.notice.install.phase = .ready then
      some { s with client := [] }
    else
      some { s with client := [.acquire, .clearCancel, .join, .storeDownloading spec,
        .startWorker spec s.notice.latestTag] }
  | .acquire =>
    if s.downloadInFlight then some { s with client := [] }
    else some { s with downloadInFlight := true, client := ops }
  | .clearCancel => some { s with cancelDownload := false, client := ops }
  | .join => if s.worker.isNone then some { s with client := ops } else none
  | .storeDownloading spec =>
    some { s with
      toShared := s.setInstallState
        { phase := .downloading
          queuedForSteamVrExit := true
          canQueue := false
          selectedModule := spec.displayName
          statusMessage := "Downloading installer..." }
      client := ops }
  | .startWorker spec tag =>
    some { s with
      worker := some { pc := .copyInstall, spec := spec, expectedTag := tag }
      client := ops }
  | .storeCancel => some { s with cancelDownload := true, client := ops }
  | .deletePending => some { s with pendingFile := none, client := ops }
  | .storeIdle =>
    some { s with toShared := s.setInstallState { canQueue := true }, client := ops }

end System

inductive Action
  | call (c : Call)
  | client
  | worker (a : Answers)

/-- The user interface makes one call at a time; the download runs concurrently. -/
def machine : Machine System Action where
  init := {s | s.client = [] ∧ s.lastCall = none ∧ s.worker = none}
  step s
    | .call c =>
      match s.client with
      | [] => some { s with client := c.ops, lastCall := some c }
      | _ :: _ => none
    | .client =>
      match s.client with
      | [] => none
      | op :: ops => s.clientStep op ops
    | .worker a =>
      match s.worker with
      | none => none
      | some w => some { s with toShared := w.effect s.toShared a, worker := w.next s.toShared a }

/-! ## The stages of a download -/

/-- A download *polls* as long as it has a look at the flag ahead, on its way to the
    file. It is *committed* from then on, until the file is written, and has *written*
    it until the state is ready. A download that has failed is ending, too. -/
inductive Stage
  | polling
  | committed
  | written
  | ending
  deriving DecidableEq

def DownloadPc.stage : DownloadPc → Stage
  | .copyInstall | .fetchAsset | .storeTarget | .checkCached | .openDownload | .poll _
  | .readChunk _ | .showProgress _ | .pollLast _ _ => .polling
  | .showComplete | .verifyDownload | .verifyFinal | .writePending => .committed
  | .storeReady => .written
  | .failLoad _ | .failStore | .clearInFlight | .clearCancel => .ending

namespace Worker

variable {w w' : Worker} {sh : Shared} {a : Answers}

/-- The stage a step may lead to. A download commits itself at the last poll, if it is
    not cancelled, or if it finds the installer in the cache. -/
def Moves (sh : Shared) (a : Answers) (w : Worker) : Stage → Prop
  | .polling => w.pc.stage = .polling
  | .committed => w.pc.stage = .committed ∨ w.pc.stage = .polling ∧
      (sh.cancelDownload = true → w.pc = .checkCached ∧ a.cached = true)
  | .written => w.pc.stage = .written ∨ w.pc.stage = .committed
  | .ending => True

theorem stage_receive (n : ℤ) : (w.receive a n).stage = .polling := by
  unfold receive
  split <;> try rfl
  split
  · rfl
  · split <;> rfl

theorem moves_goto {pc : DownloadPc} (h : w' ∈ w.goto pc) (hpc : Moves sh a w pc.stage) :
    Moves sh a w w'.pc.stage := by
  cases h
  exact hpc

theorem moves_fail {m : String} (h : w' ∈ w.fail m) : Moves sh a w w'.pc.stage :=
  moves_goto h trivial

theorem moves_of_next (h : w' ∈ w.next sh a) : Moves sh a w w'.pc.stage := by
  obtain ⟨pc, spec, tag, install, asset, path⟩ := w
  cases pc <;> simp only [next] at h
  case copyInstall => cases h; rfl
  case fetchAsset =>
    split at h
    · exact moves_fail h
    · cases h; rfl
  case storeTarget => exact moves_goto h rfl
  case checkCached =>
    refine moves_goto h ?_
    split
    · rename_i hcached
      exact .inr ⟨rfl, fun _ => ⟨rfl, hcached⟩⟩
    · rfl
  case openDownload =>
    split at h
    · exact moves_fail h
    · split at h
      · exact moves_fail h
      · exact moves_goto h rfl
  case poll => exact moves_goto h (by split <;> rfl)
  case readChunk => exact moves_goto h (by rw [stage_receive]; rfl)
  case showProgress => exact moves_goto h rfl
  -- The download commits itself here, unless it is cancelled.
  case pollLast =>
    split at h
    · exact moves_fail h
    · rename_i hcancel
      split at h
      · exact moves_fail h
      · split at h
        · exact moves_goto h (.inr ⟨rfl, fun hc => absurd hc hcancel⟩)
        · exact moves_fail h
  case showComplete => exact moves_goto h (.inl rfl)
  case verifyDownload | verifyFinal =>
    split at h
    · exact moves_fail h
    · split at h
      · exact moves_fail h
      · exact moves_goto h (.inl rfl)
  case writePending =>
    split at h
    · exact moves_goto h (.inr rfl)
    · exact moves_fail h
  case failLoad => cases h; trivial
  case storeReady | failStore | clearInFlight => exact moves_goto h trivial
  case clearCancel => cases h

/-- Only a committed download writes the file. -/
theorem effect_pendingFile (h : w.pc.stage ≠ .committed) :
    (w.effect sh a).pendingFile = sh.pendingFile := by
  obtain ⟨pc, spec, tag, install, asset, path⟩ := w
  cases pc <;> first | rfl | exact absurd rfl h

/-- Only the last step of a download clears the flag. -/
theorem effect_cancelDownload (h : w' ∈ w.next sh a) :
    (w.effect sh a).cancelDownload = sh.cancelDownload := by
  obtain ⟨pc, spec, tag, install, asset, path⟩ := w
  cases pc <;> try rfl
  case writePending => simp only [effect]; split <;> rfl
  case clearCancel => cases h

/-- The local copy of the install state is not ready, nor is what it will be copied from. -/
def NotReady (sh : Shared) (w : Worker) : Prop :=
  w.install.phase ≠ .ready ∧ (w.pc = .copyInstall → sh.notice.install.phase ≠ .ready)

/-- Only a download that has written the file sets the state to ready. -/
theorem effect_phase (hw : NotReady sh w) (h : w.pc.stage ≠ .written)
    (hphase : sh.notice.install.phase ≠ .ready) :
    (w.effect sh a).notice.install.phase ≠ .ready := by
  obtain ⟨pc, spec, tag, install, asset, path⟩ := w
  cases pc <;> first | exact hphase | exact hw.1 | exact absurd rfl h | skip
  simp only [effect]
  split <;> exact hphase

theorem pc_receive (n : ℤ) : w.receive a n ≠ .copyInstall := by
  unfold receive
  split <;> try simp
  split
  · simp
  · split <;> simp

theorem NotReady.next (hw : NotReady sh w) (h : w' ∈ w.next sh a) :
    NotReady (w.effect sh a) w' := by
  have hcopy := pc_receive (w := w) (a := a)
  obtain ⟨pc, spec, tag, install, asset, path⟩ := w
  -- The copy is taken at the first step, and its phase changes only if the download fails.
  cases pc <;> simp only [Worker.next, goto, fail, failDownload] at h <;>
    (repeat' split at h) <;> cases h <;> simp_all [NotReady]

end Worker

/-! ## Cancelling -/

/-- The cancel is heeded by the download: its file is not deleted while the download is
    committed to write it, the state is not reset while the download is about to set it
    to ready, and a cancelled download does not take the installer from the cache. -/
def Heeded (s : System) : Action → Prop
  | .call _ => True
  | .client => ∀ w ∈ s.worker,
      (s.client.head? = some .deletePending → w.pc.stage ≠ .committed) ∧
      (s.client.head? = some .storeIdle → w.pc.stage ≠ .written)
  | .worker a => ∀ w ∈ s.worker,
      w.pc = .checkCached → a.cached = true → s.cancelDownload = false

instance : DecidableRel Heeded
  | _, .call _ => inferInstanceAs (Decidable True)
  | s, .client => inferInstanceAs (Decidable (∀ w ∈ s.worker,
      (s.client.head? = some .deletePending → w.pc.stage ≠ .committed) ∧
      (s.client.head? = some .storeIdle → w.pc.stage ≠ .written)))
  | s, .worker a => inferInstanceAs (Decidable (∀ w ∈ s.worker,
      w.pc = .checkCached → a.cached = true → s.cancelDownload = false))

namespace System

variable (s : System)

/-- A download that still polls will see the flag. -/
def Polled : Prop :=
  ∀ w ∈ s.worker, w.pc.stage = .polling → s.cancelDownload = true

/-- The file is deleted, and no download is committed to write it. -/
def Deleted : Prop :=
  s.pendingFile = none ∧ ∀ w ∈ s.worker, w.pc.stage ≠ .committed

/-- The state is reset, and no download is about to set it to ready. -/
def Reset : Prop :=
  s.notice.install.phase ≠ .ready ∧ ∀ w ∈ s.worker, w.pc.stage ≠ .written

/-- What holds at each point of the calls of the user interface. -/
inductive Outline (s : System) : Option Call → List ClientOp → Prop
  | idle : Outline s none []
  | queued (spec : ModuleReleaseSpec) : Outline s (some (.queue spec)) []
  | reading (spec : ModuleReleaseSpec) : Outline s (some (.queue spec)) [.readNotice spec]
  | acquiring (spec : ModuleReleaseSpec) (tag : String) : Outline s (some (.queue spec))
      [.acquire, .clearCancel, .join, .storeDownloading spec, .startWorker spec tag]
  | acquired (spec : ModuleReleaseSpec) (tag : String) : Outline s (some (.queue spec))
      [.clearCancel, .join, .storeDownloading spec, .startWorker spec tag]
  | joining (spec : ModuleReleaseSpec) (tag : String) : Outline s (some (.queue spec))
      [.join, .storeDownloading spec, .startWorker spec tag]
  | joined (spec : ModuleReleaseSpec) (tag : String) (hw : s.worker = none) :
      Outline s (some (.queue spec)) [.storeDownloading spec, .startWorker spec tag]
  | starting (spec : ModuleReleaseSpec) (tag : String) (hw : s.worker = none)
      (hphase : s.notice.install.phase ≠ .ready) :
      Outline s (some (.queue spec)) [.startWorker spec tag]
  | cancelling : Outline s (some .cancel) [.storeCancel, .deletePending, .storeIdle]
  | requested (hp : s.Polled) : Outline s (some .cancel) [.deletePending, .storeIdle]
  | deleted (hp : s.Polled) (hd : s.Deleted) : Outline s (some .cancel) [.storeIdle]
  | cancelled (hp : s.Polled) (hd : s.Deleted) (hr : s.Reset) : Outline s (some .cancel) []

structure Inv (s : System) : Prop where
  outline : s.Outline s.lastCall s.client
  notReady : ∀ w ∈ s.worker, w.NotReady s.toShared

end System

section Worker

variable {s : System} {w : Worker} {a : Answers}

/-- The system after a step of the download. -/
def System.workerStep (s : System) (w : Worker) (a : Answers) : System :=
  { s with toShared := w.effect s.toShared a, worker := w.next s.toShared a }

namespace System

/-! The download does not interfere with what the outline states. -/

theorem Polled.workerStep (hp : s.Polled) (hw : w ∈ s.worker) : (s.workerStep w a).Polled := by
  intro w' hw' hstage
  have hmoves := Worker.moves_of_next hw'
  rw [hstage] at hmoves
  exact (Worker.effect_cancelDownload hw').trans (hp w hw hmoves)

theorem Deleted.workerStep (hd : s.Deleted) (hp : s.Polled) (hw : w ∈ s.worker)
    (hC : Heeded s (.worker a)) : (s.workerStep w a).Deleted := by
  refine ⟨(Worker.effect_pendingFile (hd.2 w hw)).trans hd.1, fun w' hw' hstage => ?_⟩
  have hmoves := Worker.moves_of_next hw'
  rw [hstage] at hmoves
  obtain hcommitted | ⟨hpolling, hcommits⟩ := hmoves
  · exact hd.2 w hw hcommitted
  · -- The flag is set, so that the download could only have found its installer in the cache.
    have hcancel := hp w hw hpolling
    obtain ⟨hpc, hcached⟩ := hcommits hcancel
    exact absurd hcancel (by simp [hC w hw hpc hcached])

theorem Reset.workerStep (hr : s.Reset) (hd : s.Deleted) (hw : w ∈ s.worker)
    (hnot : w.NotReady s.toShared) : (s.workerStep w a).Reset := by
  refine ⟨Worker.effect_phase hnot (hr.2 w hw) hr.1, fun w' hw' hstage => ?_⟩
  have hmoves := Worker.moves_of_next hw'
  rw [hstage] at hmoves
  exact hmoves.elim (hr.2 w hw) (hd.2 w hw)

theorem Outline.workerStep {c : Option Call} {ops : List ClientOp} (hout : s.Outline c ops)
    (hnot : w.NotReady s.toShared) (hw : s.worker = some w) (hC : Heeded s (.worker a)) :
    (s.workerStep w a).Outline c ops := by
  cases hout with
  | idle => exact .idle
  | queued spec => exact .queued spec
  | reading spec => exact .reading spec
  | acquiring spec tag => exact .acquiring spec tag
  | acquired spec tag => exact .acquired spec tag
  | joining spec tag => exact .joining spec tag
  | joined spec tag hnone => simp [hnone] at hw
  | starting spec tag hnone => simp [hnone] at hw
  | cancelling => exact .cancelling
  | requested hp => exact .requested (hp.workerStep hw)
  | deleted hp hd => exact .deleted (hp.workerStep hw) (hd.workerStep hp hw hC)
  | cancelled hp hd hr =>
    exact .cancelled (hp.workerStep hw) (hd.workerStep hp hw hC) (hr.workerStep hd hw hnot)

theorem Inv.workerStep (hI : s.Inv) (hw : s.worker = some w) (hC : Heeded s (.worker a)) :
    (s.workerStep w a).Inv where
  outline := hI.outline.workerStep (hI.notReady w hw) hw hC
  notReady := fun _ hw' => (hI.notReady w hw).next hw'

end System

end Worker

/-- A step of the user interface goes to the next point of the outline. -/
theorem System.Inv.clientStep {s s' : System} {op : ClientOp} {ops : List ClientOp} (hI : s.Inv)
    (hclient : s.client = op :: ops) (hC : Heeded s .client)
    (hs : s.clientStep op ops = some s') : s'.Inv := by
  obtain ⟨hout, hnot⟩ := hI
  obtain ⟨c, hc⟩ : ∃ c, s.lastCall = c := ⟨_, rfl⟩
  rw [hc, hclient] at hout
  simp only [Heeded, hclient, List.head?_cons, Option.some.injEq] at hC
  cases hout with
  | reading spec =>
    simp only [System.clientStep] at hs
    split at hs
    · cases hs; exact ⟨hc ▸ .queued spec, hnot⟩
    · split at hs
      · cases hs; exact ⟨hc ▸ .queued spec, hnot⟩
      · cases hs; exact ⟨hc ▸ .acquiring spec _, hnot⟩
  | acquiring spec tag =>
    simp only [System.clientStep] at hs
    split at hs
    · cases hs; exact ⟨hc ▸ .queued spec, hnot⟩
    · cases hs; exact ⟨hc ▸ .acquired spec tag, hnot⟩
  | acquired spec tag => cases hs; exact ⟨hc ▸ .joining spec tag, hnot⟩
  | joining spec tag =>
    simp only [System.clientStep, Option.isNone_iff_eq_none] at hs
    split at hs
    · rename_i hnone
      cases hs; exact ⟨hc ▸ .joined spec tag hnone, hnot⟩
    · cases hs
  | joined spec tag hnone =>
    cases hs
    exact ⟨hc ▸ .starting spec tag hnone (by simp [Shared.setInstallState]), by simp [hnone]⟩
  | starting spec tag hnone hphase =>
    cases hs
    refine ⟨hc ▸ .queued spec, ?_⟩
    rintro w ⟨⟩
    exact ⟨by simp, fun _ => hphase⟩
  | cancelling => cases hs; exact ⟨hc ▸ .requested fun _ _ _ => rfl, hnot⟩
  -- The download is not committed while its file is deleted (`Heeded`).
  | requested hp =>
    cases hs
    exact ⟨hc ▸ .deleted hp ⟨rfl, fun w hw => (hC w hw).1 rfl⟩, hnot⟩
  | deleted hp hd =>
    cases hs
    have hphase : (s.setInstallState { canQueue := true }).notice.install.phase ≠ .ready := by
      simp [Shared.setInstallState]
    exact ⟨hc ▸ .cancelled hp hd ⟨hphase, fun w hw => (hC w hw).2 rfl⟩,
      fun w hw => ⟨(hnot w hw).1, fun _ => hphase⟩⟩

theorem inv_of_runIf {as : List Action} {s : System} (h : machine.RunIf Heeded as s) : s.Inv := by
  refine h.invariant ?_ ?_
  · rintro s ⟨hclient, hlast, hworker⟩
    exact ⟨by rw [hclient, hlast]; exact .idle, by simp [hworker]⟩
  · intro s a s' hI hC hs
    cases a with
    | call c =>
      simp only [machine] at hs
      split at hs
      · cases hs
        refine ⟨?_, hI.notReady⟩
        cases c with
        | queue spec => exact .reading spec
        | cancel => exact .cancelling
      · cases hs
    | client =>
      simp only [machine] at hs
      split at hs
      · cases hs
      · rename_i hclient
        exact hI.clientStep hclient hC hs
    | worker a =>
      simp only [machine] at hs
      split at hs
      · cases hs
      · rename_i w hw
        cases hs
        exact hI.workerStep hw hC

/-- A cancel that is heeded is final: after `CancelQueuedUpdate` has returned, and as
    long as no update is queued again, there is no pending file, and the install state is
    not ready, whatever the download does. -/
theorem cancel_final {as : List Action} {s : System} (h : machine.RunIf Heeded as s)
    (hlast : s.lastCall = some .cancel) (hreturned : s.client = []) :
    s.notice.install.phase ≠ .ready ∧ s.pendingFile = none := by
  have hout := (inv_of_runIf h).outline
  rw [hlast, hreturned] at hout
  cases hout with
  | cancelled hp hd hr => exact ⟨hr.1, hd.1⟩

/-- An update is available, and none is queued. -/
def available : System where
  notice := { available := true, checkComplete := true, latestTag := "v2026.5.13.1" }
  downloadInFlight := false
  cancelDownload := false
  pendingFile := none
  client := []
  lastCall := none
  worker := none

/-- The update is queued, and its download reads the release and starts the transfer. -/
def queueAndDownload : List Action :=
  .call (.queue ⟨"Space Calibrator", "WKOpenVR-SpaceCalibrator"⟩) ::
    List.replicate 6 Action.client ++
  [Action.worker {}, .worker { asset := .ok { sizeBytes := 1 }, updaterDir := "updater" },
    .worker {}, .worker {}, .worker {}]

theorem cancel_final_while_polling : ∃ as s, machine.RunIf Heeded as s ∧
    (s.worker.isNone ∧ s.lastCall = some .cancel ∧ s.client = []) ∧
    s.notice.install.phase ≠ .ready ∧ s.pendingFile = none := by
  refine ⟨queueAndDownload ++ .call .cancel :: List.replicate 3 .client ++
    List.replicate 6 (.worker {}), machine.exists_runIf_of (P := fun s => s.worker.isNone ∧
      s.lastCall = some .cancel ∧ s.client = []) available ⟨rfl, rfl, rfl⟩ (by decide +kernel) ?_⟩
  exact fun s hrun hs => ⟨hs, cancel_final hrun hs.2.1 hs.2.2⟩

/-- Here the update is cancelled after the transfer: the download does not look at the
    flag again, and has persisted the update in the end. -/
theorem cancelled_update_ready : ∃ as s, machine.Run as s ∧ s.lastCall = some .cancel ∧
    s.client = [] ∧ s.worker.isNone ∧
    s.notice.install.phase = .ready ∧ s.pendingFile.isSome :=
  ⟨queueAndDownload ++ [.worker {}, .worker { chunk := .data 1 true }, .worker {}, .worker {},
      .worker { chunk := .finished }, .worker {}, .worker {}] ++
      .call .cancel :: List.replicate 3 .client ++ List.replicate 6 (.worker {}),
    machine.exists_runIf available ⟨rfl, rfl, rfl⟩ (by decide +kernel)⟩

end WKOpenVR.Overlay.UpdateNotice
