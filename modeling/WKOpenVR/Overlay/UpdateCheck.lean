import WKOpenVR.Overlay.UpdateNotice
import WKOpenVR.Overlay.VersionStamp

/-!
# The update check

`RunCheck` asks for the latest release on a thread of its own. It copies the install state, and
writes the whole notice, with the copy in it, when the answer is there. Between the two it does
not hold the mutex.

Here the check runs beside the user interface and the download of
`WKOpenVR.Overlay.UpdateNotice`. The calls that start the check (`StartUpdateCheck`) and that
launch the installer (`LaunchQueuedUpdateAfterProcessExit`) write the install state too. One
action of the machine is again one access to what is shared.

What another action writes to the install state in between is lost: the check puts back the
copy. If none changes the install state in between, a check has the effect it would have if it
were done at once (`store_eq_checkedNotice`).
-/

namespace WKOpenVR.Overlay.UpdateCheck

open Text UpdateNotice

/-! ## The check -/

/-- What `HttpGet` and `ParseReleaseJson` give. -/
inductive Fetch
  | empty (err : String)
  | invalid (err : String)
  | release (tagName htmlUrl : String)

def isDevVersionStamp (stamp : List UInt8) : Bool := stamp.contains 45

variable (version : List UInt8)

/-- `ClearStalePendingIfCurrent`: whether the file is deleted, and the install state. -/
def clearStalePendingIfCurrent (latestTag : String)
    (install : UpdateInstallState) : Bool × UpdateInstallState :=
  if !install.queuedForSteamVrExit || install.targetTag = "" then (false, install)
  else if install.targetTag = latestTag then (false, install)
  else if isRemoteVersionNewer (ascii latestTag) (ascii install.targetTag) ||
      !isRemoteVersionNewer (ascii install.targetTag) version then (true, {})
  else (false, install)

/-- A tag without its `v`. -/
def versionOfTag (tag : String) : String :=
  if tag.toList.head? = some 'v' then String.ofList tag.toList.tail else tag

/-- What `RunCheck` makes of the install state, and of the answer: whether it deletes the file,
    and what it writes. For a development version there is no answer. -/
def checkedNotice (installSnapshot : UpdateInstallState) : Option Fetch → Bool × UpdateNoticeState
  | none => (false, { checkComplete := true, install := installSnapshot })
  | some (.empty err) =>
    (false, { checkComplete := true, install := installSnapshot,
              errorMessage := if err = "" then "empty response" else err })
  | some (.invalid err) =>
    (false, { checkComplete := true, install := installSnapshot, errorMessage := err })
  | some (.release tagName htmlUrl) =>
    if tagName = "" then
      (false, { checkComplete := true, install := installSnapshot, releaseUrl := htmlUrl,
                errorMessage := "GitHub response missing tag_name" })
    else
      let available := isRemoteVersionNewer (ascii tagName) version
      let (deletes, install) := clearStalePendingIfCurrent version tagName installSnapshot
      (deletes,
        { available
          checkComplete := true
          latestTag := tagName
          latestVersion := versionOfTag tagName
          releaseUrl := htmlUrl
          install := if available ∧ install.phase = .idle then { install with canQueue := true }
            else install })

/-- The points of `RunCheck` at which it accesses what is shared, or is answered to. -/
inductive CheckPc
  | copyInstall
  | fetch
  | deletePending
  | store
  | clearInFlight
  deriving DecidableEq

/-- The install state has been copied, and is to be written back. -/
def CheckPc.copied : CheckPc → Bool
  | .copyInstall | .clearInFlight => false
  | .fetch | .deletePending | .store => true

/-- The thread of `RunCheck`, with its local variables. -/
structure CheckWorker where
  pc : CheckPc
  installSnapshot : UpdateInstallState := {}
  next : UpdateNoticeState := {}

/-! ## The system -/

/-- An access of `StartUpdateCheck`, or of `LaunchQueuedUpdateAfterProcessExit`. -/
inductive OverlayOp
  | readPending
  | storePending (pending : PendingFile)
  | acquireCheck
  | joinCheck
  | startCheck
  | readInstall
  | storeLaunching (install : UpdateInstallState)

inductive OverlayCall
  | startUpdateCheck
  | launchQueuedUpdate

def OverlayCall.ops : OverlayCall → List OverlayOp
  | .startUpdateCheck => [.readPending, .acquireCheck, .joinCheck, .startCheck]
  | .launchQueuedUpdate => [.readInstall]

/-- What the file system and the system answer to the user interface: whether the installer is
    in the updater cache, with the hash it should have, and whether the helper has started. -/
structure OverlayAnswers where
  installerInCache : Bool := true
  hashMatches : Bool := true
  helperStarted : Bool := true

structure CheckSystem extends System where
  /-- What is left of the call of the user interface. -/
  overlay : List OverlayOp
  checkInFlight : Bool
  /-- The thread of the check, while it runs. -/
  check : Option CheckWorker

inductive CheckAction
  /-- An action of the download, or of a request for it. -/
  | base (a : Action)
  | call (c : OverlayCall)
  | overlay (a : OverlayAnswers)
  | check (fetch : Fetch)

def tryLoadPending (file : Option PendingFile) (a : OverlayAnswers) : Option PendingFile :=
  file.filter fun pending =>
    pending.version ≠ "" && pending.repo ≠ "" && pending.asset ≠ "" && pending.path ≠ "" &&
      pending.sha256 ≠ "" && a.installerInCache

namespace CheckSystem

variable (s : CheckSystem)

/-- A step of the user interface: the operation `op`, followed by `ops`. -/
def overlayStep (a : OverlayAnswers) (op : OverlayOp) (ops : List OverlayOp) :
    Option CheckSystem :=
  match op with
  | .readPending =>
    match tryLoadPending s.pendingFile a with
    | some pending => some { s with overlay := .storePending pending :: ops }
    | none => some { s with overlay := ops }
  | .storePending pending =>
    some { s with
      toShared := s.setInstallState (installStateFromPending pending)
      overlay := ops }
  | .acquireCheck =>
    if s.checkInFlight then some { s with overlay := [] }
    else some { s with checkInFlight := true, overlay := ops }
  | .joinCheck => if s.check.isNone then some { s with overlay := ops } else none
  | .startCheck => some { s with check := some { pc := .copyInstall }, overlay := ops }
  | .readInstall =>
    let install := s.notice.install
    if !install.queuedForSteamVrExit || install.phase ≠ .ready then some { s with overlay := [] }
    else if a.installerInCache && a.hashMatches && a.helperStarted then
      some { s with overlay := [.storeLaunching
        { install with
          phase := .launching
          statusMessage := "Installer will open after WKOpenVR exits." }] }
    else some { s with overlay := [] }
  | .storeLaunching install => some { s with toShared := s.setInstallState install, overlay := ops }

def checkStep (version : List UInt8) (fetch : Fetch) (w : CheckWorker) : CheckSystem :=
  match w.pc with
  | .copyInstall =>
    let installSnapshot := s.notice.install
    if isDevVersionStamp version then
      { s with check := some ⟨.store, installSnapshot,
          (checkedNotice version installSnapshot none).2⟩ }
    else { s with check := some ⟨.fetch, installSnapshot, { install := installSnapshot }⟩ }
  | .fetch =>
    let (deletes, next) := checkedNotice version w.installSnapshot (some fetch)
    { s with check := some ⟨if deletes then .deletePending else .store, w.installSnapshot, next⟩ }
  | .deletePending =>
    { s with
      toShared := { s.toShared with pendingFile := none }
      check := some { w with pc := .store } }
  | .store =>
    { s with
      toShared := { s.toShared with notice := w.next }
      check := some { w with pc := .clearInFlight } }
  | .clearInFlight => { s with checkInFlight := false, check := none }

end CheckSystem

/-- The user interface makes one call at a time; the download and the check run concurrently. -/
def machine (version : List UInt8) : Machine CheckSystem CheckAction where
  init := {s | s.toSystem ∈ UpdateNotice.machine.init ∧ s.overlay = [] ∧ s.checkInFlight = false ∧
    s.check = none}
  step s
    | .base a =>
      match s.overlay with
      | [] => (UpdateNotice.machine.step s.toSystem a).map fun t => { s with toSystem := t }
      | _ :: _ =>
        -- The user interface is in another call, the download is not.
        match a with
        | .worker _ =>
          (UpdateNotice.machine.step s.toSystem a).map fun t => { s with toSystem := t }
        | _ => none
    | .call c =>
      match s.client, s.overlay with
      | [], [] => some { s with overlay := c.ops }
      | _, _ => none
    | .overlay a =>
      match s.overlay with
      | [] => none
      | op :: ops => s.overlayStep a op ops
    | .check fetch => s.check.map (s.checkStep version fetch)

/-! ## Undisturbed checks -/

section Check

variable {version} {s s' : CheckSystem}

/-- No other action changes the install state between the copy and the store of a check. -/
def Undisturbed (version : List UInt8) (s : CheckSystem) : CheckAction → Prop
  | .check _ => True
  | a => ∀ w ∈ s.check, w.pc.copied = true →
      ∀ s' ∈ (machine version).step s a, s'.notice.install = s.notice.install

instance (version : List UInt8) : DecidableRel (Undisturbed version)
  | _, .check _ => inferInstanceAs (Decidable True)
  | s, .base a => inferInstanceAs (Decidable (∀ w ∈ s.check, w.pc.copied = true →
      ∀ s' ∈ (machine version).step s (.base a), s'.notice.install = s.notice.install))
  | s, .call c => inferInstanceAs (Decidable (∀ w ∈ s.check, w.pc.copied = true →
      ∀ s' ∈ (machine version).step s (.call c), s'.notice.install = s.notice.install))
  | s, .overlay a => inferInstanceAs (Decidable (∀ w ∈ s.check, w.pc.copied = true →
      ∀ s' ∈ (machine version).step s (.overlay a), s'.notice.install = s.notice.install))

/-- The check has the current install state, and has computed what it makes of it. -/
def Current (version : List UInt8) (s : CheckSystem) : Prop :=
  ∀ w ∈ s.check, w.pc.copied = true → w.installSnapshot = s.notice.install ∧
    (w.pc ≠ .fetch → ∃ fetch, w.next = (checkedNotice version w.installSnapshot fetch).2)

variable {a : CheckAction}

/-- The other actions leave the check alone, or start it. -/
theorem check_of_step (ha : ∀ fetch, a ≠ .check fetch) (h : (machine version).step s a = some s') :
    s'.check = s.check ∨ s'.check = some { pc := .copyInstall } := by
  -- An action of the notice is taken in the underlying system, which does not hold the check.
  have hbase {b : Action} {t : CheckSystem} (ht : t ∈ (UpdateNotice.machine.step s.toSystem b).map
      fun t => { s with toSystem := t }) : t.check = s.check := by
    obtain ⟨t', -, rfl⟩ := Option.map_eq_some_iff.1 ht
    rfl
  cases a with
  | check fetch => exact absurd rfl (ha fetch)
  | base b =>
    simp only [machine] at h
    split at h
    · exact .inl (hbase h)
    · split at h
      · exact .inl (hbase h)
      · cases h
  | call c =>
    simp only [machine] at h
    split at h
    · cases h
      exact .inl rfl
    · cases h
  | overlay a =>
    simp only [machine] at h
    split at h
    · cases h
    · rename_i op ops _
      cases op with
      | startCheck =>
        cases h
        exact .inr rfl
      | readPending | acquireCheck =>
        simp only [CheckSystem.overlayStep] at h
        split at h <;> obtain rfl := Option.some.inj h <;> exact .inl rfl
      | joinCheck =>
        simp only [CheckSystem.overlayStep] at h
        split at h
        · cases h
          exact .inl rfl
        · cases h
      | readInstall =>
        simp only [CheckSystem.overlayStep] at h
        split at h
        · cases h
          exact .inl rfl
        · split at h <;> obtain rfl := Option.some.inj h <;> exact .inl rfl
      | storePending _ | storeLaunching _ =>
        cases h
        exact .inl rfl

theorem Current.checkStep (h : Current version s) {w : CheckWorker} (hw : w ∈ s.check)
    (fetch : Fetch) : Current version (s.checkStep version fetch w) := by
  intro w' hw' hcopied
  have hcurrent := h w hw
  unfold CheckSystem.checkStep at hw' ⊢
  cases hpc : w.pc with
  | copyInstall =>
    simp only [hpc] at hw' ⊢
    split_ifs at hw' ⊢ with hdev
    · cases hw'
      exact ⟨rfl, fun _ => ⟨none, rfl⟩⟩
    · cases hw'
      exact ⟨rfl, fun hne => absurd rfl hne⟩
  | fetch =>
    simp only [hpc] at hw' ⊢
    cases hw'
    exact ⟨(hcurrent (by rw [hpc]; rfl)).1, fun _ => ⟨some fetch, rfl⟩⟩
  | deletePending =>
    simp only [hpc] at hw' ⊢
    cases hw'
    obtain ⟨hsnapshot, hnext⟩ := hcurrent (by rw [hpc]; rfl)
    exact ⟨hsnapshot, fun _ => hnext (by rw [hpc]; decide)⟩
  | store =>
    simp only [hpc] at hw'
    cases hw'
    cases hcopied
  | clearInFlight =>
    simp only [hpc] at hw'
    cases hw'

theorem Current.step (h : Current version s) (hC : Undisturbed version s a)
    (hstep : (machine version).step s a = some s') : Current version s' := by
  have hother (ha : ∀ fetch, a ≠ .check fetch)
      (hinstall : ∀ w ∈ s.check, w.pc.copied = true → s'.notice.install = s.notice.install) :
      Current version s' := by
    intro w hw hcopied
    rcases check_of_step ha hstep with hsame | hstart
    · rw [hsame] at hw
      rw [hinstall w hw hcopied]
      exact h w hw hcopied
    · -- A check that starts has not copied anything.
      rw [hstart] at hw
      cases hw
      cases hcopied
  cases a with
  | check fetch =>
    obtain ⟨w, hw, rfl⟩ := Option.map_eq_some_iff.1 hstep
    exact h.checkStep hw fetch
  | base _ | call _ | overlay _ =>
    exact hother (by simp) fun w hw hcopied => hC w hw hcopied s' hstep

/-- Where no other action changes the install state between the copy and the store of a check,
    the check has the effect of one that is done at once, in the state of the store. -/
theorem store_eq_checkedNotice {as : List CheckAction}
    (h : (machine version).RunIf (Undisturbed version) as s) {w : CheckWorker}
    (hw : s.check = some w) (hpc : w.pc = .store) {f : Fetch}
    (hstep : (machine version).step s (.check f) = some s') :
    ∃ fetch, s'.notice = (checkedNotice version s.notice.install fetch).2 := by
  have hcurrent : Current version s := by
    refine h.invariant (fun s hs w hw => ?_) fun s a s' hs hC hstep => hs.step hC hstep
    rw [hs.2.2.2] at hw
    cases hw
  obtain ⟨hsnapshot, hnext⟩ := hcurrent w hw (by rw [hpc]; rfl)
  obtain ⟨fetch, hfetch⟩ := hnext (by rw [hpc]; decide)
  obtain ⟨w', hw', rfl⟩ := Option.map_eq_some_iff.1 hstep
  obtain rfl := Option.some.inj (hw.symm.trans hw')
  refine ⟨fetch, ?_⟩
  simp only [CheckSystem.checkStep, hpc]
  rw [hfetch, hsnapshot]

end Check

/-- An update was queued when the overlay last ran. -/
def persisted : CheckSystem where
  notice := {}
  downloadInFlight := false
  cancelDownload := false
  pendingFile := some
    { tag := "v2026.7.0.0", version := "2026.7.0.0", repo := "WKOpenVR-SpaceCalibrator",
      module := "Space Calibrator", asset := "Setup.exe", path := "updater\\Setup.exe",
      sha256 := "ab" }
  client := []
  lastCall := none
  worker := none
  overlay := []
  checkInFlight := false
  check := none

/-- The queued update is loaded, and the check copies the install state. -/
def startCheck : List CheckAction :=
  .call .startUpdateCheck :: List.replicate 5 (CheckAction.overlay {}) ++ [.check (.empty "")]

theorem store_eq_checkedNotice_offline : ∃ as s s',
    (machine []).RunIf (Undisturbed []) as s ∧
      (machine []).step s (.check (.empty "")) = some s' ∧
      ∃ fetch, s'.notice = (checkedNotice [] s.notice.install fetch).2 := by
  obtain ⟨s, hrun, hs⟩ : ∃ s, (machine []).RunIf (Undisturbed [])
      (startCheck ++ [.check (.empty "")]) s ∧ s.check.map CheckWorker.pc = some .store :=
    (machine []).exists_runIf persisted ⟨⟨rfl, rfl, rfl⟩, rfl, rfl, rfl⟩ (by decide +kernel)
  obtain ⟨w, hw, hpc⟩ := Option.map_eq_some_iff.1 hs
  have hstep : (machine []).step s (.check (.empty "")) = some (s.checkStep [] (.empty "") w) := by
    simp only [machine, hw, Option.map_some]
  exact ⟨_, s, _, hrun, hstep, store_eq_checkedNotice hrun hw hpc hstep⟩

/-- Here the queued update is cancelled while the check waits for its answer: the check then
    puts back that the update is queued and ready, after the file has been deleted. -/
theorem check_restores_cancelled_update : ∃ as s s', (machine []).Run as s ∧
    (machine []).step s (.check (.empty "")) = some s' ∧
    (s.lastCall = some .cancel ∧ s.client = [] ∧ s.notice.install = { canQueue := true }) ∧
    s'.notice.install.phase = .ready ∧ s'.notice.install.queuedForSteamVrExit = true ∧
    s'.pendingFile = none := by
  obtain ⟨s, hrun, hcancelled, hstep⟩ : ∃ s, (machine []).Run (startCheck ++
      .base (.call .cancel) :: List.replicate 3 (CheckAction.base .client) ++
      [.check (.empty "")]) s ∧
        (s.lastCall = some .cancel ∧ s.client = [] ∧ s.notice.install = { canQueue := true }) ∧
        (((machine []).step s (.check (.empty ""))).any fun s' =>
          s'.notice.install.phase = .ready ∧ s'.notice.install.queuedForSteamVrExit = true ∧
          s'.pendingFile = none) = true :=
    (machine []).exists_runIf persisted ⟨⟨rfl, rfl, rfl⟩, rfl, rfl, rfl⟩ (by decide +kernel)
  obtain ⟨s', hs', hrestored⟩ := (Option.any_eq_true _ _).1 hstep
  exact ⟨_, s, s', hrun, hs', hcancelled, of_decide_eq_true hrestored⟩

end WKOpenVR.Overlay.UpdateCheck
