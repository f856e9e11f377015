import WKOpenVR.Calibration.ProfileApply
import WKOpenVR.Driver.FallbackTable

/-!
# Fallbacks that are out of date

Each scan enables in the driver the fallback of the target system, while the profile is
valid, and those of the additional calibrations. They are withdrawn at one place only, if
the target changes to another system. Here every request reaches the driver, in order.

After every scan, the fallbacks that are enabled are those of the current target, while
`ctx.enabled` is set, and of the additional calibrations that are enabled and valid
(`fallbacks_current`), as long as nothing else is to be withdrawn (`Keeps`): the profile
stays valid, or its target is replaced by another one in a scan that does not forget that
it sent a fallback; the headset is that of the calibration; and no additional calibration
goes away. Otherwise the old fallback stays enabled (`fallbacks_stale`): that of a profile
that becomes invalid, or is used with another headset, and that of an additional
calibration that is removed.
-/

namespace WKOpenVR.Calibration.ProfileApply

open Text Ipc.SendQueue Driver List

variable {K : Type*} (ctx : Context K) (system : Name)

/-- An additional calibration of the system is enabled and valid. -/
def Context.HasExtra : Prop :=
  ∃ extra ∈ ctx.additionalCalibrations,
    extra.enabled = true ∧ extra.valid = true ∧ extra.targetTrackingSystem = system

instance (ctx : Context K) (system : Name) : Decidable (ctx.HasExtra system) :=
  inferInstanceAs (Decidable (∃ extra ∈ ctx.additionalCalibrations, _ ∧ _ ∧ _))

/-- The profile is valid, for the target system. -/
def Context.IsTarget : Prop :=
  ctx.validProfile = true ∧ ctx.targetTrackingSystem = system

instance (ctx : Context K) (system : Name) : Decidable (ctx.IsTarget system) :=
  inferInstanceAs (Decidable (_ ∧ _))

/-- The context has a calibration for the system. -/
def Context.Calibrates : Prop :=
  system ≠ [] ∧ (ctx.IsTarget system ∨ ctx.HasExtra system)

/-- The system names can be read by the driver. -/
def Context.Readable : Prop :=
  ProfileApply.Readable ctx.targetTrackingSystem ∧
    ∀ extra ∈ ctx.additionalCalibrations, ProfileApply.Readable extra.targetTrackingSystem

instance (ctx : Context K) : Decidable ctx.Readable := inferInstanceAs (Decidable (_ ∧ _))

variable [FloatArith K]

/-- The table of the driver after the requests. -/
def receive (table : FallbackTable K) (es : List (Entry (Request K))) : FallbackTable K :=
  (Overlay.fallbackRequests es).foldl FallbackTable.setTrackingSystemFallback table

namespace Overlay

variable {o : Overlay K} {ctx} {status : Status} {table : FallbackTable K} {n : Name}
  {o' : Overlay K}

theorem receive_congr (h : o'.fallbackView = o.fallbackView) :
    receive table o'.outbox = receive table o.outbox := by
  simp only [fallbackView, Prod.mk.injEq] at h
  rw [receive, receive, h.2.2.2]

theorem receive_sendFallback {system : Name} {payload : SetTrackingSystemFallback K}
    {key : String} (hname : payload.systemName = nameField system)
    (hreadable : ProfileApply.Readable system) (hsystem : system ≠ [])
    (h : (receive table (o.sendProfileApplyRequest (.setTrackingSystemFallback payload)
      key).outbox).Enabled n) :
    (n = system ∧ payload.enabled = true) ∨ n ≠ system ∧ (receive table o.outbox).Enabled n := by
  have hread : readName payload.systemName = system := by rw [hname, readName_nameField hreadable]
  rw [receive, sendProfileApplyRequest, fallbackRequests, filterMap_append,
    foldl_append] at h
  rw [← hread] at hsystem ⊢
  exact FallbackTable.enabled_of_set hsystem h

/-- A fallback enables its system, and no other. -/
theorem enabled_of_sendFallbackIfChanged {system : Name} {enabled : Bool} {translation : Vec3 K}
    {rotation : Quat K} {scale : K} {recalibrate : Bool} (hreadable : ProfileApply.Readable system)
    (hsystem : system ≠ [])
    (h : (receive table (o.sendFallbackIfChanged system enabled translation rotation scale
      recalibrate).outbox).Enabled n) : n = system ∨ (receive table o.outbox).Enabled n := by
  rw [sendFallbackIfChanged] at h
  split_ifs at h
  · exact .inr h
  · rcases receive_sendFallback rfl hreadable hsystem h with ⟨rfl, -⟩ | ⟨-, hother⟩
    · exact .inl rfl
    · exact .inr hother

/-- The additional calibrations enable their systems, and no other. -/
theorem enabled_of_extras (hreadable : ctx.Readable) {extras : List (AdditionalCalibration K)}
    (hextras : extras ⊆ ctx.additionalCalibrations)
    (h : (receive table (extras.foldl (sendExtraFallback ctx) o).outbox).Enabled n) :
    (ctx.HasExtra n ∧ n ≠ []) ∨ (receive table o.outbox).Enabled n := by
  induction extras generalizing o with
  | nil => exact .inr h
  | cons extra extras ih =>
    have hmem := hextras mem_cons_self
    rcases ih (subset_of_cons_subset hextras) h with hextra | hrest
    · exact .inl hextra
    rw [sendExtraFallback] at hrest
    split_ifs at hrest with hskip hempty hsame
    · exact .inr hrest
    · exact .inr hrest
    · exact .inr hrest
    · have hsystem : extra.targetTrackingSystem ≠ [] := by simpa using hempty
      rcases enabled_of_sendFallbackIfChanged (hreadable.2 extra hmem) hsystem hrest with rfl | hold
      · left
        simp only [Bool.or_eq_true, Bool.not_eq_true', not_or, Bool.not_eq_false] at hskip
        exact ⟨⟨extra, hmem, hskip.1, hskip.2, rfl⟩, hsystem⟩
      · exact .inr hold

/-- The fallbacks of a scan are those of the target and of the additional calibrations. -/
theorem enabled_of_sendFallbacks (hreadable : ctx.Readable)
    (h : (receive table (o.sendFallbacks ctx).outbox).Enabled n) :
    (o.enabled = true ∧ ctx.targetTrackingSystem = n ∧ n ≠ []) ∨ (ctx.HasExtra n ∧ n ≠ []) ∨
      (receive table o.outbox).Enabled n := by
  rcases enabled_of_extras hreadable (List.Subset.refl _) h with hextra | htarget
  · exact .inr (.inl hextra)
  rw [sendTargetFallback] at htarget
  split_ifs at htarget with hsend
  · simp only [Bool.and_eq_true, Bool.not_eq_true', isEmpty_eq_false_iff] at hsend
    rcases enabled_of_sendFallbackIfChanged hreadable.1 hsend.2 htarget with rfl | hold
    · exact .inl ⟨hsend.1, rfl, hsend.2⟩
    · exact .inr (.inr hold)
  · exact .inr (.inr htarget)

/-- If the target is replaced, its fallback is disabled. -/
theorem enabled_of_observeTarget (hreadable : ProfileApply.Readable o.lastTargetSystem)
    (h : (receive table (o.observeTarget ctx).outbox).Enabled n) :
    (receive table o.outbox).Enabled n ∧
      (o.withdrawsTarget ctx = true → n ≠ o.lastTargetSystem) := by
  rw [observeTarget] at h
  split_ifs at h with hchanged hwithdraws
  · have hsystem : o.lastTargetSystem ≠ [] := by
      simp only [withdrawsTarget, Bool.and_eq_true, Bool.not_eq_true',
        isEmpty_eq_false_iff] at hwithdraws
      exact hwithdraws.1.2
    rcases receive_sendFallback rfl hreadable hsystem h with ⟨-, hdisabled⟩ | ⟨hne, hold⟩
    · cases hdisabled
    · exact ⟨hold, fun _ => hne⟩
  · exact ⟨h, fun hw => absurd hw hwithdraws⟩
  · -- The target is the same, so there is nothing to disable.
    refine ⟨h, fun hw => ?_⟩
    rw [withdrawsTarget, Bool.and_eq_true, Bool.and_eq_true, decide_eq_true_eq] at hw
    exact absurd (.inl hw.1.1) hchanged

/-! ## What the overlay knows of the fallbacks -/

/-- If a fallback is kept for some system, one was sent. -/
def Recorded (o : Overlay K) : Prop :=
  ∀ system, (o.lastFallbacksBySystem system).isSome → o.lastFallback.any (·.enabled) = true

omit [FloatArith K] in
theorem recorded_invalidated (o : Overlay K) : Recorded o.invalidateAllTransformCaches :=
  fun _ h => by cases h

omit [FloatArith K] in
theorem Recorded.of_view (h : Recorded o)
    (hview : o'.fallbackView = o.fallbackView) : Recorded o' := by
  simp only [fallbackView, Prod.mk.injEq] at hview
  obtain ⟨-, hfallback, hmap, -⟩ := hview
  intro system hsystem
  rw [hmap] at hsystem
  rw [hfallback]
  exact h system hsystem

omit [FloatArith K] in
theorem Recorded.observeStatus (h : Recorded o) : Recorded (o.observeStatus status) := by
  rw [Overlay.observeStatus]
  split_ifs
  · exact h
  · exact recorded_invalidated _
  · exact h

theorem Recorded.observeTarget (h : Recorded o) (ctx : Context K) :
    Recorded (o.observeTarget ctx) := by
  rw [Overlay.observeTarget]
  split
  · exact fun _ hkept => by cases hkept
  · exact h

/-- After a fallback is sent, or found to be the one that was, one was sent. -/
theorem sent_of_sendFallbackIfChanged (h : Recorded o) (system : Name) (translation : Vec3 K)
    (rotation : Quat K) (scale : K) (recalibrate : Bool) :
    (o.sendFallbackIfChanged system true translation rotation scale
      recalibrate).lastFallback.any (·.enabled) = true := by
  rw [sendFallbackIfChanged]
  split_ifs with hsame
  · obtain ⟨payload, hpayload, -⟩ := (Option.any_eq_true _ _).1 hsame
    exact h system (by rw [hpayload]; rfl)
  · rfl

/-- The additional calibrations do not forget what was sent. -/
theorem Recorded.extras (h : Recorded o) (ctx : Context K)
    (extras : List (AdditionalCalibration K)) :
    Recorded (extras.foldl (sendExtraFallback ctx) o) ∧
      (o.lastFallback.any (·.enabled) = true →
        (extras.foldl (sendExtraFallback ctx) o).lastFallback.any (·.enabled) = true) := by
  induction extras generalizing o with
  | nil => exact ⟨h, id⟩
  | cons extra extras ih =>
    have hstep : sendExtraFallback ctx o extra = o ∨
        (sendExtraFallback ctx o extra).lastFallback.any (·.enabled) = true := by
      rw [sendExtraFallback]
      split_ifs
      · exact .inl rfl
      · exact .inl rfl
      · exact .inl rfl
      · exact .inr (sent_of_sendFallbackIfChanged h _ _ _ _ _)
    rw [foldl_cons]
    rcases hstep with heq | hsent
    · rw [heq]
      exact ih h
    · have hrecorded' : Recorded (sendExtraFallback ctx o extra) := fun _ _ => hsent
      obtain ⟨hrecorded, hrest⟩ := ih hrecorded'
      exact ⟨hrecorded, fun _ => hrest hsent⟩

theorem Recorded.sendFallbacks (h : Recorded o) (ctx : Context K) :
    Recorded (o.sendFallbacks ctx) ∧ (o.enabled = true → ctx.targetTrackingSystem ≠ [] →
      (o.sendFallbacks ctx).lastFallback.any (·.enabled) = true) := by
  rw [Overlay.sendFallbacks, sendTargetFallback]
  split_ifs with hsend
  · have hsent := sent_of_sendFallbackIfChanged h ctx.targetTrackingSystem
      ctx.calibratedTranslation ctx.calibratedRotation ctx.calibratedScale ctx.recalibrateOnMovement
    have hrecorded' : Recorded (o.sendFallbackIfChanged ctx.targetTrackingSystem true _ _ _ _) :=
      fun _ _ => hsent
    obtain ⟨hrecorded, hextras⟩ := hrecorded'.extras ctx ctx.additionalCalibrations
    exact ⟨hrecorded, fun _ _ => hextras hsent⟩
  · refine ⟨(h.extras ctx _).1, fun hon htarget => absurd ?_ hsend⟩
    simp [hon, htarget]

/-! ## A scan -/

omit [FloatArith K] in
theorem sendAlignmentSpeed_fallbackView (o : Overlay K) (ctx : Context K) :
    (o.sendAlignmentSpeed ctx).fallbackView = o.fallbackView := by
  rw [sendAlignmentSpeed]
  split_ifs
  · rfl
  · simp [fallbackView, sendProfileApplyRequest, fallbackRequests]

/-- The profile is as valid as at the start, until the devices. -/
theorem aligned_enabled (o : Overlay K) (status : Status) (ctx : Context K) :
    (((o.beginScan status ctx).observeTarget ctx).sendAlignmentSpeed ctx).enabled =
      ctx.validProfile := by
  obtain ⟨_, _, _, _, _, _, _, htarget⟩ := observeTarget_frame (o.beginScan status ctx) ctx
  obtain ⟨_, _, halign⟩ := sendAlignmentSpeed_frame ((o.beginScan status ctx).observeTarget ctx) ctx
  rw [halign, htarget]
  rfl

omit [FloatArith K] in
theorem beginScan_eq (o : Overlay K) (status : Status) (ctx : Context K) :
    (o.beginScan status ctx).outbox = o.outbox ∧
      (o.beginScan status ctx).lastTargetSystem = o.lastTargetSystem ∧
      (¬o.forgets status → (o.beginScan status ctx).lastFallback = o.lastFallback) := by
  rw [beginScan, observeStatus]
  split_ifs with hchanged hfirst
  · exact ⟨rfl, rfl, fun _ => rfl⟩
  · exact ⟨rfl, rfl, fun h => absurd ⟨hchanged, hfirst⟩ h⟩
  · exact ⟨rfl, rfl, fun _ => rfl⟩

/-- The part before the devices. -/
theorem applyContext_eq (o : Overlay K) (status : Status) (ctx : Context K) :
    (o.applyContext status ctx).lastTargetSystem = ctx.targetTrackingSystem ∧
      (o.applyContext status ctx).enabled = ctx.validProfile := by
  obtain ⟨_, _, _, _, _, _, _, heq⟩ := applyContext_frame o ctx status
  rw [heq]
  exact ⟨rfl, rfl⟩

theorem Recorded.applyContext (h : Recorded o) (status : Status) (ctx : Context K) :
    Recorded (o.applyContext status ctx) ∧
      (ctx.validProfile = true → ctx.targetTrackingSystem ≠ [] →
        (o.applyContext status ctx).lastFallback.any (·.enabled) = true) := by
  have hbegin : Recorded (o.beginScan status ctx) := h.observeStatus
  have hview := sendAlignmentSpeed_fallbackView ((o.beginScan status ctx).observeTarget ctx) ctx
  obtain ⟨hrecorded, hsent⟩ := ((hbegin.observeTarget ctx).of_view hview).sendFallbacks ctx
  rw [aligned_enabled] at hsent
  exact ⟨hrecorded, hsent⟩

omit [FloatArith K] in
/-- The old target is withdrawn, if another one takes its place. -/
theorem withdrawsTarget_of_ne (hfallback : o.lastFallback.any (·.enabled) = true)
    (hne : ctx.targetTrackingSystem ≠ o.lastTargetSystem) (hsystem : o.lastTargetSystem ≠ []) :
    o.withdrawsTarget ctx = true := by
  simp [withdrawsTarget, hfallback, hne, hsystem]

/-- After the part before the devices, the fallbacks that are enabled are those of the scan,
    and old ones that are not withdrawn. -/
theorem enabled_of_applyContext (hlast : ProfileApply.Readable o.lastTargetSystem)
    (hempty : o.outbox = []) (hctx : ctx.Readable)
    (h : (receive table (o.applyContext status ctx).outbox).Enabled n) :
    ctx.Calibrates n ∨ table.Enabled n ∧
      (¬o.forgets status → o.lastFallback.any (·.enabled) = true →
        ctx.targetTrackingSystem ≠ o.lastTargetSystem → n ≠ [] → n ≠ o.lastTargetSystem) := by
  obtain ⟨houtbox, htarget, hfallback⟩ := beginScan_eq o status ctx
  have hview := sendAlignmentSpeed_fallbackView ((o.beginScan status ctx).observeTarget ctx) ctx
  rcases enabled_of_sendFallbacks hctx h with ⟨hon, rfl, hne⟩ | ⟨hextra, hne⟩ | hold
  · rw [aligned_enabled] at hon
    exact .inl ⟨hne, .inl ⟨hon, rfl⟩⟩
  · exact .inl ⟨hne, .inr hextra⟩
  · rw [receive_congr hview] at hold
    obtain ⟨hold, hwithdrawn⟩ := enabled_of_observeTarget (by rwa [htarget]) hold
    rw [houtbox, hempty] at hold
    refine .inr ⟨hold, fun hkept hsent hchanged hn => ?_⟩
    rintro rfl
    rw [← htarget] at hchanged hn
    rw [← hfallback hkept] at hsent
    exact hwithdrawn (withdrawsTarget_of_ne hsent hchanged hn) htarget.symm

end Overlay

/-! ## Runs -/

/-- The overlay and the driver, between two scans. -/
structure FallbackState (K : Type*) where
  overlay : Overlay K
  table : FallbackTable K
  /-- The context of the last scan that found a VR system. -/
  applied : Option (Context K)

variable (s : FallbackState K) (a : Status × Scan K)

/-- A scan with the status it reads. Its requests all reach the driver, in order. -/
def FallbackState.scan : FallbackState K where
  overlay := { s.overlay.scanAndApplyProfile a.1 a.2 with outbox := [] }
  table := receive s.table (s.overlay.scanAndApplyProfile a.1 a.2).outbox
  applied := if a.2.devices.isNone then s.applied else some a.2.ctx

def fallbackMachine : Machine (FallbackState K) (Status × Scan K) where
  init := {⟨.fresh, .empty, none⟩}
  step s a := some (s.scan a)

variable (p : Context K)

/-- The profile of the last context is still valid, or it is replaced in a scan that does
    not forget what was sent. -/
def KeepsTarget : Prop :=
  p.validProfile = true → p.targetTrackingSystem ≠ [] →
    a.2.ctx.IsTarget p.targetTrackingSystem ∨ a.2.ctx.HasExtra p.targetTrackingSystem ∨
      (a.2.devices.isSome = true ∧ a.2.ctx.targetTrackingSystem ≠ p.targetTrackingSystem ∧
        ¬s.overlay.forgets a.1)

instance (s : FallbackState K) (a : Status × Scan K) (p : Context K) :
    Decidable (KeepsTarget s a p) := inferInstanceAs (Decidable (_ → _ → _))

/-- The additional calibrations of the last context are still there. -/
def KeepsExtras : Prop :=
  ∀ extra ∈ p.additionalCalibrations, extra.enabled = true → extra.valid = true →
    extra.targetTrackingSystem ≠ [] →
      a.2.ctx.HasExtra extra.targetTrackingSystem ∨ a.2.ctx.IsTarget extra.targetTrackingSystem

instance (a : Status × Scan K) (p : Context K) : Decidable (KeepsExtras a p) :=
  inferInstanceAs (Decidable (∀ extra ∈ p.additionalCalibrations, _ → _ → _ → _))

/-- Nothing is to be withdrawn in a scan but a target, which another one replaces. -/
structure Keeps (s : FallbackState K) (a : Status × Scan K) : Prop where
  readable : a.2.ctx.Readable
  /-- The headset is that of the calibration. -/
  headset : a.2.ctx.validProfile = true → a.2.ctx.targetTrackingSystem ≠ [] →
    a.2.headsetMatches = true ∨ a.2.ctx.HasExtra a.2.ctx.targetTrackingSystem
  target : ∀ p ∈ s.applied, KeepsTarget s a p
  extras : ∀ p ∈ s.applied, KeepsExtras a p

instance : DecidableRel (Keeps (K := K)) := fun _ _ =>
  decidable_of_iff (_ ∧ _ ∧ _ ∧ _)
    ⟨fun ⟨h₁, h₂, h₃, h₄⟩ => ⟨h₁, h₂, h₃, h₄⟩, fun h => ⟨h.readable, h.headset, h.target, h.extras⟩⟩

structure FallbackInv (s : FallbackState K) : Prop where
  outbox : s.overlay.outbox = []
  recorded : s.overlay.Recorded
  readable : Readable s.overlay.lastTargetSystem
  /-- What is enabled was calibrated at the last scan. -/
  enabled : ∀ n, s.table.Enabled n → ∃ p ∈ s.applied, p.Calibrates n
  target : ∀ p ∈ s.applied, s.overlay.lastTargetSystem = p.targetTrackingSystem
  /-- The overlay remembers that a valid profile has sent a fallback. -/
  sent : ∀ p ∈ s.applied, p.validProfile = true → p.targetTrackingSystem ≠ [] →
    s.overlay.lastFallback.any (·.enabled) = true

variable {s a} {n : Name}

omit [FloatArith K] in
theorem fallbackInv_fresh : FallbackInv (⟨.fresh, .empty, none⟩ : FallbackState K) where
  outbox := rfl
  recorded _ h := by cases h
  readable := ⟨Nat.succ_pos 31, not_mem_nil⟩
  enabled n h := absurd h (FallbackTable.not_enabled_empty n)
  target _ h := by cases h
  sent _ h := by cases h

/-- What was enabled before a scan is still calibrated, or it is the old target, which the
    scan replaces. -/
theorem Keeps.of_enabled (h : Keeps s a) (hinv : FallbackInv s) (hn : s.table.Enabled n) :
    a.2.ctx.Calibrates n ∨ a.2.devices.isSome = true ∧ n ≠ [] ∧ n = s.overlay.lastTargetSystem ∧
      a.2.ctx.targetTrackingSystem ≠ n ∧ ¬s.overlay.forgets a.1 ∧
        s.overlay.lastFallback.any (·.enabled) = true := by
  obtain ⟨p, hp, hne, ⟨hvalid, rfl⟩ | ⟨extra, hextra, henabled, hvalid, rfl⟩⟩ := hinv.enabled n hn
  · rcases h.target p hp hvalid hne with hsame | hextra | ⟨hvr, hother, hkept⟩
    · exact .inl ⟨hne, .inl hsame⟩
    · exact .inl ⟨hne, .inr hextra⟩
    · exact .inr ⟨hvr, hne, (hinv.target p hp).symm, hother, hkept, hinv.sent p hp hvalid hne⟩
  · rcases h.extras p hp extra hextra henabled hvalid hne with hstill | htarget
    · exact .inl ⟨hne, .inr hstill⟩
    · exact .inl ⟨hne, .inl htarget⟩

/-- Without a VR system nothing is sent. -/
theorem scan_of_isNone (hinv : FallbackInv s) (hvr : a.2.devices.isNone = true) :
    s.scan a = { s with overlay :=
      { s.overlay with enabled := a.2.ctx.validProfile, computed := fun _ => none } } := by
  simp [FallbackState.scan, Overlay.scanAndApplyProfile, hvr, hinv.outbox, receive,
    Overlay.fallbackRequests]

theorem scan_of_not_isNone (hvr : ¬a.2.devices.isNone = true) :
    s.scan a =
      { overlay := { (s.overlay.applyContext a.1 a.2.ctx).scanDevices a.2 with outbox := [] }
        table := receive s.table (s.overlay.applyContext a.1 a.2.ctx).outbox
        applied := some a.2.ctx } := by
  rw [FallbackState.scan, Overlay.scanAndApplyProfile, if_neg hvr, if_neg hvr,
    Overlay.receive_congr (Overlay.scanDevices_fallbackView _ a.2)]

/-- After a scan, what is enabled is calibrated. -/
theorem Keeps.calibrates (h : Keeps s a) (hinv : FallbackInv s) (hn : (s.scan a).table.Enabled n) :
    a.2.ctx.Calibrates n := by
  by_cases hvr : a.2.devices.isNone = true
  · rw [scan_of_isNone hinv hvr] at hn
    rcases h.of_enabled hinv hn with hcal | ⟨hsome, -⟩
    · exact hcal
    · rw [Option.isNone_iff_eq_none.1 hvr] at hsome
      cases hsome
  · rw [scan_of_not_isNone hvr] at hn
    rcases Overlay.enabled_of_applyContext hinv.readable hinv.outbox h.readable hn with
      hcal | ⟨hold, hwithdrawn⟩
    · exact hcal
    · rcases h.of_enabled hinv hold with hcal | ⟨-, hne, hlast, hother, hkept, hsent⟩
      · exact hcal
      · exact absurd hlast (hwithdrawn hkept hsent (hlast ▸ hother) hne)

theorem FallbackInv.scan (hinv : FallbackInv s) (h : Keeps s a) : FallbackInv (s.scan a) := by
  have hcal (n : Name) (hn : (s.scan a).table.Enabled n) := h.calibrates hinv hn
  by_cases hvr : a.2.devices.isNone = true
  · rw [scan_of_isNone hinv hvr]
    exact ⟨hinv.outbox, hinv.recorded, hinv.readable, hinv.enabled, hinv.target, hinv.sent⟩
  · rw [scan_of_not_isNone hvr] at hcal ⊢
    obtain ⟨hrecorded, hsent⟩ := hinv.recorded.applyContext a.1 a.2.ctx
    have hview := Overlay.scanDevices_fallbackView (s.overlay.applyContext a.1 a.2.ctx) a.2
    have hrecorded' := hrecorded.of_view hview
    simp only [Overlay.fallbackView, Prod.mk.injEq] at hview
    have htarget := hview.1.trans (Overlay.applyContext_eq s.overlay a.1 a.2.ctx).1
    refine ⟨rfl, hrecorded', ?_, fun n hn => ⟨a.2.ctx, rfl, hcal n hn⟩, ?_, ?_⟩
    · rw [htarget]
      exact h.readable.1
    · rintro p ⟨⟩
      exact htarget
    · rintro p ⟨⟩ hvalid hne
      rw [hview.2.1]
      exact hsent hvalid hne

/-- A system whose fallback may be enabled after the scan: the target, while the profile is
    on, or that of an additional calibration. -/
def Current (s : FallbackState K) (ctx : Context K) (system : Name) : Prop :=
  (system = ctx.targetTrackingSystem ∧ s.overlay.enabled = true) ∨ ctx.HasExtra system

instance (s : FallbackState K) (ctx : Context K) (system : Name) :
    Decidable (Current s ctx system) := inferInstanceAs (Decidable (_ ∨ _))

theorem Keeps.current (h : Keeps s a) (hinv : FallbackInv s)
    (hn : (s.scan a).table.Enabled n) : Current (s.scan a) a.2.ctx n := by
  obtain ⟨hne, ⟨hvalid, rfl⟩ | hextra⟩ := h.calibrates hinv hn
  · rcases h.headset hvalid hne with hmatches | hextra
    · refine .inl ⟨rfl, ?_⟩
      rw [← hvalid]
      by_cases hvr : a.2.devices.isNone = true
      · rw [scan_of_isNone hinv hvr]
      · rw [scan_of_not_isNone hvr]
        obtain ⟨_, _, _, _, _, heq, henabled, -⟩ :=
          Overlay.scanDevices_frame (s.overlay.applyContext a.1 a.2.ctx) a.2
        rw [heq]
        exact (henabled hmatches).trans (Overlay.applyContext_eq s.overlay a.1 a.2.ctx).2
    · exact .inr hextra
  · exact .inr hextra

/-- After every scan, if nothing is to be withdrawn in the scans but a target that another
    one replaces, every system whose fallback is enabled is the target, while the profile is
    on, or that of an additional calibration that is enabled and valid. -/
theorem fallbacks_current (as : List (Status × Scan K)) (a : Status × Scan K)
    (s : FallbackState K) (h : fallbackMachine.RunIf Keeps (as ++ [a]) s) (n : Name)
    (hn : s.table.Enabled n) : Current s a.2.ctx n := by
  refine (h.history_invariant (I := fun as s => FallbackInv s ∧
    ∀ a ∈ as.getLast?, ∀ n, s.table.Enabled n → Current s a.2.ctx n) ?_ ?_).2 a (by simp) n hn
  · rintro s rfl
    exact ⟨fallbackInv_fresh, fun a ha => by cases ha⟩
  · rintro as s a s' ⟨hinv, -⟩ hkeeps hs
    cases hs
    refine ⟨hinv.scan hkeeps, fun b hb n hn => ?_⟩
    obtain rfl : a = b := by simpa using hb
    exact hkeeps.current hinv hn

/-! ## Three profiles -/

def extraFor (system : Name) : AdditionalCalibration ℚ :=
  ⟨true, true, system, ⟨0, 0, 0⟩, .identity, 1⟩

/-- A scan that finds only a headset, of the given system. -/
def scanWith (ctx : Context ℚ) (headset : Name) : Status × Scan ℚ :=
  ({}, { ctx
         devices := some fun id => if id = 0 then some ⟨false, none, some headset, [], []⟩ else none
         eyeToHeadLeft := fun _ _ => 0
         snapThisCycle := false })

/-- The target is replaced by another system, and its fallback withdrawn. -/
def replacedTarget : List (Status × Scan ℚ) :=
  [scanWith (profileFor (ascii "lighthouse")) (ascii "oculus")]

theorem fallbacks_current_replaced : ∃ s : FallbackState ℚ,
    fallbackMachine.RunIf Keeps
      (replacedTarget ++ [scanWith (profileFor (ascii "tundra")) (ascii "oculus")]) s ∧
    s.table.Enabled (ascii "tundra") ∧ ¬s.table.Enabled (ascii "lighthouse") ∧
    Current s (profileFor (ascii "tundra")) (ascii "tundra") := by
  refine fallbackMachine.exists_runIf_of (P := fun s => s.table.Enabled (ascii "tundra") ∧
    ¬s.table.Enabled (ascii "lighthouse")) ⟨.fresh, .empty, none⟩ (by rfl) (by decide +kernel) ?_
  rintro s hrun ⟨hnew, hold⟩
  exact ⟨hnew, hold, fallbacks_current replacedTarget _ s hrun _ hnew⟩

/-- After the scans the fallback of the system is enabled, and out of date. -/
def Stale (as : List (Status × Scan ℚ)) (a : Status × Scan ℚ) (system : Name) : Prop :=
  ∃ s : FallbackState ℚ, fallbackMachine.Run (as ++ [a]) s ∧ s.table.Enabled system ∧
    ¬Current s a.2.ctx system

/-- The fallback of the target stays enabled when the profile is cleared, and with a headset
    of another system; that of an additional calibration stays enabled when it is removed. -/
theorem fallbacks_stale :
    Stale replacedTarget
      (scanWith { profileFor (ascii "lighthouse") with validProfile := false } (ascii "oculus"))
      (ascii "lighthouse") ∧
    Stale [] (scanWith (profileFor (ascii "lighthouse")) (ascii "holographic"))
      (ascii "lighthouse") ∧
    Stale
      [scanWith { profileFor (ascii "lighthouse") with
        additionalCalibrations := [extraFor (ascii "tundra")] } (ascii "oculus")]
      (scanWith (profileFor (ascii "lighthouse")) (ascii "oculus")) (ascii "tundra") :=
  ⟨fallbackMachine.exists_runIf ⟨.fresh, .empty, none⟩ (by rfl) (by decide +kernel),
    fallbackMachine.exists_runIf ⟨.fresh, .empty, none⟩ (by rfl) (by decide +kernel),
    fallbackMachine.exists_runIf ⟨.fresh, .empty, none⟩ (by rfl) (by decide +kernel)⟩

end WKOpenVR.Calibration.ProfileApply
