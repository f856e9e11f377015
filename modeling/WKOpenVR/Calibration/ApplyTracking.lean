import WKOpenVR.Calibration.ProfileApply

/-!
# What the overlay keeps of the devices

The driver holds for each device the transform in the last request for it (`holdAll`). The
overlay keeps the last one it has sent, and sends a payload only if it is not near that.

So, if what is kept is what the driver will hold when everything has been sent, it is so
after a scan; and what the scan has computed for a device is near what is kept of it
(`synced_scan`). It does not matter what was kept before if the scan forgets it.
-/

namespace WKOpenVR.Calibration.ProfileApply

open Text Ipc.SendQueue Function List

variable {K : Type*}

/-! ## What the driver holds -/

def Request.transform? : Request K → Option (SetDeviceTransform K)
  | .setDeviceTransform payload => some payload
  | _ => none

variable (d : ℕ → Option (SetDeviceTransform K)) (e : Entry (Request K))

/-- The transforms in the driver after a request. -/
def hold : ℕ → Option (SetDeviceTransform K) :=
  match e.request with
  | .setDeviceTransform payload => Function.update d payload.openVRID (some payload)
  | _ => d

def holdAll (es : List (Entry (Request K))) : ℕ → Option (SetDeviceTransform K) := es.foldl hold d

/-- The requests for a device, and no others, have its key. -/
def Keyed : Prop :=
  match e.request with
  | .setDeviceTransform payload => e.key = deviceKey payload.openVRID
  | _ => ∀ id, e.key ≠ deviceKey id

theorem keyed_fallback (payload : SetTrackingSystemFallback K) (system : Name) :
    Keyed ⟨.setTrackingSystemFallback payload, fallbackKey system⟩ :=
  fallbackKey_ne_deviceKey system

theorem keyed_alignment (params : List UInt8) :
    Keyed (K := K) ⟨.setAlignmentSpeedParams params, alignmentKey⟩ :=
  alignmentKey_ne_deviceKey

variable (k : String)

def latest (es : List (Entry (Request K))) : Option (Request K) :=
  (ofKey k es).getLast?

theorem latest_append (es fs : List (Entry (Request K))) :
    latest k (es ++ fs) = (latest k fs).or (latest k es) := by
  rw [latest, latest, latest, ofKey_append, getLast?_append]

theorem latest_singleton (e : Entry (Request K)) :
    latest k [e] = if e.key = k then some e.request else none := by
  rw [latest, ofKey_cons]
  split_ifs <;> rfl

theorem hold_apply {e : Entry (Request K)} (he : Keyed e)
    (id : ℕ) : hold d e id = (latest (deviceKey id) [e]).elim (d id) Request.transform? := by
  obtain ⟨request, key⟩ := e
  rw [latest_singleton]
  cases request with
  | setDeviceTransform payload =>
    obtain rfl : key = deviceKey payload.openVRID := he
    by_cases hid : payload.openVRID = id
    · subst hid
      simp [hold, Request.transform?]
    · rw [if_neg (mt deviceKey_inj.1 hid)]
      exact update_of_ne (Ne.symm hid) _ _
  | setAlignmentSpeedParams params => rw [if_neg (he id)]; rfl
  | setTrackingSystemFallback payload => rw [if_neg (he id)]; rfl

/-- For each device the driver holds what is in the last of its requests. -/
theorem holdAll_apply {es : List (Entry (Request K))} (hes : ∀ e ∈ es, Keyed e) (id : ℕ) :
    holdAll d es id = (latest (deviceKey id) es).elim (d id) Request.transform? := by
  induction es using reverseRecOn with
  | nil => rfl
  | append_singleton es e ih =>
    have hlast := hold_apply (holdAll d es) (hes e (by simp)) id
    rw [latest_append, holdAll, foldl_append]
    refine hlast.trans ?_
    rw [ih fun e he => hes e (mem_append_left _ he)]
    cases latest (deviceKey id) [e] <;> rfl

/-! ## What a scan keeps of the devices -/

namespace Overlay

/-- What the overlay keeps of a device is what the driver will hold, when it has the
    transforms `d` before the requests of the scan. -/
structure Tracking (d : ℕ → Option (SetDeviceTransform K)) (o : Overlay K) : Prop where
  keyed : ∀ e ∈ o.outbox, Keyed e
  tracked : ∀ id p, o.lastApplied id = some p → holdAll d o.outbox id = some p

variable {d} {o : Overlay K} {ctx : Context K} {scan : Scan K} {status : Status}
  {request : Request K} {key : String}

theorem mem_outbox_send {e : Entry (Request K)}
    (he : e ∈ (o.sendProfileApplyRequest request key).outbox) :
    e ∈ o.outbox ∨ e = ⟨request, key⟩ := by
  simpa [sendProfileApplyRequest] using he

theorem Tracking.keyed_send (h : Tracking d o) (he : Keyed ⟨request, key⟩) :
    ∀ e ∈ (o.sendProfileApplyRequest request key).outbox, Keyed e := by
  intro e hmem
  rcases mem_outbox_send hmem with hold | rfl
  · exact h.keyed e hold
  · exact he

theorem holdAll_send (d : ℕ → Option (SetDeviceTransform K)) (o : Overlay K)
    (request : Request K) (key : String) :
    holdAll d (o.sendProfileApplyRequest request key).outbox =
      hold (holdAll d o.outbox) ⟨request, key⟩ := by
  rw [holdAll, sendProfileApplyRequest, foldl_append]
  rfl

/-- A request that is not for a device. -/
theorem Tracking.send_other (h : Tracking d o)
    (he : Keyed ⟨request, key⟩) (hrequest : request.transform? = none) :
    Tracking d (o.sendProfileApplyRequest request key) := by
  refine ⟨h.keyed_send he, fun id p hp => ?_⟩
  rw [holdAll_send]
  cases request with
  | setDeviceTransform payload => cases hrequest
  | setAlignmentSpeedParams params => exact h.tracked id p hp
  | setTrackingSystemFallback payload => exact h.tracked id p hp

variable {o' : Overlay K}

/-- What is kept may be forgotten. -/
theorem Tracking.of_le (h : Tracking d o) (houtbox : o'.outbox = o.outbox)
    (hle : ∀ id p, o'.lastApplied id = some p → o.lastApplied id = some p) : Tracking d o' := by
  refine ⟨?_, fun id p hp => ?_⟩
  · rw [houtbox]
    exact h.keyed
  · rw [houtbox]
    exact h.tracked id p (hle id p hp)

theorem Tracking.invalidateAll (h : Tracking d o) : Tracking d o.invalidateAllTransformCaches :=
  h.of_le rfl fun _ _ hp => by cases hp

theorem Tracking.forget (h : Tracking d o) (id : ℕ) :
    Tracking d { o with lastApplied := Function.update o.lastApplied id none } := by
  refine h.of_le rfl fun id' p hp => ?_
  change Function.update o.lastApplied id none id' = some p at hp
  by_cases hid : id' = id
  · simp [hid] at hp
  · rwa [update_of_ne hid] at hp

variable [FloatArith K]

theorem Tracking.observeTarget (h : Tracking d o) (ctx : Context K) :
    Tracking d (o.observeTarget ctx) := by
  rw [Overlay.observeTarget]
  split
  · have hsent : Tracking d (if o.withdrawsTarget ctx then
        o.sendProfileApplyRequest (.setTrackingSystemFallback (disablePayload o.lastTargetSystem))
          (fallbackKey o.lastTargetSystem) else o) := by
      split_ifs
      · exact h.send_other (keyed_fallback _ _) rfl
      · exact h
    exact ⟨hsent.keyed, hsent.invalidateAll.tracked⟩
  · exact h

omit [FloatArith K] in
theorem Tracking.sendAlignmentSpeed (h : Tracking d o) (ctx : Context K) :
    Tracking d (o.sendAlignmentSpeed ctx) := by
  rw [Overlay.sendAlignmentSpeed]
  split_ifs
  · exact h
  · have hsent := h.send_other (keyed_alignment ctx.alignmentSpeedParams) rfl
    exact ⟨hsent.keyed, hsent.tracked⟩

theorem Tracking.sendFallbackIfChanged (h : Tracking d o) (system : Name) (enabled : Bool)
    (translation : Vec3 K) (rotation : Quat K) (scale : K) (recalibrate : Bool) :
    Tracking d (o.sendFallbackIfChanged system enabled translation rotation scale recalibrate) := by
  rw [Overlay.sendFallbackIfChanged]
  split_ifs
  · exact h
  · have hsent := h.send_other (keyed_fallback
      ⟨nameField system, enabled, translation.inMetres, rotation, scale, 0, recalibrate⟩ system) rfl
    exact ⟨hsent.keyed, hsent.tracked⟩

theorem Tracking.sendFallbacks (h : Tracking d o) (ctx : Context K) :
    Tracking d (o.sendFallbacks ctx) := by
  have htarget : Tracking d (o.sendTargetFallback ctx) := by
    rw [sendTargetFallback]
    split_ifs
    · exact h.sendFallbackIfChanged _ _ _ _ _ _
    · exact h
  rw [Overlay.sendFallbacks]
  generalize o.sendTargetFallback ctx = o at htarget
  induction ctx.additionalCalibrations generalizing o with
  | nil => exact htarget
  | cons extra extras ih =>
    refine ih _ ?_
    rw [sendExtraFallback]
    split_ifs
    · exact htarget
    · exact htarget
    · exact htarget
    · exact htarget.sendFallbackIfChanged _ _ _ _ _ _

variable {payload : SetDeviceTransform K}

theorem Tracking.sendDevice (h : Tracking d o) {id : ℕ}
    (hid : payload.openVRID = id) : Tracking d (o.sendDeviceTransformIfChanged id payload) := by
  rw [sendDeviceTransformIfChanged]
  split_ifs
  · exact ⟨h.keyed, h.tracked⟩
  · exact ⟨h.keyed, h.tracked⟩
  · refine ⟨h.keyed_send (congrArg deviceKey hid.symm), fun id' p hp => ?_⟩
    refine (congrFun (holdAll_send d o _ _) id').trans ?_
    by_cases hid' : id' = id
    · subst hid'
      rw [← hp]
      simp [hold, hid]
    · dsimp only at hp
      rw [update_of_ne hid'] at hp
      simpa [hold, hid, hid'] using h.tracked id' p hp

variable {id : ℕ}

theorem sendDevice_lastApplied_of_ne {id' : ℕ} (o : Overlay K) (payload : SetDeviceTransform K)
    (h : id' ≠ id) :
    (o.sendDeviceTransformIfChanged id payload).lastApplied id' = o.lastApplied id' := by
  rw [sendDeviceTransformIfChanged]
  split_ifs
  · rfl
  · rfl
  · exact update_of_ne h _ _

/-- What is kept of a device after a payload is sent, or found to be near what was kept. -/
theorem sendDevice_lastApplied (o : Overlay K)
    (hid : id < maxTrackedDeviceCount) (hself : transformPayloadNearEqual payload payload = true) :
    ∃ p, (o.sendDeviceTransformIfChanged id payload).lastApplied id = some p ∧
      transformPayloadNearEqual p payload = true := by
  rw [sendDeviceTransformIfChanged, if_neg (not_le.2 hid)]
  split_ifs with hnear
  · exact (Option.any_eq_true _ _).1 hnear
  · exact ⟨payload, update_self _ _ _, hself⟩

/-- What was computed for a device is near what is kept of it. -/
def Answered (o : Overlay K) (id : ℕ) : Prop :=
  ∀ payload, o.computed id = some payload →
    ∃ p, o.lastApplied id = some p ∧ transformPayloadNearEqual p payload = true

theorem Answered.congr {id : ℕ} (h : o.Answered id) (hcomputed : o'.computed id = o.computed id)
    (happlied : o'.lastApplied id = o.lastApplied id) : o'.Answered id := by
  intro payload hpayload
  rw [happlied]
  exact h payload (hcomputed ▸ hpayload)

theorem answered_sendDevice
    (hid : id < maxTrackedDeviceCount) (hself : transformPayloadNearEqual payload payload = true)
    (h : ∀ id' ≠ id, o.Answered id') (id' : ℕ) :
    (o.sendDeviceTransformIfChanged id payload).Answered id' := by
  have hcomputed : (o.sendDeviceTransformIfChanged id payload).computed =
      Function.update o.computed id (some payload) := by
    obtain ⟨_, _, heq⟩ := sendDeviceTransformIfChanged_frame o id payload
    rw [heq]
  by_cases hid' : id' = id
  · subst hid'
    intro payload' hpayload'
    rw [hcomputed, update_self, Option.some.injEq] at hpayload'
    rw [← hpayload']
    exact sendDevice_lastApplied o hid hself
  · refine (h id' hid').congr ?_ (sendDevice_lastApplied_of_ne o payload hid')
    rw [hcomputed, update_of_ne hid']

end Overlay

/-- The numbers of the payloads of a scan, those of identity and of the calibration, are
    near themselves. -/
def Context.NearItself [FloatArith K] (ctx : Context K) : Prop :=
  nearItself (Vec3.zero : Vec3 K) .identity (FloatArith.lit 1) = true ∧
    nearItself ctx.calibratedTranslation.inMetres ctx.calibratedRotation ctx.calibratedScale = true

instance [FloatArith K] (ctx : Context K) : Decidable ctx.NearItself :=
  inferInstanceAs (Decidable (_ ∧ _))

namespace Overlay

variable [FloatArith K] {d} {o : Overlay K} {ctx : Context K} {scan : Scan K} {status : Status}
  {id : ℕ}

theorem IsPayload.near_self {p : SetDeviceTransform K} (h : IsPayload ctx id p)
    (hnear : ctx.NearItself) : transformPayloadNearEqual p p = true := by
  refine transformPayloadNearEqual_self ?_
  rcases h.numbers with ⟨ht, hr, hs⟩ | ⟨ht, hr, hs⟩
  · rw [ht, hr, hs]
    exact hnear.1
  · rw [ht, hr, hs]
    exact hnear.2

/-- The loop over the devices keeps what the driver will hold, and answers every payload it
    computes. -/
structure Synced (d : ℕ → Option (SetDeviceTransform K)) (o : Overlay K) : Prop where
  tracking : Tracking d o
  answered : ∀ id, o.Answered id

theorem Synced.sendDevice {payload : SetDeviceTransform K} (hid : id < maxTrackedDeviceCount)
    (hpayload : IsPayload ctx id payload) (hnear : ctx.NearItself) (h : Tracking d o)
    (hanswered : ∀ id' ≠ id, o.Answered id') :
    Synced d (o.sendDeviceTransformIfChanged id payload) :=
  ⟨h.sendDevice hpayload.openVRID, answered_sendDevice hid (hpayload.near_self hnear) hanswered⟩

theorem Synced.scanDevice (h : Synced d o) (hid : id < maxTrackedDeviceCount)
    (hnear : scan.ctx.NearItself) : Synced d (scanDevice scan o id) := by
  rw [Overlay.scanDevice]
  split
  · split_ifs
    · -- The slot is empty, so nothing is computed for it.
      refine ⟨⟨h.tracking.keyed, (h.tracking.forget id).tracked⟩, fun id' => ?_⟩
      by_cases hid' : id' = id
      · subst hid'
        intro payload hpayload
        change Function.update o.computed id' none id' = some payload at hpayload
        rw [update_self] at hpayload
        cases hpayload
      · exact (h.answered id').congr (update_of_ne hid' _ _)
          (update_of_ne hid' _ _)
    · exact h
  next device hdevice =>
    have hserial : Synced d (o.observeSerial scan.ctx id device) := by
      obtain ⟨serials, heq | ⟨payload, hpayload, heq⟩⟩ := observeSerial_eq o scan.ctx id device
      · rw [heq]
        exact ⟨⟨h.tracking.keyed, h.tracking.tracked⟩, h.answered⟩
      · rw [heq]
        have hforget := h.tracking.forget id
        exact .sendDevice hid hpayload hnear ⟨hforget.keyed, hforget.tracked⟩ fun id' hid' =>
          (h.answered id').congr rfl (update_of_ne hid' _ _)
    obtain ⟨enabled, payload, heq, hpayload, -⟩ :=
      applyDevice_eq (o.observeSerial scan.ctx id device) scan id hdevice
    rw [heq]
    exact .sendDevice hid hpayload hnear ⟨hserial.tracking.keyed, hserial.tracking.tracked⟩
      fun id' _ => hserial.answered id'

theorem Synced.scanDevices (h : Synced d o) (hnear : scan.ctx.NearItself) :
    Synced d (o.scanDevices scan) := by
  have hloop (ids : List ℕ) (hids : ∀ id ∈ ids, id < maxTrackedDeviceCount) (o : Overlay K)
      (h : Synced d o) : Synced d (ids.foldl (Overlay.scanDevice scan) o) := by
    induction ids generalizing o with
    | nil => exact h
    | cons id ids ih =>
      exact ih (fun id' hid' => hids id' (mem_cons_of_mem _ hid')) _
        (h.scanDevice (hids id mem_cons_self) hnear)
  exact hloop _ (fun id hid => mem_range.1 hid) o h

/-- If what the overlay keeps is what the driver will hold, or is forgotten at the start of
    the scan, it is so after the scan, and every payload that was computed is answered. -/
theorem synced_scan (hvr : ¬scan.devices.isNone = true) (hempty : o.outbox = [])
    (h : ¬o.forgets status →
      ∀ id p, o.lastApplied id = some p → d id = some p)
    (hnear : scan.ctx.NearItself) : Synced d (o.scanAndApplyProfile status scan) := by
  have hbegin : Tracking d (o.beginScan status scan.ctx) := by
    rw [beginScan, observeStatus]
    split_ifs with hchanged hfirst
    · exact ⟨by simp [hempty], fun id p hp => by
        simpa [hempty, holdAll] using h (fun hf => hf.2 hfirst) id p hp⟩
    · exact ⟨by simp [hempty, invalidateAllTransformCaches], fun _ _ hp => by cases hp⟩
    · exact ⟨by simp [hempty], fun id p hp => by
        simpa [hempty, holdAll] using h (fun hf => hchanged hf.1) id p hp⟩
  have hctx : Tracking d (o.applyContext status scan.ctx) :=
    ((hbegin.observeTarget scan.ctx).sendAlignmentSpeed scan.ctx).sendFallbacks scan.ctx
  rw [scanAndApplyProfile, if_neg hvr]
  refine Synced.scanDevices ⟨hctx, fun id payload hpayload => ?_⟩ hnear
  -- Nothing is computed before the loop.
  obtain ⟨_, _, _, _, _, _, _, heq⟩ := applyContext_frame o scan.ctx status
  rw [heq] at hpayload
  cases hpayload

theorem scan_seen (o : Overlay K) (status : Status) (hvr : ¬scan.devices.isNone = true) :
    (o.scanAndApplyProfile status scan).lastSeenGeneration = status.connectionGeneration ∧
      (o.scanAndApplyProfile status scan).lastSeenFailures = status.sendFailures ∧
      (o.scanAndApplyProfile status scan).lastSeenDropped = status.dropped := by
  rw [scanAndApplyProfile, if_neg hvr]
  obtain ⟨_, _, _, _, _, hdevices, -⟩ := scanDevices_frame (o.applyContext status scan.ctx) scan
  obtain ⟨_, _, _, _, _, _, _, hcontext⟩ := applyContext_frame o scan.ctx status
  rw [hdevices, hcontext]
  change (o.observeStatus status).lastSeenGeneration = _ ∧
    (o.observeStatus status).lastSeenFailures = _ ∧ (o.observeStatus status).lastSeenDropped = _
  rw [observeStatus]
  split_ifs with hchanged hfirst
  · exact ⟨rfl, rfl, rfl⟩
  · exact ⟨rfl, rfl, rfl⟩
  · simp only [statusChanged, not_or, ne_eq, not_not] at hchanged
    exact ⟨hchanged.1.symm, hchanged.2.1.symm, hchanged.2.2.symm⟩

/-- A payload is computed for every device that is present. -/
theorem scan_computed (hvr : ¬scan.devices.isNone = true) {id : ℕ}
    (hid : id < maxTrackedDeviceCount) (hdevice : (scan.device id).isSome = true) :
    ((o.scanAndApplyProfile status scan).computed id).isSome = true := by
  rw [scanAndApplyProfile, if_neg hvr]
  obtain ⟨_, _, _, _, _, hdevices, -, hcomputed⟩ :=
    scanDevices_frame (o.applyContext status scan.ctx) scan
  rw [hdevices]
  exact hcomputed id hid hdevice

end Overlay

end WKOpenVR.Calibration.ProfileApply
