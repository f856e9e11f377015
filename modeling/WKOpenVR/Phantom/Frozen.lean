import WKOpenVR.Phantom.Ladder
import WKOpenVR.Phantom.Module

/-!
# Frozen trackers of the phantom module

The republishing of silent devices exists so that SteamVR does not keep a frozen
tracker: a device that has been silent for `synthHoldMs` (and not yet for
`lostHoldMs`) must not be left with a pose that is valid and tracked. In that
window, a call of `collectSilentPoseUpdates` replaces the pose by one that is out
of range exactly if (`Republishes`)

* the last pose observed is healthy: a device that goes on sending other poses
  is skipped, although the ladder synthesises healthy poses for them;
* the ladder is not blending back, and the silence is long enough to be noticed;
* no other synthetic pose was published just before.

So in a run no device is left frozen by a republishing if and only if each of
them, in the window, meets these conditions, or finds the pose forwarded before
not healthy anyway (`republish_not_frozen_iff`). Whether a device is opted in or
not, and the module on or off, its ladder is lost only after a healthy pose and
a silence of `lostHoldMs` that the device was ticked after (`lost_after_silence`).
-/

namespace WKOpenVR.Phantom

open List

variable {K : Type*}

/-! ## Ticks in the window -/

theorem Elapsed.mono_time {qpcFreq t t' u : ℤ} {ms : ℕ} (h : Elapsed qpcFreq ms u t)
    (ht : t ≤ t') : Elapsed qpcFreq ms u t' := by
  rw [Elapsed] at h ⊢
  omega

namespace DropoutState

variable {s : DropoutState K} {qpcNs qpcFreq : ℤ} {timings : LadderTimings} {u : Option ℤ}

theorem setTimings_of_eq (h : s.timings = timings) : s.setTimings timings = s := by
  rw [setTimings, ← h]

/-- A ladder that a tick loses was lost before, or has been silent for
    `lostHoldMs` since a healthy pose. -/
theorem tick_lost (h : Anchored timings u s) (hf : 0 < qpcFreq) (hq : QpcRange qpcNs)
    (hlost : (s.tick qpcNs qpcFreq).state = .lost) :
    s.state = .lost ∨ ∃ t ∈ u, t ≤ qpcNs → Elapsed qpcFreq timings.lostHoldMs t qpcNs := by
  have ha : Anchored timings u (s.detectSilence qpcNs qpcFreq) := h.detectSilence
  have hesc : ((s.detectSilence qpcNs qpcFreq).escalate qpcNs qpcFreq).state = .lost := by
    rw [tick, finishBlendIn] at hlost
    split_ifs at hlost <;> exact hlost
  by_cases hd : (s.detectSilence qpcNs qpcFreq).state = .lost
  · refine .inl ?_
    rw [detectSilence] at hd
    split_ifs at hd
    exact hd
  · refine .inr ?_
    rw [escalate] at hesc
    split_ifs at hesc with hc
    · obtain ⟨hstart, hnonneg⟩ := ha.dropout hc.2
      rw [ha.lastReal_eq] at hstart hnonneg
      -- A dropout starts at a healthy pose, so there has been one.
      cases hu : u with
      | none => simp [hu] at hnonneg
      | some t =>
      rw [hstart, hu, Option.getD_some] at hesc
      refine ⟨t, rfl, fun hle => ?_⟩
      have hage : (timings.lostHoldMs : ℤ) ≤ qpcMs (i64 (qpcNs - t)) qpcFreq := by
        by_contra hlt
        exact escalateTo_of_lt_lostHold (ha.timings_eq.symm ▸ not_le.1 hlt) hd hesc
      exact (le_qpcMs_iff hf hq (h.range t hu) hle).1 hage
    · exact absurd hesc hd

/-- A pose that leaves the ladder lost is not healthy. -/
theorem onRealPoseObserved_lost {p : DriverPose K}
    (h : (s.onRealPoseObserved qpcNs p).state = .lost) : p.trackedOk = false ∧ s.state = .lost := by
  cases hp : p.trackedOk with
  | false =>
    rw [onRealPoseObserved_of_not_trackedOk hp] at h
    exact ⟨rfl, h⟩
  | true =>
    rw [onRealPoseObserved] at h
    simp only [DriverPose.trackedOk, Bool.and_eq_true, beq_iff_eq] at hp
    rw [if_pos ⟨hp.2, hp.1⟩] at h
    dsimp only at h
    split_ifs at h
    simp_all

/-- A tick in `real` that comes too early to notice a silence stays there. -/
theorem tick_of_real (h : Anchored timings u s) (hf : 0 < qpcFreq) (hq : QpcRange qpcNs)
    {t : ℤ} (hu : u = some t) (ht : t ≤ qpcNs) (hs : s.state = .real)
    (hsilence : ¬Elapsed qpcFreq timings.dropoutSilenceMs t qpcNs) :
    (s.tick qpcNs qpcFreq).state = .real := by
  subst hu
  have hlast : s.lastRealQpcNs = t := h.lastReal_eq
  have hd : s.detectSilence qpcNs qpcFreq = s := by
    rw [detectSilence, if_neg]
    rintro ⟨-, h0, hge⟩
    rw [silenceMs, if_neg (not_lt.2 h0), h.timings_eq, hlast,
      le_qpcMs_iff hf hq (h.range t rfl) ht] at hge
    exact hsilence hge
  have he : s.escalate qpcNs qpcFreq = s := by
    rw [escalate, if_neg fun hc => hc.2.1 hs]
  rw [tick, hd, he, finishBlendIn, if_neg fun hb => by simp [hs] at hb, hs]

/-- In the window, a tick of a ladder that is not lost, not blending back, and not
    too early to notice the silence, ends in `outOfRange`. -/
theorem tick_of_window (h : Anchored timings u s) (hf : 0 < qpcFreq) (hq : QpcRange qpcNs)
    {t : ℤ} (hu : u = some t) (ht : t ≤ qpcNs) (hlost : s.state ≠ .lost) (hs : s.state ≠ .blendIn)
    (hr : s.state = .real → Elapsed qpcFreq timings.dropoutSilenceMs t qpcNs)
    (hsynth : Elapsed qpcFreq timings.synthHoldMs t qpcNs)
    (hwindow : ¬Elapsed qpcFreq timings.lostHoldMs t qpcNs) :
    (s.tick qpcNs qpcFreq).state = .outOfRange := by
  refine (tick_escalates h hf hq hu hs hr hsynth).resolve_right fun htick => ?_
  rcases tick_lost h hf hq htick with hl | ⟨t', ht', he⟩
  · exact hlost hl
  · obtain rfl : t = t' := Option.some.inj (hu.symm.trans ht')
    exact hwindow (he ht)

end DropoutState

/-! ## Republishing -/

/-- The pose forwarded last makes SteamVR see a tracked device. -/
def ForwardedHealthy (p : Option (DriverPose K)) : Prop :=
  ∃ q ∈ p, q.result = .runningOK ∧ q.poseIsValid

/-- The republishing gets to replace the pose of a device whose last healthy pose
    is at `u`. -/
def Republishes (timings : LadderTimings) (qpcFreq u t : ℤ) (s : DeviceSlot K) : Prop :=
  s.republished ∧ s.ladder.state ≠ .blendIn ∧
    (s.ladder.state = .real → Elapsed qpcFreq timings.dropoutSilenceMs u t) ∧
    s.rateLimited t qpcFreq = false

namespace DeviceSlot

variable {num : Numerics K} {src : Sources K} {timings : LadderTimings} {qpcFreq t : ℤ}
  {s : DeviceSlot K}

/-- Out of range, a device that has published before always has a pose to publish,
    which is out of range. -/
theorem buildSyntheticPose_of_outOfRange (num : Numerics K) (src : Sources K) (t qpcFreq : ℤ)
    (live : Option (DriverPose K)) (hs : s.ladder.state = .outOfRange) :
    (s.lastPublishedValid → (s.buildSyntheticPose num src t qpcFreq live).isSome) ∧
    ∀ p ∈ s.buildSyntheticPose num src t qpcFreq live, p.result = .runningOutOfRange := by
  simp only [buildSyntheticPose, hs]
  constructor
  · intro hp
    simp [hp]
  · simp only [Option.mem_def, Option.map_eq_some_iff]
    rintro p ⟨q, -, rfl⟩
    simp [overrideResult, DropoutState.trackingResultOverride, hs]

/-- A device with a ladder that stays in, or comes back to, the real pose is not
    republished. -/
theorem collectSilent_of_real
    (h : (s.silentTick timings t qpcFreq).ladder.state = .real ∨
      (s.silentTick timings t qpcFreq).ladder.state = .blendIn ∨
      (s.silentTick timings t qpcFreq).ladder.state = .lost) :
    (s.collectSilent num src timings t qpcFreq).2 = none := by
  rw [collectSilent]
  split
  · rfl
  · dsimp only
    rw [if_pos h]

/-- The republishing, when it does not get to the device. -/
theorem collectSilent_of_not_republishes {u : ℤ} (hf : 0 < qpcFreq) (ht : QpcRange t) (hut : u ≤ t)
    (h : (s.ladder.setTimings timings).Anchored timings (some u))
    (hr : ¬Republishes timings qpcFreq u t s) :
    (s.collectSilent num src timings t qpcFreq).2 = none := by
  have ha := h.setIkAvailable s.hasRole
  by_cases hrep : s.republished
  · by_cases hb : s.ladder.state = .blendIn
    · rcases DropoutState.tick_of_blendIn
        (s := (s.ladder.setTimings timings).setIkAvailable s.hasRole) hb with hs | hs
      · exact collectSilent_of_real (.inr (.inl hs))
      · exact collectSilent_of_real (.inl hs)
    · by_cases hreal : s.ladder.state = .real ∧ ¬Elapsed qpcFreq timings.dropoutSilenceMs u t
      · exact collectSilent_of_real
          (.inl (DropoutState.tick_of_real ha hf ht rfl hut hreal.1 hreal.2))
      · have hlim : s.rateLimited t qpcFreq := by
          by_contra hlim
          exact hr ⟨hrep, hb, fun hs => not_not.1 fun he => hreal ⟨hs, he⟩, by simpa using hlim⟩
        rw [collectSilent]
        dsimp only
        split_ifs
        · rfl
        · rfl
        · rfl
        · exact absurd hlim ‹_›
  · rw [collectSilent, if_pos (by simpa using hrep)]

/-- The republishing in the window, when it gets to the device: the pose it
    publishes, if any, is out of range, and there is one if the device has published
    before. -/
theorem collectSilent_of_republishes (num : Numerics K) (src : Sources K) {u : ℤ}
    (hf : 0 < qpcFreq) (ht : QpcRange t) (hut : u ≤ t)
    (h : (s.ladder.setTimings timings).Anchored timings (some u))
    (hlost : s.ladder.state ≠ .lost) (hsynth : Elapsed qpcFreq timings.synthHoldMs u t)
    (hwindow : ¬Elapsed qpcFreq timings.lostHoldMs u t)
    (hr : Republishes timings qpcFreq u t s) :
    (s.lastPublishedValid → (s.collectSilent num src timings t qpcFreq).2.isSome) ∧
    ∀ p ∈ (s.collectSilent num src timings t qpcFreq).2, p.result = .runningOutOfRange := by
  obtain ⟨hrep, hb, hreal, hlim⟩ := hr
  have hout : (s.silentTick timings t qpcFreq).ladder.state = .outOfRange :=
    DropoutState.tick_of_window (h.setIkAvailable s.hasRole) hf ht rfl hut hlost hb hreal hsynth
      hwindow
  have hlim' : (s.silentTick timings t qpcFreq).rateLimited t qpcFreq = false := hlim
  have hcollect : (s.collectSilent num src timings t qpcFreq).2 =
      (s.silentTick timings t qpcFreq).buildSyntheticPose num src t qpcFreq none := by
    simp only [collectSilent, hrep, hout, hlim', Bool.not_true, Bool.false_eq_true, if_false,
      reduceCtorEq, or_self]
    split <;> simp_all
  rw [hcollect]
  exact buildSyntheticPose_of_outOfRange num src t qpcFreq none hout

end DeviceSlot

/-! ## Runs -/

def PhantomEvent.time? : PhantomEvent K → Option ℤ
  | .pose _ t _ _ => some t
  | .collect _ t _ => some t
  | .assignRole _ _ => none

def times (evs : List (PhantomEvent K)) : List ℤ := evs.filterMap PhantomEvent.time?

/-- The time of an event that may tick the ladder of the device `id`: a pose of its own,
    or a republishing that another device triggers. -/
def PhantomEvent.tick? (id : ℕ) : PhantomEvent K → Option ℤ
  | .pose i t _ _ => if i = id then some t else none
  | .collect trigger t _ => if trigger = id then none else some t
  | .assignRole _ _ => none

def ticksOf (id : ℕ) (evs : List (PhantomEvent K)) : List ℤ :=
  evs.filterMap (PhantomEvent.tick? id)

/-- The time of the last healthy pose of the device `id`, given the one before an
    event. -/
def PhantomEvent.lastOk (id : ℕ) (u : Option ℤ) : PhantomEvent K → Option ℤ
  | .pose i t p _ => if i = id ∧ p.trackedOk then some t else u
  | .collect _ _ _ => u
  | .assignRole _ _ => u

/-- The time of the last healthy pose of the device `id` in the events `evs`. -/
def lastOkOf (id : ℕ) (evs : List (PhantomEvent K)) : Option ℤ :=
  evs.foldl (PhantomEvent.lastOk id) none

/-- The invariant of a device, with the pose forwarded last, its last healthy pose being
    at `u`, after ticks at the times `ts`. -/
structure SlotInv (timings : LadderTimings) (qpcFreq : ℤ) (u : Option ℤ) (ts : List ℤ)
    (s : DeviceSlot K) (forwarded : Option (DriverPose K)) : Prop where
  time_mem : ∀ t ∈ u, t ∈ ts
  anchored : (s.ladder.setTimings timings).Anchored timings u
  /-- A device is lost only after a silence of `lostHoldMs`. -/
  lost : s.ladder.state = .lost → ∃ t ∈ u, ∃ t' ∈ ts, Elapsed qpcFreq timings.lostHoldMs t t'
  published : forwarded.isSome → s.lastPublishedValid

namespace DeviceSlot

variable {num : Numerics K} {src : Sources K} {timings : LadderTimings} {qpcFreq t : ℤ}
  {s : DeviceSlot K} {pose : DriverPose K} {b : Bool}

/-- What `maybeOverridePose` leaves in the slot. -/
theorem maybeOverridePose_slot (num : Numerics K) (src : Sources K) (b : Bool) (t qpcFreq : ℤ)
    (s : DeviceSlot K) (pose : DriverPose K) :
    (s.maybeOverridePose num src b t qpcFreq pose).1.ladder = s.ladder.tick t qpcFreq ∧
    ((s.maybeOverridePose num src b t qpcFreq pose).2.isSome ∨ s.lastPublishedValid →
      (s.maybeOverridePose num src b t qpcFreq pose).1.lastPublishedValid) := by
  rw [maybeOverridePose]
  dsimp only
  split_ifs
  · exact ⟨rfl, fun _ => rfl⟩
  · split <;> first | exact ⟨rfl, fun _ => rfl⟩ | exact ⟨rfl, by simp⟩

/-- What `collectSilent` leaves in the slot. -/
theorem collectSilent_slot (num : Numerics K) (src : Sources K) (timings : LadderTimings)
    (t qpcFreq : ℤ) (s : DeviceSlot K) :
    ((s.collectSilent num src timings t qpcFreq).1.ladder = s.ladder ∨
      (s.collectSilent num src timings t qpcFreq).1.ladder =
        (s.silentTick timings t qpcFreq).ladder) ∧
    ((s.collectSilent num src timings t qpcFreq).2.isSome ∨ s.lastPublishedValid →
      (s.collectSilent num src timings t qpcFreq).1.lastPublishedValid) := by
  rw [collectSilent]
  split
  · exact ⟨.inl rfl, by simp⟩
  · dsimp only
    split_ifs
    · exact ⟨.inr rfl, by simp [silentTick]⟩
    · exact ⟨.inr rfl, by simp [silentTick]⟩
    · split
      · exact ⟨.inr rfl, by simp [silentTick]⟩
      · exact ⟨.inr rfl, fun _ => rfl⟩

end DeviceSlot

namespace SlotInv

variable {timings : LadderTimings} {qpcFreq : ℤ} {u : Option ℤ} {ts : List ℤ} {s : DeviceSlot K}
  {fwd : Option (DriverPose K)} {t : ℤ}

/-- A tick at a time `t` after all others. -/
theorem tick_lost (hf : 0 < qpcFreq) (ht : QpcRange t) (hts : ∀ t' ∈ ts, t' ≤ t)
    {l : DropoutState K} (ha : l.Anchored timings u) (hmem : ∀ v ∈ u, v ∈ ts ++ [t])
    (hlost : l.state = .lost → ∃ v ∈ u, ∃ t' ∈ ts, Elapsed qpcFreq timings.lostHoldMs v t')
    (h : (l.tick t qpcFreq).state = .lost) :
    ∃ v ∈ u, ∃ t' ∈ ts ++ [t], Elapsed qpcFreq timings.lostHoldMs v t' := by
  rcases DropoutState.tick_lost ha hf ht h with hl | ⟨v, hv, he⟩
  · obtain ⟨v, hv, t', ht', he⟩ := hlost hl
    exact ⟨v, hv, t', mem_append_left _ ht', he⟩
  · have hle : v ≤ t := by
      rcases mem_append.1 (hmem v hv) with hv | hv
      · exact hts v hv
      · exact (mem_singleton.1 hv).le
    exact ⟨v, hv, t, by simp, he hle⟩

/-- The pose hook keeps the invariant. -/
theorem poseHook (h : SlotInv timings qpcFreq u ts s fwd) (hf : 0 < qpcFreq)
    (ht : QpcRange t) (hts : ∀ t' ∈ ts, t' ≤ t) (num : Numerics K) (src : Sources K) (b : Bool)
    (p : DriverPose K) :
    SlotInv timings qpcFreq (if p.trackedOk then some t else u) (ts ++ [t])
      (s.poseHook num src timings b t qpcFreq p).1
      ((s.poseHook num src timings b t qpcFreq p).2.or fwd) := by
  have hmem : ∀ v ∈ (if p.trackedOk then some t else u : Option ℤ), v ∈ ts ++ [t] := by
    intro v hv
    split_ifs at hv
    · simp [Option.mem_some_iff.1 hv]
    · exact mem_append_left _ (h.time_mem v hv)
  obtain ⟨hladder, hpub⟩ := DeviceSlot.maybeOverridePose_slot num src b t qpcFreq
    (s.onRealPoseObserved num timings t p) p
  -- The ladder has observed the pose; then it ticks.
  have hobs : (s.onRealPoseObserved num timings t p).ladder.Anchored timings
      (if p.trackedOk then some t else u) :=
    anchored_handle qpcFreq (e := .observe t (DeviceSlot.toWorldSpacePose num p))
      (h.anchored.setIkAvailable s.hasRole) ht
  have hlost : (s.onRealPoseObserved num timings t p).ladder.state = .lost →
      ∃ v ∈ (if p.trackedOk then some t else u : Option ℤ),
        ∃ t' ∈ ts, Elapsed qpcFreq timings.lostHoldMs v t' := by
    intro hl
    obtain ⟨hp, hl⟩ := DropoutState.onRealPoseObserved_lost hl
    have hp : p.trackedOk = false := hp
    simpa [hp] using h.lost hl
  refine ⟨hmem, ?_, fun hl => ?_, fun hsome => ?_⟩
  · rw [DeviceSlot.poseHook, hladder, DropoutState.setTimings_of_eq hobs.tick.timings_eq]
    exact hobs.tick
  · rw [DeviceSlot.poseHook, hladder] at hl
    exact tick_lost hf ht hts hobs hmem hlost hl
  · rw [Option.isSome_or, Bool.or_eq_true] at hsome
    exact hpub (hsome.imp_right fun hfwd => h.published hfwd)

/-- The republishing keeps the invariant. -/
theorem collectSilent (h : SlotInv timings qpcFreq u ts s fwd) (hf : 0 < qpcFreq)
    (ht : QpcRange t) (hts : ∀ t' ∈ ts, t' ≤ t) (num : Numerics K) (src : Sources K) :
    SlotInv timings qpcFreq u (ts ++ [t]) (s.collectSilent num src timings t qpcFreq).1
      ((s.collectSilent num src timings t qpcFreq).2.or fwd) := by
  have hmem : ∀ v ∈ u, v ∈ ts ++ [t] := fun v hv => mem_append_left _ (h.time_mem v hv)
  obtain ⟨hladder, hpub⟩ := DeviceSlot.collectSilent_slot num src timings t qpcFreq s
  have ha := (h.anchored.setIkAvailable s.hasRole)
  have hpub' (hsome : ((s.collectSilent num src timings t qpcFreq).2.or fwd).isSome) :
      (s.collectSilent num src timings t qpcFreq).1.lastPublishedValid := by
    rw [Option.isSome_or, Bool.or_eq_true] at hsome
    exact hpub (hsome.imp_right fun hfwd => h.published hfwd)
  rcases hladder with hladder | hladder
  · refine ⟨hmem, hladder ▸ h.anchored, fun hl => ?_, hpub'⟩
    obtain ⟨v, hv, t', ht', he⟩ := h.lost (hladder ▸ hl)
    exact ⟨v, hv, t', mem_append_left _ ht', he⟩
  · refine ⟨hmem, ?_, fun hl => ?_, hpub'⟩
    · rw [hladder]
      exact (DropoutState.setTimings_of_eq ha.tick.timings_eq).symm ▸ ha.tick
    · rw [hladder] at hl
      exact tick_lost hf ht hts ha hmem h.lost hl

end SlotInv

/-- A device before its first pose. -/
structure Unseen [Inhabited K] (m : PhantomModule K) (id : ℕ) : Prop where
  id_lt : id < slotCount
  ladder : (m.slots id).ladder = .fresh .defaults
  forwarded : m.forwarded id = none

/-- A device of an enabled module that is opted in, before its first pose. -/
structure OptedIn [Inhabited K] (m : PhantomModule K) (id : ℕ) (serial : String) : Prop where
  id_lt : id < slotCount
  enabled : m.masterEnabled
  slot : m.slots id = .fresh serial
  forwarded : m.forwarded id = none

theorem OptedIn.unseen [Inhabited K] {m : PhantomModule K} {id : ℕ} {serial : String}
    (h : OptedIn m id serial) : Unseen m id :=
  ⟨h.id_lt, congrArg DeviceSlot.ladder h.slot, h.forwarded⟩

/-- The invariant of the module for the device `id`. -/
structure DeviceInv (m₀ : PhantomModule K) (qpcFreq : ℤ) (id : ℕ) (u : Option ℤ) (ts : List ℤ)
    (m : PhantomModule K) : Prop where
  timings_eq : m.timings = m₀.timings
  enabled_eq : m.masterEnabled = m₀.masterEnabled
  slot : SlotInv m₀.timings qpcFreq u ts (m.slots id) (m.forwarded id)

variable {m₀ m : PhantomModule K} {num : Numerics K} {qpcFreq : ℤ} {id : ℕ} {u : Option ℤ}
  {ts : List ℤ} {evs : List (PhantomEvent K)}

theorem SlotInv.append {timings : LadderTimings} {s : DeviceSlot K} {fwd : Option (DriverPose K)}
    (h : SlotInv timings qpcFreq u ts s fwd) (ts' : List ℤ) :
    SlotInv timings qpcFreq u (ts ++ ts') s fwd where
  time_mem t ht := mem_append_left _ (h.time_mem t ht)
  anchored := h.anchored
  lost hl := by
    obtain ⟨v, hv, t', ht', he⟩ := h.lost hl
    exact ⟨v, hv, t', mem_append_left _ ht', he⟩
  published := h.published

theorem PhantomEvent.time?_of_tick? {e : PhantomEvent K} {t : ℤ} (h : t ∈ e.tick? id) :
    t ∈ e.time? := by
  cases e with
  | pose i t' p src => exact (Option.ite_none_right_eq_some.1 h).2
  | collect trigger t' src => exact (Option.ite_none_left_eq_some.1 h).2
  | assignRole i hasRole => exact h

theorem mem_times_of_mem_ticksOf {t : ℤ} (h : t ∈ ticksOf id evs) : t ∈ times evs := by
  obtain ⟨e, he, ht⟩ := mem_filterMap.1 h
  exact mem_filterMap.2 ⟨e, he, PhantomEvent.time?_of_tick? ht⟩

theorem DeviceInv.handle (h : DeviceInv m₀ qpcFreq id u ts m) (hid : id < slotCount)
    (hf : 0 < qpcFreq) {e : PhantomEvent K} (hrange : ∀ t ∈ e.time?, QpcRange t)
    (hts : ∀ t ∈ e.time?, ∀ t' ∈ ts, t' ≤ t) :
    DeviceInv m₀ qpcFreq id (e.lastOk id u) (ts ++ (e.tick? id).toList)
      (m.handle num qpcFreq e) := by
  cases e with
  | pose i t p src =>
    by_cases hi : i = id
    · subst hi
      have hs := h.slot.poseHook hf (hrange t rfl) (hts t rfl) num src m.masterEnabled p
      rw [PhantomModule.handle, PhantomModule.handlePose, if_pos hid]
      refine ⟨h.timings_eq, h.enabled_eq, ?_⟩
      simpa [PhantomEvent.lastOk, PhantomEvent.tick?, h.timings_eq] using hs
    · -- The pose of another device leaves the slot of this one as it is.
      rw [PhantomModule.handle, PhantomModule.handlePose]
      split_ifs
      · refine ⟨h.timings_eq, h.enabled_eq, ?_⟩
        simpa [PhantomEvent.lastOk, PhantomEvent.tick?, hi, Ne.symm hi] using h.slot
      · refine ⟨h.timings_eq, h.enabled_eq, ?_⟩
        simpa [PhantomEvent.lastOk, PhantomEvent.tick?, hi, Ne.symm hi] using h.slot
  | collect trigger t src =>
    rw [PhantomModule.handle, PhantomModule.collectSilentPoseUpdates]
    split_ifs
    · exact ⟨h.timings_eq, h.enabled_eq, h.slot.append _⟩
    · refine ⟨h.timings_eq, h.enabled_eq, ?_⟩
      dsimp only [PhantomModule.collectSlot]
      split_ifs with hloop
      · have hs := h.slot.collectSilent hf (hrange t rfl) (hts t rfl) num (src id)
        simpa only [PhantomEvent.lastOk, PhantomEvent.tick?, if_neg hloop.2.symm,
          Option.toList_some, h.timings_eq] using hs
      · exact h.slot.append _
  | assignRole i hasRole =>
    refine ⟨h.timings_eq, h.enabled_eq, ?_⟩
    by_cases hi : i = id
    · subst hi
      simpa [PhantomModule.handle, PhantomEvent.lastOk, PhantomEvent.tick?] using
        (⟨h.slot.time_mem, h.slot.anchored, h.slot.lost, h.slot.published⟩ :
          SlotInv m₀.timings qpcFreq u ts { m.slots i with hasRole := hasRole } (m.forwarded i))
    · simpa [PhantomModule.handle, PhantomEvent.lastOk, PhantomEvent.tick?, Ne.symm hi]
        using h.slot

theorem deviceInv_run [Inhabited K] (num : Numerics K) (hm : Unseen m id) (hf : 0 < qpcFreq)
    (hsorted : (times evs).Pairwise (· ≤ ·)) (hrange : ∀ t ∈ times evs, QpcRange t) :
    DeviceInv m qpcFreq id (lastOkOf id evs) (ticksOf id evs) (m.run num qpcFreq evs) := by
  induction evs using List.reverseRecOn with
  | nil =>
    refine ⟨rfl, rfl, ?_⟩
    rw [PhantomModule.run, foldl_nil, hm.forwarded]
    refine ⟨by simp [lastOkOf], ?_, ?_, by simp⟩
    · rw [hm.ladder]
      exact DropoutState.anchored_fresh m.timings
    · rw [hm.ladder]
      exact nofun
  | append_singleton evs e ih =>
    have htimes : times (evs ++ [e]) = times evs ++ e.time?.toList := by
      rw [times, filterMap_append]
      cases h : e.time? <;> simp [h, times]
    have hticks : ticksOf id (evs ++ [e]) = ticksOf id evs ++ (e.tick? id).toList := by
      rw [ticksOf, filterMap_append]
      cases h : e.tick? id <;> simp [h, ticksOf]
    rw [htimes] at hsorted hrange
    rw [pairwise_append] at hsorted
    obtain ⟨hsorted, -, hle⟩ := hsorted
    rw [hticks, PhantomModule.run, lastOkOf, foldl_append, foldl_append]
    refine (ih hsorted fun t ht => hrange t (mem_append_left _ ht)).handle hm.id_lt hf ?_ ?_
    · exact fun t ht => hrange t (mem_append_right _ (Option.mem_toList.2 ht))
    · exact fun t ht t' ht' =>
        hle t' (mem_times_of_mem_ticksOf ht') t (Option.mem_toList.2 ht)

/-- A republishing in the window leaves the device with a healthy pose exactly if
    that pose was forwarded before, and the republishing does not replace it. -/
theorem forwardedHealthy_collect_iff (h : DeviceInv m₀ qpcFreq id u ts m) (hid : id < slotCount)
    (henabled : m₀.masterEnabled) (hf : 0 < qpcFreq) {trigger : ℕ} (htrigger : trigger ≠ id)
    {t v : ℤ} {src : ℕ → Sources K}
    (ht : QpcRange t) (hts : ∀ t' ∈ ts, t' ≤ t) (hu : u = some v)
    (hsynth : Elapsed qpcFreq m₀.timings.synthHoldMs v t)
    (hwindow : ¬Elapsed qpcFreq m₀.timings.lostHoldMs v t) :
    ForwardedHealthy ((m.handle num qpcFreq (.collect trigger t src)).forwarded id) ↔
      ForwardedHealthy (m.forwarded id) ∧ ¬Republishes m₀.timings qpcFreq v t (m.slots id) := by
  subst hu
  have hout : (m.handle num qpcFreq (.collect trigger t src)).forwarded id =
      ((m.slots id).collectSilent num (src id) m₀.timings t qpcFreq).2.or (m.forwarded id) := by
    rw [PhantomModule.handle, PhantomModule.collectSilentPoseUpdates,
      if_neg (by simp [h.enabled_eq, henabled, hf])]
    simp only [PhantomModule.collectSlot, hid, Ne.symm htrigger, h.timings_eq, ne_eq,
      not_false_eq_true, and_self, if_true]
  have hvt : v ≤ t := hts v (h.slot.time_mem v rfl)
  have hlost : (m.slots id).ladder.state ≠ .lost := by
    intro hl
    obtain ⟨v', hv', t', ht', he⟩ := h.slot.lost hl
    obtain rfl := Option.mem_some_iff.1 hv'
    exact hwindow (he.mono_time (hts t' ht'))
  rw [hout]
  by_cases hr : Republishes m₀.timings qpcFreq v t (m.slots id)
  · obtain ⟨hsome, hres⟩ := DeviceSlot.collectSilent_of_republishes num (src id) hf ht hvt
      h.slot.anchored hlost hsynth hwindow hr
    refine iff_of_false ?_ (fun hh => hh.2 hr)
    rintro ⟨q, hq, hok, -⟩
    rcases Option.or_eq_some_iff.1 hq with hq | ⟨hnone, hq⟩
    · simp [hres q hq] at hok
    · -- Only a device that has never published has nothing to publish.
      have := hsome (h.slot.published (Option.isSome_of_mem hq))
      simp [hnone] at this
  · rw [DeviceSlot.collectSilent_of_not_republishes hf ht hvt h.slot.anchored hr, Option.none_or]
    exact ⟨fun hh => ⟨hh, hr⟩, fun hh => hh.1⟩

/-- The republishings that concern the device `id`: those triggered by another
    device while the last healthy pose of `id`, at `u`, is at least `synthHoldMs`
    and less than `lostHoldMs` old. -/
def Concerns (timings : LadderTimings) (qpcFreq : ℤ) (id : ℕ) (pre : List (PhantomEvent K))
    (trigger : ℕ) (t u : ℤ) : Prop :=
  trigger ≠ id ∧ lastOkOf id pre = some u ∧ Elapsed qpcFreq timings.synthHoldMs u t ∧
    ¬Elapsed qpcFreq timings.lostHoldMs u t

/-- Frozen trackers of the module: in a run with times in order, no republishing
    that concerns a device leaves it with a healthy pose if and only if each of
    them replaces its pose, or finds it with a pose that is not healthy. -/
theorem republish_not_frozen_iff [Inhabited K] (num : Numerics K) (qpcFreq : ℤ) (hf : 0 < qpcFreq)
    (m : PhantomModule K) (id : ℕ) (serial : String) (hm : OptedIn m id serial)
    (evs : List (PhantomEvent K)) (hsorted : (times evs).Pairwise (· ≤ ·))
    (hrange : ∀ t ∈ times evs, QpcRange t) :
    (∀ pre trigger t src, pre ++ [.collect trigger t src] <+: evs →
      ∀ u, Concerns m.timings qpcFreq id pre trigger t u → ¬ForwardedHealthy
          ((m.run num qpcFreq (pre ++ [.collect trigger t src])).forwarded id)) ↔
    ∀ pre trigger t src, pre ++ [.collect trigger t src] <+: evs →
      ∀ u, Concerns m.timings qpcFreq id pre trigger t u →
        ¬ForwardedHealthy ((m.run num qpcFreq pre).forwarded id) ∨
          Republishes m.timings qpcFreq u t ((m.run num qpcFreq pre).slots id) := by
  refine forall₄_congr fun pre trigger t src => imp_congr_right fun hpre => forall_congr' fun u =>
    imp_congr_right fun ⟨htrigger, hu, hsynth, hwindow⟩ => ?_
  -- The times of the prefix are in order, and end with `t`.
  have htimes : times pre ++ [t] <+: times evs := by
    have := hpre.filterMap PhantomEvent.time?
    rwa [filterMap_append] at this
  have hpair := hsorted.sublist htimes.sublist
  rw [pairwise_append] at hpair
  have hinv := deviceInv_run num hm.unseen hf hpair.1 fun t' ht' =>
    hrange t' (htimes.subset (mem_append_left _ ht'))
  have hrun : m.run num qpcFreq (pre ++ [.collect trigger t src]) =
      (m.run num qpcFreq pre).handle num qpcFreq (.collect trigger t src) := by
    rw [PhantomModule.run, foldl_append]
    rfl
  rw [hrun, forwardedHealthy_collect_iff hinv hm.id_lt hm.enabled hf htrigger
    (hrange t (htimes.subset (mem_append_right _ (mem_singleton_self t))))
    (fun t' ht' => hpair.2.2 t' (mem_times_of_mem_ticksOf ht') t (mem_singleton_self t)) hu hsynth
    hwindow, not_and_or, not_not]

/-- Computations on trivial kinematic parts. -/
def Numerics.unit : Numerics Unit := ⟨fun k => k, fun _ => true, fun k _ _ => k, fun a _ _ => a⟩

/-- No body solver has a pose. -/
def Sources.none : Sources Unit := ⟨.none, .none⟩

/-- A module whose devices are all opted in. -/
def PhantomModule.unit : PhantomModule Unit where
  timings := .defaults
  masterEnabled := true
  slots _ := .fresh "tracker"
  forwarded _ := .none

theorem optedIn_unit : OptedIn PhantomModule.unit 1 "tracker" := ⟨by decide, rfl, rfl, rfl⟩

/-- A healthy pose of the device `1`. -/
def healthyPose : PhantomEvent Unit := .pose 1 0 (.healthy ()) .none

/-- A republishing by the device `0`, two and a half seconds later. -/
def lateCollect : PhantomEvent Unit := .collect 0 25000000 fun _ => .none

/-- A pose of the device `1` that is out of range, after 100 ms. -/
def outOfRangePose : PhantomEvent Unit :=
  .pose 1 1000000 { DriverPose.healthy () with result := .runningOutOfRange } .none

/-- A device that falls silent after a healthy pose is republished out of range. -/
theorem republish_not_frozen_iff_silence :
    Concerns .defaults 10000000 1 [healthyPose] 0 25000000 0 ∧
      ¬ForwardedHealthy
        ((PhantomModule.unit.run .unit 10000000 [healthyPose, lateCollect]).forwarded 1) := by
  have hc : Concerns .defaults 10000000 1 [healthyPose] 0 25000000 0 :=
    ⟨by decide, rfl, by decide, by decide⟩
  refine ⟨hc, (republish_not_frozen_iff .unit 10000000 (by decide) .unit 1 "tracker" optedIn_unit
    [healthyPose, lateCollect] (by decide) (by simp [times, healthyPose, lateCollect,
      PhantomEvent.time?, QpcRange])).2 ?_ [healthyPose] 0 25000000 _ (prefix_refl _) 0 hc⟩
  intro pre trigger t src hpre u hu
  obtain ⟨rfl, rfl, rfl, -⟩ : pre = [healthyPose] ∧ trigger = 0 ∧ t = 25000000 ∧ _ := by
    simpa [concat_prefix_cons, not_concat_prefix_nil, healthyPose, lateCollect] using hpre
  obtain rfl : 0 = u := Option.some.inj hu.2.1
  exact .inr ⟨rfl, by decide, fun _ => by decide, rfl⟩

/-- A device that is out of range after a healthy pose is given a synthesised
    pose, which is healthy, and then skipped. -/
theorem skipped_device_stays_healthy :
    Concerns .defaults 10000000 1 [healthyPose, outOfRangePose] 0 25000000 0 ∧
      ForwardedHealthy ((PhantomModule.unit.run .unit 10000000
        [healthyPose, outOfRangePose, lateCollect]).forwarded 1) :=
  ⟨⟨by decide, rfl, by decide, by decide⟩, _, rfl, rfl, rfl⟩

end WKOpenVR.Phantom
