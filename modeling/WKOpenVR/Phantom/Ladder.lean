import WKOpenVR.Machine
import WKOpenVR.Phantom.Dropout
import Mathlib.Data.List.Induction
import Mathlib.Tactic.Linarith

/-!
# Runs of the dropout ladder

The ladder exists to prevent a frozen tracker: once a tracker has been silent
for `synthHoldMs`, its published result must not be healthy any more. Along
every sequence of calls:

* in a dropout (any state but `real` and `blendIn`), the dropout starts at the
  last healthy pose (`Anchored`), so that its age is the silence;
* a tick after a silence of `synthHoldMs` then ends in `outOfRange` or `lost`
  (`tick_escalates`), unless it finds the ladder in `blendIn`, which the
  escalation does not apply to: it ends in `blendIn` or `real`, both published
  as healthy (`tick_of_blendIn`).

So a tick leaves a frozen tracker exactly when it comes, after that silence, to
a ladder blending back (`frozen_tracker_iff`).
-/

namespace WKOpenVR.Phantom

variable {K : Type*} {qpcFreq t u : ℤ}

/-! ## Time -/

/-- The readings of the counter whose differences can be converted to
    milliseconds without leaving the 64-bit integers. -/
def QpcRange (t : ℤ) : Prop := 0 ≤ t ∧ t ≤ (2 ^ 63 - 1) / 1000

/-- At time `t`, the time `u` is at least `ms` milliseconds ago. -/
def Elapsed (qpcFreq : ℤ) (ms : ℕ) (u t : ℤ) : Prop := ms * qpcFreq ≤ (t - u) * 1000

instance (qpcFreq : ℤ) (ms : ℕ) (u t : ℤ) : Decidable (Elapsed qpcFreq ms u t) :=
  inferInstanceAs (Decidable (_ ≤ _))

theorem i64_eq {x : ℤ} (hlo : -2 ^ 63 ≤ x) (hhi : x < 2 ^ 63) : i64 x = x :=
  Int.bmod_eq_of_le (by omega) (by omega)

theorem i64_sub_eq (ht : QpcRange t) (hu : QpcRange u) : i64 (t - u) = t - u := by
  obtain ⟨ht0, ht1⟩ := ht
  obtain ⟨hu0, hu1⟩ := hu
  exact i64_eq (by omega) (by omega)

/-- The conversion to milliseconds, for a time that has passed. -/
theorem qpcMs_sub (hf : 0 < qpcFreq) (ht : QpcRange t) (hu : QpcRange u) (hut : u ≤ t) :
    qpcMs (i64 (t - u)) qpcFreq = (t - u) * 1000 / qpcFreq := by
  rw [i64_sub_eq ht hu, qpcMs]
  obtain ⟨ht0, ht1⟩ := ht
  obtain ⟨hu0, hu1⟩ := hu
  split_ifs with h
  · rcases h with h | h
    · omega
    · rw [show t - u = 0 by omega, zero_mul, Int.zero_ediv]
  · rw [i64_eq (by omega) (by omega), Int.tdiv_eq_ediv_of_nonneg (by omega)]

variable {ms : ℕ}

/-- A silence is at least `ms` milliseconds long when `ms` milliseconds have
    passed. -/
theorem le_qpcMs_iff (hf : 0 < qpcFreq) (ht : QpcRange t) (hu : QpcRange u) (hut : u ≤ t) :
    (ms : ℤ) ≤ qpcMs (i64 (t - u)) qpcFreq ↔ Elapsed qpcFreq ms u t := by
  rw [qpcMs_sub hf ht hu hut, Int.le_ediv_iff_mul_le hf, Elapsed]

theorem Elapsed.le (hf : 0 < qpcFreq) (h : Elapsed qpcFreq ms u t) : u ≤ t := by
  have hms : 0 ≤ (ms : ℤ) * qpcFreq := mul_nonneg (Int.natCast_nonneg ms) hf.le
  rw [Elapsed] at h
  omega

theorem Elapsed.mono {ms' : ℕ} (hf : 0 < qpcFreq) (hms : ms ≤ ms') (h : Elapsed qpcFreq ms' u t)
    : Elapsed qpcFreq ms u t :=
  (mul_le_mul_of_nonneg_right (Int.ofNat_le.2 hms) hf.le).trans h

/-! ## The blocks of a tick -/

namespace DropoutState

variable {s : DropoutState K} {qpcNs ageMs : ℤ}

/-- A state of a dropout: neither `real` nor on the way back to it. -/
def InDropout (s : DropoutState K) : Prop := s.state ≠ .real ∧ s.state ≠ .blendIn

@[simp] theorem escalateTo_timings : (s.escalateTo ageMs).timings = s.timings := by
  unfold escalateTo; dsimp only; split_ifs <;> rfl

@[simp] theorem escalateTo_lastReal : (s.escalateTo ageMs).lastRealQpcNs = s.lastRealQpcNs := by
  unfold escalateTo; dsimp only; split_ifs <;> rfl

@[simp] theorem escalateTo_dropoutStart :
    (s.escalateTo ageMs).dropoutStartQpcNs = s.dropoutStartQpcNs := by
  unfold escalateTo; dsimp only; split_ifs <;> rfl

/-- The escalation stays in the dropout. -/
theorem escalateTo_inDropout (h : s.InDropout) : (s.escalateTo ageMs).InDropout := by
  obtain ⟨hr, hb⟩ := h
  rw [escalateTo, InDropout]
  split_ifs <;> simp_all

/-- Past `synthHoldMs`, the escalation ends in `outOfRange` or `lost`. -/
theorem escalateTo_of_synthHold (h : (s.timings.synthHoldMs : ℤ) ≤ ageMs) :
    (s.escalateTo ageMs).state = .outOfRange ∨ (s.escalateTo ageMs).state = .lost := by
  rw [escalateTo]
  split_ifs <;> simp_all
  -- Nothing changed: the ladder was in one of the two states already.
  by_cases ho : s.state = .outOfRange
  · exact .inl ho
  · exact .inr (by simp_all)

/-- Before `lostHoldMs`, the escalation does not lose the device. -/
theorem escalateTo_of_lt_lostHold (h : ageMs < s.timings.lostHoldMs) (hs : s.state ≠ .lost) :
    (s.escalateTo ageMs).state ≠ .lost := by
  rw [escalateTo]
  split_ifs <;> simp_all <;> omega

/-! ## The invariant -/

/-- The invariant of a run whose last healthy pose is at `u`: in a dropout, the
    dropout starts at that pose. -/
structure Anchored (timings : LadderTimings) (u : Option ℤ) (s : DropoutState K) : Prop where
  timings_eq : s.timings = timings
  lastReal_eq : s.lastRealQpcNs = u.getD (-1)
  range : ∀ t ∈ u, QpcRange t
  dropout : s.InDropout → s.dropoutStartQpcNs = s.lastRealQpcNs ∧ 0 ≤ s.lastRealQpcNs

variable {timings : LadderTimings} {u : Option ℤ}

theorem anchored_fresh [Inhabited K] (timings : LadderTimings) :
    Anchored timings none (fresh timings : DropoutState K) where
  timings_eq := rfl
  lastReal_eq := rfl
  range := by simp
  dropout h := absurd rfl h.1

theorem Anchored.setIkAvailable (h : Anchored timings u s) (v : Bool) :
    Anchored timings u (s.setIkAvailable v) :=
  ⟨h.1, h.2, h.3, h.4⟩

variable {p : DriverPose K}

/-- A healthy pose leaves any dropout. -/
theorem Anchored.observe (h : Anchored timings u s) (hq : QpcRange qpcNs)
    (hp : p.trackedOk) : Anchored timings (some qpcNs) (s.onRealPoseObserved qpcNs p) := by
  have hp' : p.result = .runningOK ∧ p.poseIsValid ∧ p.deviceIsConnected := by
    simp only [DriverPose.trackedOk, Bool.and_eq_true, beq_iff_eq] at hp
    exact ⟨hp.2, hp.1.1, hp.1.2⟩
  rw [onRealPoseObserved, if_pos hp']
  dsimp only
  split_ifs with hd hb
  · exact ⟨h.timings_eq, rfl, by simpa using hq, fun hi => absurd rfl hi.2⟩
  · exact ⟨h.timings_eq, rfl, by simpa using hq, fun hi => absurd rfl hi.2⟩
  · refine ⟨h.timings_eq, rfl, by simpa using hq, fun hi => ?_⟩
    obtain ⟨hr, hi⟩ := hi
    cases hs : s.state <;> simp_all

/-- Any other pose is ignored. -/
theorem onRealPoseObserved_of_not_trackedOk (hp : p.trackedOk = false) :
    s.onRealPoseObserved qpcNs p = s := by
  rw [onRealPoseObserved, if_neg]
  rintro ⟨hr, hv, hc⟩
  simp [DriverPose.trackedOk, hr, hv, hc] at hp

theorem Anchored.detectSilence (h : Anchored timings u s) :
    Anchored timings u (s.detectSilence qpcNs qpcFreq) := by
  rw [DropoutState.detectSilence]
  split_ifs with hd
  · exact ⟨h.timings_eq, h.lastReal_eq, h.range, fun _ => ⟨rfl, hd.2.1⟩⟩
  · exact h

theorem Anchored.escalate (h : Anchored timings u s) :
    Anchored timings u (s.escalate qpcNs qpcFreq) := by
  rw [DropoutState.escalate]
  split_ifs with hd
  · refine ⟨?_, ?_, h.range, fun _ => ?_⟩
    · rw [escalateTo_timings, h.timings_eq]
    · rw [escalateTo_lastReal, h.lastReal_eq]
    · rw [escalateTo_dropoutStart, escalateTo_lastReal]
      exact h.dropout hd.2
  · exact h

theorem Anchored.finishBlendIn (h : Anchored timings u s) :
    Anchored timings u (s.finishBlendIn qpcNs qpcFreq) := by
  rw [DropoutState.finishBlendIn]
  split
  · split
    · exact ⟨h.timings_eq, h.lastReal_eq, h.range, fun hi => absurd rfl hi.1⟩
    · exact h
  · exact h

theorem Anchored.tick (h : Anchored timings u s) : Anchored timings u (s.tick qpcNs qpcFreq) :=
  h.detectSilence.escalate.finishBlendIn

/-! ## What a tick publishes -/

/-- The published result is not healthy: out of range, or nothing at all. -/
def NotHealthy (s : DropoutState K) : Prop :=
  s.shouldPublish = false ∨ s.trackingResultOverride ≠ .runningOK

instance : Decidable s.NotHealthy := inferInstanceAs (Decidable (_ ∨ _))

theorem notHealthy_iff : s.NotHealthy ↔ s.state = .outOfRange ∨ s.state = .lost := by
  cases hs : s.state <;> simp [NotHealthy, shouldPublish, trackingResultOverride, hs]

/-- The blend back has nothing to end in a dropout. -/
theorem finishBlendIn_of_inDropout (h : s.InDropout) : s.finishBlendIn qpcNs qpcFreq = s := by
  rw [finishBlendIn, if_neg fun hb => h.2 hb.1]

/-- A tick after a silence of `synthHoldMs` escalates a ladder that is not
    blending back, if the silence is long enough to be noticed. -/
theorem tick_escalates (h : Anchored timings u s) (hf : 0 < qpcFreq) (hq : QpcRange qpcNs)
    {t : ℤ} (hu : u = some t) (hs : s.state ≠ .blendIn)
    (hr : s.state = .real → Elapsed qpcFreq timings.dropoutSilenceMs t qpcNs)
    (he : Elapsed qpcFreq timings.synthHoldMs t qpcNs) :
    (s.tick qpcNs qpcFreq).state = .outOfRange ∨ (s.tick qpcNs qpcFreq).state = .lost := by
  subst hu
  have ht : QpcRange t := h.range t rfl
  have hlast : s.lastRealQpcNs = t := h.lastReal_eq
  -- Once the silence is detected, the ladder is in a dropout starting at `t`.
  have hd : (s.detectSilence qpcNs qpcFreq).InDropout := by
    rw [detectSilence]
    split_ifs with hc
    · exact ⟨by simp, by simp⟩
    · refine ⟨fun hreal => hc ⟨hreal, hlast ▸ ht.1, ?_⟩, hs⟩
      rw [silenceMs, hlast, if_neg (not_lt.2 ht.1), h.timings_eq, le_qpcMs_iff hf hq ht (he.le hf)]
      exact hr hreal
  have ha : Anchored timings (some t) (s.detectSilence qpcNs qpcFreq) := h.detectSilence
  obtain ⟨hstart, h0⟩ := ha.dropout hd
  have hstart : (s.detectSilence qpcNs qpcFreq).dropoutStartQpcNs = t := hstart.trans ha.lastReal_eq
  rw [DropoutState.tick, escalate, if_pos ⟨hstart ▸ ht.1, hd⟩,
    finishBlendIn_of_inDropout (escalateTo_inDropout hd)]
  refine escalateTo_of_synthHold ?_
  rw [ha.timings_eq, hstart, le_qpcMs_iff hf hq ht (he.le hf)]
  exact he

/-- A tick finding the ladder in `blendIn` leaves it there, or in `real`. -/
theorem tick_of_blendIn (hs : s.state = .blendIn) :
    (s.tick qpcNs qpcFreq).state = .blendIn ∨ (s.tick qpcNs qpcFreq).state = .real := by
  have hd : s.detectSilence qpcNs qpcFreq = s := by
    rw [detectSilence, if_neg fun h => by simp [hs] at h]
  have he : s.escalate qpcNs qpcFreq = s := by
    rw [escalate, if_neg fun h => h.2.2 hs]
  rw [DropoutState.tick, hd, he, finishBlendIn]
  split_ifs <;> simp [hs]

end DropoutState

/-! ## Runs -/

inductive LadderEvent (K : Type*)
  | observe (qpcNs : ℤ) (pose : DriverPose K)
  | setIkAvailable (v : Bool)
  | tick (qpcNs : ℤ)

/-- The readings of the counter in the calls are in range. -/
def LadderEvent.InRange : LadderEvent K → Prop
  | .observe t _ => QpcRange t
  | .setIkAvailable _ => True
  | .tick t => QpcRange t

def DropoutState.handle (qpcFreq : ℤ) (s : DropoutState K) : LadderEvent K → DropoutState K
  | .observe t p => s.onRealPoseObserved t p
  | .setIkAvailable v => s.setIkAvailable v
  | .tick t => s.tick t qpcFreq

/-- The ladder after the calls `evs`, from a fresh one. -/
def ladder [Inhabited K] (timings : LadderTimings) (qpcFreq : ℤ) (evs : List (LadderEvent K)) :
    DropoutState K :=
  evs.foldl (DropoutState.handle qpcFreq) (.fresh timings)

/-- The time of the last healthy pose, given the one before a call. -/
def LadderEvent.lastOk (u : Option ℤ) : LadderEvent K → Option ℤ
  | .observe t p => if p.trackedOk then some t else u
  | .setIkAvailable _ => u
  | .tick _ => u

/-- The time of the last healthy pose observed by the calls `evs`. -/
def lastOk (evs : List (LadderEvent K)) : Option ℤ := evs.foldl LadderEvent.lastOk none

open DropoutState

variable {timings : LadderTimings}

theorem anchored_handle (qpcFreq : ℤ) {u : Option ℤ}
    {s : DropoutState K} (h : Anchored timings u s) {e : LadderEvent K} (he : e.InRange) :
    Anchored timings (e.lastOk u) (s.handle qpcFreq e) := by
  cases e with
  | observe t p =>
    cases hp : p.trackedOk with
    | true => simpa [handle, LadderEvent.lastOk, hp] using h.observe he hp
    | false =>
      rw [handle, onRealPoseObserved_of_not_trackedOk hp]
      simpa [LadderEvent.lastOk, hp] using h
  | setIkAvailable v => exact h.setIkAvailable v
  | tick t => exact h.tick

variable {evs : List (LadderEvent K)}

/-- The ladder is anchored after every sequence of calls. -/
theorem anchored_ladder [Inhabited K] (timings : LadderTimings) (qpcFreq : ℤ)
    (hevs : ∀ e ∈ evs, e.InRange) :
    Anchored timings (lastOk evs) (ladder timings qpcFreq evs) := by
  induction evs using List.reverseRecOn with
  | nil => exact anchored_fresh timings
  | append_singleton evs e ih =>
    rw [lastOk, ladder, List.foldl_append, List.foldl_append]
    exact anchored_handle qpcFreq (ih fun e he => hevs e (List.mem_append_left _ he))
      (hevs e (List.mem_append_right _ (List.mem_singleton_self e)))

/-- After the calls `evs`, a tick at `t` does not publish a frozen tracker: if
    the last healthy pose is `synthHoldMs` old, the published result is not
    healthy. -/
def NotFrozen [Inhabited K] (timings : LadderTimings) (qpcFreq : ℤ) (evs : List (LadderEvent K))
    (t : ℤ) : Prop :=
  ∀ u, lastOk evs = some u → Elapsed qpcFreq timings.synthHoldMs u t →
    (ladder timings qpcFreq (evs ++ [.tick t])).NotHealthy

/-- After the calls `evs`, a tick at `t` does not come to a ladder blending back
    from a pose that is `synthHoldMs` old. -/
def NotBlendingIn [Inhabited K] (timings : LadderTimings) (qpcFreq : ℤ)
    (evs : List (LadderEvent K)) (t : ℤ) : Prop :=
  (ladder timings qpcFreq evs).state = .blendIn →
    ∀ u, lastOk evs = some u → ¬Elapsed qpcFreq timings.synthHoldMs u t

theorem notFrozen_iff [Inhabited K]
    (hsilence : timings.dropoutSilenceMs ≤ timings.synthHoldMs) {qpcFreq : ℤ} (hf : 0 < qpcFreq)
    (hevs : ∀ e ∈ evs, e.InRange) {t : ℤ} (ht : QpcRange t) :
    NotFrozen timings qpcFreq evs t ↔ NotBlendingIn timings qpcFreq evs t := by
  have htick : ladder timings qpcFreq (evs ++ [.tick t]) =
      (ladder timings qpcFreq evs).tick t qpcFreq := by
    rw [ladder, List.foldl_append]; rfl
  constructor
  · intro h hb u hu he
    have hn := notHealthy_iff.1 (h u hu he)
    rw [htick] at hn
    rcases tick_of_blendIn hb with hs | hs <;> rw [hs] at hn <;> simp at hn
  · intro h u hu he
    rw [htick, notHealthy_iff]
    exact tick_escalates (anchored_ladder timings qpcFreq hevs) hf ht hu (fun hb => h hb u hu he)
      (fun _ => he.mono hf hsilence) he

/-- Frozen trackers: in a run, no tick publishes a frozen tracker if and only if
    no tick comes, `synthHoldMs` after the last healthy pose, to a ladder
    blending back. -/
theorem frozen_tracker_iff [Inhabited K] (timings : LadderTimings)
    (hsilence : timings.dropoutSilenceMs ≤ timings.synthHoldMs) (qpcFreq : ℤ) (hf : 0 < qpcFreq)
    (evs : List (LadderEvent K)) (hevs : ∀ e ∈ evs, e.InRange) :
    (∀ pre t, pre ++ [.tick t] <+: evs → NotFrozen timings qpcFreq pre t) ↔
      ∀ pre t, pre ++ [.tick t] <+: evs → NotBlendingIn timings qpcFreq pre t := by
  refine forall_congr' fun pre => forall_congr' fun t => imp_congr_right fun hpre => ?_
  have hmem : ∀ e ∈ pre ++ [LadderEvent.tick t], e.InRange := fun e he => hevs e (hpre.subset he)
  exact notFrozen_iff hsilence hf (fun e he => hmem e (List.mem_append_left _ he))
    (hmem (.tick t) (List.mem_append_right _ (List.mem_singleton_self _)))

/-- A healthy pose and a tick three seconds later, on a counter of 10 MHz. -/
theorem frozen_tracker_iff_silence :
    lastOk [.observe 0 (.healthy ())] = some 0 ∧
      ∀ pre t, pre ++ [.tick t] <+: [.observe 0 (.healthy ()), .tick 30000000] →
        NotFrozen .defaults 10000000 pre t := by
  refine ⟨rfl, (frozen_tracker_iff .defaults (by decide) 10000000 (by decide) _ ?_).2 ?_⟩
  · simp [LadderEvent.InRange, QpcRange]
  · intro pre t h hb
    obtain ⟨rfl, rfl⟩ : pre = [.observe 0 (.healthy ())] ∧ t = 30000000 := by
      simpa [concat_prefix_cons, not_concat_prefix_nil] using h
    exact absurd hb (by decide)

/-- The blend back is not escalated: a dropout is noticed after 40 ms, the pose
    at 50 ms starts the blend back, and the tick more than two seconds later
    publishes the pose as healthy. -/
theorem late_tick_in_blendIn_publishes_healthy :
    let evs := [.observe 0 (.healthy ()), .tick 400000, .observe 500000 (.healthy ())]
    lastOk evs = some 500000 ∧ Elapsed 10000000 LadderTimings.defaults.synthHoldMs 500000 25000000 ∧
      ¬(ladder .defaults 10000000 (evs ++ [.tick 25000000])).NotHealthy := by
  decide

end WKOpenVR.Phantom
