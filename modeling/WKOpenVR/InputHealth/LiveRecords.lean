import WKOpenVR.Withdrawal
import WKOpenVR.InputHealth.LearningEngine

/-!
# What the engine stands for, and what it withdraws

A record is *live* while it is ready and the corrections of its device are switched on. The
keys of the live records are those the driver may hold entries for (`Engine.live`).

Every call of the engine asserts keys of live records only, and withdraws every key that it
makes lose its records: if the driver held at most keys of live records, and no withdrawal
is lost, then it does so again (`Engine.Advances`). One invariant is needed for this
(`Engine.Sound`): the engine's own state of a component is ready if the record of the path
is, as otherwise a synchronization that pushes nothing would make the record unready.

Two paths that agree in their first 63 characters have the same key. A withdrawal for one of
them takes the entry of the other.
-/

namespace WKOpenVR.InputHealth

open FloatArith FloatMath Withdrawal List Function Option

variable {K : Type*}

/-- A path as the driver reads it from a request. -/
def wirePath (path : Path) : Path := pathString (Engine.copyPath path)

/-- The profile has a ready record for the path, and its corrections are switched on. -/
def DeviceProfile.Live (profile : DeviceProfile K) (path : Path) : Prop :=
  profile.correctionsEnabled = true ∧
    ∃ record ∈ profile.learnedPaths, record.ready = true ∧ wirePath record.path = path

/-- What a request says about its key. -/
def CompensationEntry.message (entry : CompensationEntry K) : Message CompensationKey :=
  if entry.enabled then .assert entry.key else .withdraw entry.key

/-! ## Records -/

namespace DeviceProfile

variable {profile : DeviceProfile K} {record r : LearnedPathRecord K} {path : Path}

theorem findRecord_setRecord_self :
    (profile.setRecord record).findRecord record.path = some record := by
  obtain ⟨_, _, records⟩ := profile
  change (setRecordIn record records).find? _ = _
  induction records with
  | nil => simp [setRecordIn]
  | cons r records ih =>
    rw [setRecordIn]
    split_ifs with h
    · simp
    · rw [find?_cons_of_neg (by simpa using h)]
      exact ih

theorem findRecord_setRecord_of_ne (h : record.path ≠ path) :
    (profile.setRecord record).findRecord path = profile.findRecord path := by
  obtain ⟨_, _, records⟩ := profile
  change (setRecordIn record records).find? _ = records.find? _
  induction records with
  | nil => simp [setRecordIn, h]
  | cons r records ih =>
    rw [setRecordIn]
    split_ifs with hr
    · rw [find?_cons_of_neg (by simpa using h), find?_cons_of_neg (by simpa [hr] using h)]
    · by_cases hp : r.path = path
      · rw [find?_cons_of_pos (by simpa using hp), find?_cons_of_pos (by simpa using hp)]
      · rw [find?_cons_of_neg (by simpa using hp), find?_cons_of_neg (by simpa using hp)]
        exact ih

theorem mem_setRecordIn_self (records : List (LearnedPathRecord K)) :
    record ∈ setRecordIn record records := by
  induction records with
  | nil => exact mem_singleton_self record
  | cons r records ih =>
    rw [setRecordIn]
    split_ifs
    · exact mem_cons_self
    · exact mem_cons_of_mem _ ih

/-- A record stays, unless it is the one that is found and replaced. -/
theorem mem_setRecordIn (record : LearnedPathRecord K) {records : List (LearnedPathRecord K)}
    (h : r ∈ records) :
    r ∈ setRecordIn record records ∨ records.find? (·.path = record.path) = some r := by
  induction records with
  | nil => exact absurd h not_mem_nil
  | cons r' records ih =>
    rw [setRecordIn]
    split_ifs with hr'
    · rcases mem_cons.1 h with rfl | h
      · exact .inr (find?_cons_of_pos (by simpa using hr'))
      · exact .inl (mem_cons_of_mem _ h)
    · rw [find?_cons_of_neg (by simpa using hr')]
      rcases mem_cons.1 h with rfl | h
      · exact .inl mem_cons_self
      · exact (ih h).imp_left (mem_cons_of_mem _)

/-- Only a record that replaces a ready one, without being ready, makes a path lose its
    record. -/
theorem Live.setRecord (h : profile.Live path) (record : LearnedPathRecord K) :
    (profile.setRecord record).Live path ∨
      (record.ready = false ∧ wirePath record.path = path ∧
        ∃ old, profile.findRecord record.path = some old ∧ old.ready = true) := by
  obtain ⟨hon, r, hr, hready, rfl⟩ := h
  rcases mem_setRecordIn record hr with hmem | hfind
  · exact .inl ⟨hon, r, hmem, hready, rfl⟩
  · have hpath : r.path = record.path := by simpa using find?_some hfind
    rcases hrecord : record.ready with _ | _
    · exact .inr ⟨rfl, by rw [hpath], r, hfind, hready⟩
    · exact .inl ⟨hon, record, mem_setRecordIn_self _, hrecord, by rw [hpath]⟩

/-- The records of the other paths stay. -/
theorem findRecord_forgetPath {path' : Path} (hne : path' ≠ path) :
    (profile.forgetPath path).findRecord path' = profile.findRecord path' := by
  rw [findRecord, findRecord, forgetPath, find?_filter]
  congr 1
  funext record
  rcases eq_or_ne record.path path' with hpath | hpath
  · simp [hpath, hne]
  · simp [hpath]

end DeviceProfile

/-! ## Requests -/

namespace Engine

section Profiles

variable {e : Engine K} {serial : UInt64} {profile : DeviceProfile K}

theorem profile_setProfile (e : Engine K) (serial : UInt64) (profile : DeviceProfile K) :
    (e.setProfile serial profile).profile = Function.update e.profile serial profile := by
  funext serial'
  rcases eq_or_ne serial' serial with rfl | hne
  · rw [update_self, Engine.profile, setProfile, AList.lookup_insert]
    rfl
  · rw [update_of_ne hne, Engine.profile, Engine.profile, setProfile, AList.lookup_insert_ne hne]

/-- The profile of a device is that in the store, if there is one. -/
theorem profile_of_lookup (h : e.profiles.lookup serial = some profile) :
    e.profile serial = profile := by
  rw [Engine.profile, h]
  rfl

/-- The keys of the records that are ready, of devices with corrections switched on. -/
def live (e : Engine K) : Set CompensationKey := {key | (e.profile key.1).Live key.2}

section Update

variable {e' : Engine K} (hprofile : e'.profile = Function.update e.profile serial profile)

include hprofile

theorem mem_live_update_self {path : Path} : (serial, path) ∈ e'.live ↔ profile.Live path := by
  change (e'.profile serial).Live path ↔ _
  rw [hprofile, update_self]

theorem mem_live_update_of_ne {key : CompensationKey} (hne : key.1 ≠ serial) :
    key ∈ e'.live ↔ key ∈ e.live := by
  change (e'.profile key.1).Live key.2 ↔ _
  rw [hprofile, update_of_ne hne]
  rfl

end Update

/-- Saving a profile changes its file only. -/
theorem trySaveProfile_eq (e : Engine K) (t : Instant) (profile : DeviceProfile K) :
    ∃ files, (e.trySaveProfile t profile).2 = { e with files := files } := by
  rw [trySaveProfile]
  split_ifs
  · exact ⟨_, rfl⟩
  · exact ⟨e.files, rfl⟩

end Profiles

variable [FloatMath K] {e e₀ e' e'' : Engine K} {serial : UInt64} {path : Path}

/-- Synchronizing a profile sets the record, and may save the profile. -/
theorem syncProfile_eq (e : Engine K) (t : Instant) (serial : UInt64) (state : PathState K)
    (immediate : Bool) :
    ∃ files saves, e.syncProfile t serial state immediate =
      { e.setProfile serial ((e.profile serial).setRecord state.record) with
        files := files, lastPeriodicSaveUs := saves } := by
  obtain ⟨files, hfiles⟩ := trySaveProfile_eq
    (e.setProfile serial ((e.profile serial).setRecord state.record)) t
    ((e.profile serial).setRecord state.record)
  rw [syncProfile]
  dsimp only
  rw [hfiles]
  split_ifs
  · exact ⟨e.files, e.lastPeriodicSaveUs, rfl⟩
  · exact ⟨e.files, e.lastPeriodicSaveUs, rfl⟩
  · exact ⟨files, _, rfl⟩
  · exact ⟨files, e.lastPeriodicSaveUs, rfl⟩

/-- A request is only suppressed if it is to enable something. Otherwise it has the key of
    the component. -/
theorem compensation_cases (e : Engine K) (serial : UInt64) (state : PathState K) (enabled : Bool) :
    e.compensation serial state enabled = none ∧ enabled = true ∨
      ∃ entry, e.compensation serial state enabled = some entry ∧
        entry.key = (serial, wirePath state.path) ∧
        entry.enabled = (enabled && (e.profile serial).correctionsEnabled) := by
  have hswitch : (e.profiles.lookup serial).any (!·.correctionsEnabled) =
      !(e.profile serial).correctionsEnabled := by
    rw [Engine.profile]
    cases e.profiles.lookup serial <;> rfl
  rw [compensation]
  split_ifs with h
  · exact .inl ⟨rfl, (Bool.and_eq_true_iff.1 h).1⟩
  · exact .inr ⟨_, rfl, rfl, by rw [hswitch, Bool.not_not]⟩

/-- The requests for some components of a device. -/
def compensations (e : Engine K) (serial : UInt64) (pushes : List (PathState K × Bool)) :
    List (CompensationEntry K) :=
  pushes.flatMap fun push => (e.compensation serial push.1 push.2).toList

/-- A loop that pushes adds to the outbox only. -/
theorem pushAll_eq (e : Engine K) (serial : UInt64) (pushes : List (PathState K × Bool)) :
    e.pushAll serial pushes = { e with outbox := e.outbox ++ e.compensations serial pushes } := by
  induction pushes generalizing e with
  | nil => simp [pushAll, compensations]
  | cons push pushes ih =>
    have hcons : e.pushAll serial (push :: pushes) =
        (e.pushCompensation serial push.1 push.2).pushAll serial pushes := rfl
    have hnew : e.compensations serial (push :: pushes) =
        (e.compensation serial push.1 push.2).toList ++ e.compensations serial pushes :=
      flatMap_cons
    rw [hcons, ih, hnew, ← append_assoc]
    rfl

theorem pushCompensation_eq_pushAll (e : Engine K) (serial : UInt64) (state : PathState K)
    (enabled : Bool) :
    e.pushCompensation serial state enabled = e.pushAll serial [(state, enabled)] := rfl

variable {pushes : List (PathState K × Bool)}

/-- A key is only asserted for a component that is pushed as enabled. -/
theorem of_assert_mem {key : CompensationKey}
    (h : .assert key ∈ (e.compensations serial pushes).map (·.message)) :
    (e.profile serial).correctionsEnabled = true ∧
      ∃ push ∈ pushes, push.2 = true ∧ key = (serial, wirePath push.1.path) := by
  obtain ⟨entry, hentry, hmessage⟩ := mem_map.1 h
  obtain ⟨push, hpush, hmem⟩ := mem_flatMap.1 hentry
  rw [mem_toList] at hmem
  rcases e.compensation_cases serial push.1 push.2 with ⟨hnone, -⟩ | ⟨entry', hsome, hkey, henabled⟩
  · rw [hnone] at hmem
    cases hmem
  · obtain rfl : entry' = entry := some.inj (hsome.symm.trans hmem)
    rw [CompensationEntry.message] at hmessage
    split_ifs at hmessage with hon
    rw [henabled, Bool.and_eq_true] at hon
    obtain rfl := Message.assert.inj hmessage
    exact ⟨hon.2, push, hpush, hon.1, hkey⟩

/-- A component that is pushed as disabled is withdrawn. -/
theorem withdraw_mem {push : PathState K × Bool}
    (hpush : push ∈ pushes) (hdisabled : push.2 = false) :
    .withdraw (serial, wirePath push.1.path) ∈ (e.compensations serial pushes).map (·.message) := by
  rcases e.compensation_cases serial push.1 push.2 with
    ⟨-, henabled⟩ | ⟨entry, hsome, hkey, henabled⟩
  · rw [hdisabled] at henabled
    cases henabled
  · refine mem_map.2 ⟨entry, mem_flatMap.2 ⟨push, hpush, ?_⟩, ?_⟩
    · rw [hsome]
      exact mem_singleton_self entry
    · rw [hdisabled, Bool.false_and] at henabled
      rw [CompensationEntry.message, henabled, hkey]
      rfl

/-! ## Calls -/

/-- The profiles are stored under their device, and the states of the engine under their
    device and path. A state is ready as the record of its path is, if there is one. -/
structure Sound (e : Engine K) : Prop where
  serialHash : ∀ serial, (e.profile serial).serialHash = serial
  states : ∀ serial path state, e.states (serial, path) = some state →
    serial ≠ 0 ∧ state.serialHash = serial ∧ state.path = path ∧
      ∀ record, (e.profile serial).findRecord path = some record → record.ready = state.ready

/-- The requests of `e'` beyond those of `e` assert keys that are live in `e'`, and withdraw
    those that are live in `e` only. -/
def Advances (e e' : Engine K) : Prop :=
  e.Sound → e'.Sound ∧
    ∃ new, e'.outbox = e.outbox ++ new ∧ bound e.live (new.map (·.message)) ⊆ e'.live

omit [FloatMath K] in
theorem Advances.trans (h : Advances e e') (h' : Advances e' e'') : Advances e e'' := by
  intro he
  obtain ⟨he', new, hnew, hlive⟩ := h he
  obtain ⟨he'', new', hnew', hlive'⟩ := h' he'
  refine ⟨he'', new ++ new', by rw [hnew', hnew, append_assoc], ?_⟩
  rw [map_append, bound_append]
  exact (bound_mono hlive _).trans hlive'

omit [FloatMath K] in
/-- What does not change the profiles, the states and the requests advances. -/
theorem advances_of_eq (hprofile : e'.profile = e.profile) (hstates : e'.states = e.states)
    (houtbox : e'.outbox = e.outbox) : Advances e e' := by
  intro he
  refine ⟨⟨?_, ?_⟩, [], by rw [houtbox, append_nil], ?_⟩
  · rw [hprofile]
    exact he.serialHash
  · rw [hprofile, hstates]
    exact he.states
  · rw [live, live, hprofile]
    exact subset_rfl

omit [FloatMath K] in
theorem Advances.refl (e : Engine K) : Advances e e := advances_of_eq rfl rfl rfl

omit [FloatMath K] in
/-- A loop advances if its steps do. -/
theorem advances_foldl {α : Type*} {f : Engine K → α → Engine K} (h : ∀ e a, Advances e (f e a))
    (e : Engine K) (as : List α) : Advances e (as.foldl f e) := by
  induction as generalizing e with
  | nil => exact .refl e
  | cons a as ih => exact (h e a).trans (ih (f e a))

variable {profile : DeviceProfile K}

/-- How a call advances that sets the profile of a device, and pushes some of its components.
    The requests are made with the profiles of `e₀`. -/
theorem advances_of_pushes {pushes : List (PathState K × Bool)}
    (hprofile : e'.profile = Function.update e.profile serial profile) (hsound : e.Sound → e'.Sound)
    (houtbox : e'.outbox = e.outbox ++ e₀.compensations serial pushes)
    (hassert : (e₀.profile serial).correctionsEnabled = true →
      ∀ push ∈ pushes, push.2 = true → profile.Live (wirePath push.1.path))
    (hwithdraw : e.Sound → ∀ path, (e.profile serial).Live path → profile.Live path ∨
      ∃ push ∈ pushes, push.2 = false ∧ path = wirePath push.1.path) : Advances e e' := by
  intro he
  refine ⟨hsound he, _, houtbox, bound_subset ?_ ?_⟩
  · intro key hkey
    obtain ⟨hon, push, hpush, henabled, rfl⟩ := of_assert_mem hkey
    exact (mem_live_update_self hprofile).2 (hassert hon push hpush henabled)
  · rintro ⟨serial', path⟩ hkey
    rcases eq_or_ne serial' serial with rfl | hne
    · rcases hwithdraw he path hkey with hlive | ⟨push, hpush, hdisabled, rfl⟩
      · exact .inl ((mem_live_update_self hprofile).2 hlive)
      · exact .inr (withdraw_mem hpush hdisabled)
    · exact .inl ((mem_live_update_of_ne hprofile hne).2 hkey)

omit [FloatMath K] in
/-- The profile of a device is set. A state is one that was there, with the same record, or one
    of the device that goes with its new record. -/
theorem Sound.of_profile (he : e.Sound)
    (hprofile : e'.profile = Function.update e.profile serial profile)
    (hhash : profile.serialHash = serial)
    (hstates : ∀ serial' path' state, e'.states (serial', path') = some state →
      (e.states (serial', path') = some state ∧ (serial' = serial →
        profile.findRecord path' = (e.profile serial).findRecord path')) ∨
      serial' = serial ∧ serial ≠ 0 ∧ state.serialHash = serial ∧ state.path = path' ∧
        ∀ record, profile.findRecord path' = some record → record.ready = state.ready) :
    e'.Sound := by
  refine ⟨fun serial' => ?_, fun serial' path' state hstate => ?_⟩
  · rw [hprofile]
    rcases eq_or_ne serial' serial with rfl | hne
    · rw [update_self, hhash]
    · rw [update_of_ne hne, he.serialHash]
  · rw [hprofile]
    rcases hstates serial' path' state hstate with ⟨hbefore, hsame⟩ | ⟨rfl, hnew⟩
    · obtain ⟨hserial, hhash', hpath, hrecord⟩ := he.states serial' path' state hbefore
      refine ⟨hserial, hhash', hpath, ?_⟩
      rcases eq_or_ne serial' serial with rfl | hne
      · rw [update_self, hsame rfl]
        exact hrecord
      · rw [update_of_ne hne]
        exact hrecord
    · rw [update_self]
      exact hnew

/-! ### Ticks -/

section Ticks

variable {state before after : PathState K} {report : Report}

omit [FloatMath K] in
/-- The state of a component is set, and the record of its path with it. -/
theorem Sound.update (he : e.Sound) (profile : DeviceProfile K) (hserial : serial ≠ 0)
    (hhash : state.serialHash = serial) (hpath : state.path = path)
    (hprofile : e'.profile = Function.update e.profile serial profile)
    (hstates : e'.states = Function.update e.states (serial, path) (some state))
    (hprofileHash : profile.serialHash = serial)
    (hself : ∀ record, profile.findRecord path = some record → record.ready = state.ready)
    (hother : ∀ path', path' ≠ path →
      profile.findRecord path' = (e.profile serial).findRecord path') : e'.Sound := by
  refine he.of_profile hprofile hprofileHash fun serial' path' state' hstate' => ?_
  rw [hstates] at hstate'
  by_cases hkey : (serial', path') = (serial, path)
  · obtain ⟨rfl, rfl⟩ := Prod.mk.inj hkey
    rw [update_self, some.injEq] at hstate'
    subst hstate'
    exact .inr ⟨rfl, hserial, hhash, hpath, hself⟩
  · rw [update_of_ne hkey] at hstate'
    refine .inl ⟨hstate', ?_⟩
    rintro rfl
    exact hother path' fun h => hkey (by rw [h])

theorem states_stateFor (e : Engine K) (serial : UInt64) (path : Path) :
    (e.stateFor serial path).2.states (serial, path) = some (e.stateFor serial path).1 := by
  rw [stateFor]
  dsimp only
  split_ifs with hzero
  · exact update_self _ _ _
  · rcases hstate : e.states (serial, path) with _ | state
    · -- A state that is not there has no device yet.
      rw [hstate] at hzero
      exact absurd rfl hzero
    · rfl

/-- The engine finds the state of a component, or makes one from its record. -/
theorem advances_stateFor (hserial : serial ≠ 0) (path : Path) :
    Advances e (e.stateFor serial path).2 := by
  intro he
  rw [stateFor]
  dsimp only
  split_ifs with hzero
  · have hprofile : (e.setProfile serial (e.profile serial)).profile = e.profile := by
      rw [profile_setProfile, update_eq_self]
    have hlive : (e.setProfile serial (e.profile serial)).live = e.live := by
      rw [live, live, hprofile]
    refine ⟨?_, [], (append_nil _).symm, hlive.ge⟩
    refine he.update (e.profile serial) hserial ?_ ?_
      (hprofile.trans (update_eq_self _ _).symm) rfl (he.serialHash serial) ?_
      fun _ _ => rfl
    · cases (e.profile serial).findRecord path <;> rfl
    · cases (e.profile serial).findRecord path <;> rfl
    · intro record hrecord
      rw [hrecord]
      rfl
  · exact Advances.refl e he

/-- What a report pushes. -/
def pushesOf (state : PathState K) : Report → List (PathState K × Bool)
  | .quiet | .sync _ => []
  | .push enabled _ => [(state, enabled)]

/-- The state of a component is kept, and its record set. -/
def learn (e : Engine K) (serial : UInt64) (path : Path) (state : PathState K) : Engine K :=
  (e.setState serial path state).setProfile serial ((e.profile serial).setRecord state.record)

variable (t : Instant)

/-- What a report does, unless it is quiet. -/
theorem report_eq (h : report ≠ .quiet) : ∃ files saves, e.report t serial path state report =
      { e.learn serial path state with
        files := files
        lastPeriodicSaveUs := saves
        outbox := e.outbox ++
          (e.learn serial path state).compensations serial (pushesOf state report) } := by
  rcases report with _ | immediate | ⟨enabled, immediate⟩
  · exact absurd rfl h
  · obtain ⟨files, saves, hsync⟩ :=
      (e.setState serial path state).syncProfile_eq t serial state immediate
    refine ⟨files, saves, hsync.trans ?_⟩
    rw [pushesOf, compensations, flatMap_nil, append_nil]
    rfl
  · obtain ⟨files, saves, hsync⟩ :=
      (e.setState serial path state).syncProfile_eq t serial state immediate
    refine ⟨files, saves, ?_⟩
    rw [Engine.report, hsync, pushesOf, compensations, flatMap_singleton]
    rfl

theorem states_report (e : Engine K) (t : Instant) (serial : UInt64) (path : Path)
    (state : PathState K) (report : Report) :
    (e.report t serial path state report).states =
      Function.update e.states (serial, path) (some state) := by
  rcases eq_or_ne report .quiet with rfl | hquiet
  · rfl
  · obtain ⟨_, _, heq⟩ := report_eq (e := e) t hquiet
    rw [heq]
    rfl

theorem outbox_report (e : Engine K) (t : Instant) (serial : UInt64) (path : Path)
    (state : PathState K) (report : Report) :
    (e.report t serial path state report).outbox = e.outbox ++
      (e.report t serial path state report).compensations serial (pushesOf state report) := by
  rcases eq_or_ne report .quiet with rfl | hquiet
  · exact (append_nil _).symm
  · obtain ⟨_, _, heq⟩ := report_eq (e := e) t hquiet
    rw [heq]
    rfl

/-- A report that is not quiet sets the record. -/
theorem profile_report_of_ne_quiet (h : report ≠ .quiet) :
    (e.report t serial path state report).profile =
      Function.update e.profile serial ((e.profile serial).setRecord state.record) := by
  obtain ⟨_, _, heq⟩ := report_eq (e := e) t h
  rw [heq]
  exact profile_setProfile _ serial _

omit [FloatMath K] in
/-- A state that is as ready as before is kept. -/
theorem advances_setState (hbefore : e.states (serial, path) = some before)
    (h : before.Becomes after .quiet) : Advances e (e.setState serial path after) := by
  intro he
  obtain ⟨hserial, hhash, hpath, hrecord⟩ := he.states serial path before hbefore
  refine ⟨?_, [], (append_nil _).symm, subset_rfl⟩
  refine he.update (e.profile serial) hserial (h.serialHash.trans hhash) (h.path.trans hpath)
    (update_eq_self _ _).symm rfl (he.serialHash serial) ?_ fun _ _ => rfl
  intro record hfind
  exact (hrecord record hfind).trans h.ready.symm

/-- A state and its record are set together. -/
theorem Sound.after_report (he : e.Sound) (t : Instant)
    (hbefore : e.states (serial, path) = some before)
    (h : before.Becomes after report) (hquiet : report ≠ .quiet) :
    (e.report t serial path after report).Sound := by
  obtain ⟨hserial, hhash, hpath, -⟩ := he.states serial path before hbefore
  have hpath' : after.path = path := h.path.trans hpath
  refine he.update _ hserial (h.serialHash.trans hhash) hpath'
    (profile_report_of_ne_quiet t hquiet) (e.states_report t serial path after report)
    (he.serialHash serial) ?_ fun path' hne => ?_
  · intro record hfind
    have hself :
        ((e.profile serial).setRecord after.record).findRecord path = some after.record :=
      hpath' ▸ DeviceProfile.findRecord_setRecord_self
    obtain rfl := some.inj (hself.symm.trans hfind)
    rfl
  · exact DeviceProfile.findRecord_setRecord_of_ne (hpath'.trans_ne hne.symm)

omit [FloatMath K] in
/-- A record that is not ready any more is withdrawn. -/
theorem Sound.live_report (he : e.Sound)
    (hbefore : e.states (serial, path) = some before) (h : before.Becomes after report)
    (hquiet : report ≠ .quiet) {path' : Path} (hlive : (e.profile serial).Live path') :
    ((e.profile serial).setRecord after.record).Live path' ∨
      ∃ push ∈ pushesOf after report, push.2 = false ∧ path' = wirePath push.1.path := by
  obtain ⟨-, -, hpath, hrecord⟩ := he.states serial path before hbefore
  rcases hlive.setRecord after.record with hlive' | ⟨hunready, hwire, old, hfind, hold⟩
  · exact .inl hlive'
  · -- The record was ready before, and is not any more: this was pushed.
    have hready : before.ready = true :=
      (hrecord old ((h.path.trans hpath) ▸ hfind)).symm.trans hold
    rcases report with _ | immediate | ⟨enabled, immediate⟩
    · exact absurd rfl hquiet
    · exact absurd (hunready.symm.trans (h.ready.trans hready)) nofun
    · exact .inr ⟨_, mem_singleton_self _, h.ready.symm.trans hunready, hwire.symm⟩

/-- A component that is learned advances. -/
theorem advances_report (hbefore : e.states (serial, path) = some before)
    (h : before.Becomes after report) : Advances e (e.report t serial path after report) := by
  rcases eq_or_ne report .quiet with rfl | hquiet
  · exact advances_setState hbefore h
  · refine advances_of_pushes (profile_report_of_ne_quiet t hquiet)
      (fun he => he.after_report t hbefore h hquiet) (e.outbox_report t serial path after report) ?_
      fun he _ hlive => he.live_report hbefore h hquiet hlive
    intro hon push hpush henabled
    rcases report with _ | immediate | ⟨enabled, immediate⟩
    · exact absurd rfl hquiet
    · exact absurd hpush not_mem_nil
    · obtain rfl := mem_singleton.1 hpush
      have hready : after.ready = true := h.ready.trans henabled
      rw [profile_report_of_ne_quiet t hquiet, update_self] at hon
      exact ⟨hon, after.record, DeviceProfile.mem_setRecordIn_self _, hready, rfl⟩

theorem advances_report_report {mid : PathState K} {report' : Report} (t : Instant)
    (hbefore : e.states (serial, path) = some before) (h : before.Becomes mid report)
    (h' : mid.Becomes after report') :
    Advances e ((e.report t serial path mid report).report t serial path after report') := by
  have hmid : (e.report t serial path mid report).states (serial, path) = some mid := by
    rw [states_report, update_self]
  exact (advances_report t hbefore h).trans (advances_report t hmid h')

theorem advances_tickBoolean (e : Engine K) (t : Instant) (b : SnapshotBody K) :
    Advances e (e.tickBoolean t b) := by
  rw [tickBoolean]
  dsimp only
  split_ifs with hskip hpressed
  · exact .refl e
  all_goals
    have hserial : b.deviceSerialHash ≠ 0 := by
      rintro hzero
      simp [hzero] at hskip
    have hfound := e.states_stateFor b.deviceSerialHash (pathString b.path)
    have hsample := (advances_stateFor hserial (pathString b.path)).trans
      (advances_report_report t hfound
        ((PathState.becomes_withKind _ .boolean).trans (PathState.becomes_observeBounce _ b t.unix))
        (PathState.becomes_observePress _ b t.nowUs t.unix))
  · exact hsample.trans (advances_of_eq rfl rfl rfl)
  · exact hsample

theorem advances_tickScalar (e : Engine K) (t : Instant) (entries : Entries K)
    (b : SnapshotBody K) : Advances e (e.tickScalar t entries b) := by
  rw [tickScalar]
  dsimp only
  split_ifs with hskip
  · exact .refl e
  · have hserial : b.deviceSerialHash ≠ 0 := by
      rintro hzero
      simp [hzero] at hskip
    have hfound := e.states_stateFor b.deviceSerialHash (pathString b.path)
    exact (advances_stateFor hserial (pathString b.path)).trans
      (advances_report t hfound (PathState.becomes_observeScalar _ _ _ b t.nowUs t.unix))

theorem advances_tick (e : Engine K) (t : Instant) (entries : Entries K) :
    Advances e (e.tick t entries) :=
  (advances_foldl (fun e entry => e.advances_tickBoolean t entry.2) e entries).trans
    (advances_foldl (fun e entry => e.advances_tickScalar t entries entry.2) _ entries)

end Ticks

/-! ### Commands -/

section Commands

omit [FloatMath K] in
/-- The profile of a device is changed, and states of the engine are dropped. The records of
    the states that are left do not change. -/
theorem Sound.restrict (he : e.Sound)
    (hprofile : e'.profile = Function.update e.profile serial profile)
    (hhash : profile.serialHash = serial)
    (hstates : ∀ key state, e'.states key = some state → e.states key = some state)
    (hrecords : ∀ path state, e'.states (serial, path) = some state →
      profile.findRecord path = (e.profile serial).findRecord path) : e'.Sound := by
  refine he.of_profile hprofile hhash fun serial' path' state hstate => ?_
  refine .inl ⟨hstates _ _ hstate, ?_⟩
  rintro rfl
  exact hrecords path' state hstate

/-- Switching the corrections of a device off withdraws all its records; switching them on
    pushes those that are ready. -/
theorem advances_setDeviceCorrectionsEnabled (e : Engine K) (t : Instant) (serial : UInt64)
    (enabled : Bool) : Advances e (e.setDeviceCorrectionsEnabled t serial enabled) := by
  intro he
  have hhash := he.serialHash serial
  rw [setDeviceCorrectionsEnabled]
  dsimp only
  split_ifs with hzero hsame
  · exact Advances.refl e he
  · refine advances_of_eq ?_ rfl rfl he
    rw [profile_setProfile, update_eq_self]
  · obtain ⟨files, hfiles⟩ := trySaveProfile_eq
      (e.setProfile serial { e.profile serial with correctionsEnabled := enabled }) t
      { e.profile serial with correctionsEnabled := enabled }
    have hprofile :=
      e.profile_setProfile serial { e.profile serial with correctionsEnabled := enabled }
    rw [hfiles, hhash, pushAll_eq]
    refine advances_of_pushes hprofile
      (fun _ => he.restrict hprofile hhash (fun _ _ h => h) fun _ _ _ => rfl) rfl ?_
        (fun _ => ?_) he
    · intro hon push hpush henabled
      obtain ⟨record, hrecord, rfl⟩ := mem_map.1 hpush
      have hready : enabled = true ∧ record.ready = true := Bool.and_eq_true_iff.1 henabled
      exact ⟨hready.1, record, (mem_filter.1 hrecord).1, hready.2, rfl⟩
    · rintro _ ⟨-, record, hrecord, hready, rfl⟩
      rcases enabled with _ | _
      · refine .inr ⟨(recordState serial record, false), ?_, rfl, rfl⟩
        exact mem_map.2 ⟨record, mem_filter.2 ⟨hrecord, rfl⟩, rfl⟩
      · exact .inl ⟨rfl, record, hrecord, hready, rfl⟩

/-- What is pushed again of a profile: nothing, or its ready records. -/
theorem pushReadyProfile_cases (he : e.Sound) (serial : UInt64) :
    e.pushReadyProfile serial = e ∨
      (e.profile serial).correctionsEnabled = true ∧
        ∃ records : List (LearnedPathRecord K),
          (∀ record ∈ records, record ∈ (e.profile serial).learnedPaths ∧ record.ready = true) ∧
          e.pushReadyProfile serial =
            e.pushAll serial (records.map fun record => (recordState serial record, true)) := by
  rw [pushReadyProfile]
  rcases hlookup : e.profiles.lookup serial with _ | profile
  · exact .inl rfl
  · obtain rfl := profile_of_lookup hlookup
    dsimp only
    split_ifs with hoff
    · exact .inl rfl
    · refine .inr ⟨by simpa using hoff, _, fun record hrecord => ?_, by rw [he.serialHash serial]⟩
      obtain ⟨hmem, hpushed⟩ := mem_filter.1 hrecord
      exact ⟨hmem, (Bool.and_eq_true_iff.1 hpushed).1⟩

/-- Only live records are pushed again. -/
theorem advances_pushReadyProfile (e : Engine K) (serial : UInt64) :
    Advances e (e.pushReadyProfile serial) := by
  intro he
  rcases pushReadyProfile_cases he serial with heq | ⟨-, records, hrecords, heq⟩
  · rw [heq]
    exact Advances.refl e he
  · rw [heq, pushAll_eq]
    refine advances_of_pushes (update_eq_self serial _).symm (fun he => ⟨he.serialHash, he.states⟩)
      rfl ?_ (fun _ path hlive => .inl hlive) he
    intro hon push hpush _
    obtain ⟨record, hrecord, rfl⟩ := mem_map.1 hpush
    exact ⟨hon, record, (hrecords record hrecord).1, (hrecords record hrecord).2, rfl⟩

theorem advances_pushReadyCompensations (e : Engine K) (order : List UInt64) :
    Advances e (e.pushReadyCompensations order) :=
  advances_foldl (fun e serial => e.advances_pushReadyProfile serial) e order

/-- Pushing everything again takes nothing back. -/
theorem enabled_of_mem_pushReady (he : e.Sound) {order : List UInt64} {entry : CompensationEntry K}
    (h : entry ∈ (e.pushReadyCompensations order).outbox) :
    entry ∈ e.outbox ∨ entry.enabled = true := by
  induction order generalizing e with
  | nil => exact .inl h
  | cons serial order ih =>
    rcases ih (advances_pushReadyProfile e serial he).1 h with hmem | henabled
    · rcases pushReadyProfile_cases he serial with heq | ⟨hon, records, -, heq⟩
      · rw [heq] at hmem
        exact .inl hmem
      · rw [heq, pushAll_eq] at hmem
        refine (mem_append.1 hmem).imp_right fun hnew => ?_
        obtain ⟨push, hpush, hentry⟩ := mem_flatMap.1 hnew
        obtain ⟨record, -, rfl⟩ := mem_map.1 hpush
        rcases e.compensation_cases serial (recordState serial record) true with
          ⟨hnone, -⟩ | ⟨entry', hsome, -, henabled⟩
        · rw [hnone] at hentry
          exact absurd hentry not_mem_nil
        · rw [hsome] at hentry
          rw [mem_singleton.1 hentry, henabled, hon]
          rfl
    · exact .inr henabled

omit [FloatMath K] in
theorem of_update_none {f : UInt64 × Path → Option (PathState K)} {key key' : UInt64 × Path}
    {state : PathState K} (h : Function.update f key none key' = some state) :
    key' ≠ key ∧ f key' = some state := by
  rcases eq_or_ne key' key with rfl | hne
  · rw [update_self] at h
    cases h
  · rw [update_of_ne hne] at h
    exact ⟨hne, h⟩

theorem advances_unlearnPath (e : Engine K) (t : Instant) (serial : UInt64) (path : Path) :
    Advances e (e.unlearnPath t serial path) := by
  intro he
  have hhash := he.serialHash serial
  rw [unlearnPath]
  dsimp only
  split_ifs with hskip
  · exact Advances.refl e he
  · obtain ⟨files, hfiles⟩ := trySaveProfile_eq
      (e.setProfile serial ((e.profile serial).forgetPath path)) t
      ((e.profile serial).forgetPath path)
    have hprofile := e.profile_setProfile serial ((e.profile serial).forgetPath path)
    rw [hfiles, pushCompensation_eq_pushAll, pushAll_eq]
    refine advances_of_pushes hprofile (fun _ => he.restrict hprofile hhash ?_ ?_) rfl ?_
      (fun _ => ?_) he
    · intro key state hstate
      exact (of_update_none (f := e.states) hstate).2
    · intro path' state hstate
      refine DeviceProfile.findRecord_forgetPath ?_
      rintro rfl
      exact (of_update_none (f := e.states) hstate).1 rfl
    · intro _ push hpush henabled
      obtain rfl := mem_singleton.1 hpush
      cases henabled
    · rintro _ ⟨hon, record, hrecord, hready, rfl⟩
      rcases eq_or_ne record.path path with rfl | hpath
      · exact .inr ⟨_, mem_singleton_self _, rfl, rfl⟩
      · exact .inl ⟨hon, record, mem_filter.2 ⟨hrecord, by simpa using hpath⟩, hready, rfl⟩

theorem advances_unlearnDevice (e : Engine K) (t : Instant) (serial : UInt64) :
    Advances e (e.unlearnDevice t serial) := by
  intro he
  rw [unlearnDevice]
  dsimp only
  split_ifs with hzero
  · exact Advances.refl e he
  · rw [pushAll_eq]
    generalize houtbox : e.outbox ++ e.compensations serial _ = outbox
    obtain ⟨files, hfiles⟩ := trySaveProfile_eq
      (setProfile { e with outbox := outbox } serial { e.profile serial with learnedPaths := [] }) t
      { e.profile serial with learnedPaths := [] }
    have hprofile := e.profile_setProfile serial { e.profile serial with learnedPaths := [] }
    rw [hfiles]
    refine advances_of_pushes hprofile
      (fun _ => he.restrict hprofile (he.serialHash serial) ?_ ?_) houtbox.symm ?_ (fun _ => ?_) he
    · intro key state hstate
      exact (filter_eq_some_iff.1 hstate).1
    · -- No state of the device is left.
      intro path state hstate
      obtain ⟨hmem, hother⟩ := filter_eq_some_iff.1 hstate
      exact absurd (he.states serial path state hmem).2.1 (by simpa using hother)
    · intro _ push hpush henabled
      obtain ⟨record, _, rfl⟩ := mem_map.1 hpush
      cases henabled
    · rintro _ ⟨-, record, hrecord, -, rfl⟩
      exact .inr ⟨_, mem_map.2 ⟨record, hrecord, rfl⟩, rfl, rfl⟩

end Commands

end Engine

end WKOpenVR.InputHealth
