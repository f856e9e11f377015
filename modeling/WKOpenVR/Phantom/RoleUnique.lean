import WKOpenVR.Phantom.RoleAssignment
import Mathlib.Data.List.Sort
import Mathlib.Data.Rat.Floor

/-!
# No role twice

The roles inferred in one cycle are different, but a cycle does not look at the roles
held by the trackers it leaves as they are: a tracker adopts a role that another one
holds by hand (`adopted_beside_manual`). No two live trackers hold the same role as long
as no tracker would take a role that a live one holds on to (`roles_unique`).
-/

namespace WKOpenVR.Phantom

open Arith List Function

/-! ## Holders -/

section Exclusive

variable {ι R : Type*} {nothing : R} {live live' : ι → Prop} {held held' : ι → R}

/-- No two of the live holders hold the same. -/
def Exclusive (nothing : R) (live : ι → Prop) (held : ι → R) : Prop :=
  ∀ i j, live i → live j → held i = held j → held i ≠ nothing → i = j

/-- Holders keep what they hold or are given something (`G`). They remain exclusive if no two
    are given the same, and none is given what another one keeps. -/
theorem Exclusive.step {G : ι → R → Prop} (h : Exclusive nothing live held)
    (hcases : ∀ i, live' i → held' i ≠ nothing →
      G i (held' i) ∨ live i ∧ held' i = held i)
    (hgiven : ∀ i j r, live' i → live' j → G i r → G j r → r ≠ nothing → i = j)
    (hkept : ∀ i j, i ≠ j → live' i → G i (held j) → live j → held j ≠ nothing →
      held' j ≠ held j) : Exclusive nothing live' held' := by
  intro i j hi hj hij hne
  rcases hcases i hi hne with gi | ⟨li, ki⟩ <;> rcases hcases j hj (hij ▸ hne) with gj | ⟨lj, kj⟩
  · exact hgiven i j _ hi hj gi (hij ▸ gj) hne
  · by_contra hn
    exact hkept i j hn hi (kj ▸ hij ▸ gi) lj (kj ▸ hij ▸ hne) kj
  · by_contra hn
    exact hkept j i (Ne.symm hn) hj (ki ▸ hij ▸ gj) li (ki ▸ hne) ki
  · exact h i j li lj (ki ▸ kj ▸ hij) (ki ▸ hne)

end Exclusive

variable {K : Type*} [Arith K] {n : ℕ} {cfg : RoleConfig K} {now : ℤ} {st : RoleState n K}

/-- No two trackers that are live at the time `now` have the same role. -/
def RolesUnique (cfg : RoleConfig K) (now : ℤ) (st : RoleState n K) : Prop :=
  Exclusive .none (fun i => isLive cfg now (st.slots i)) fun i => (st.slots i).role

/-- A slot that is live was so before. -/
theorem isLive_mono {t : ℤ} (ht : t ≤ now) {s : TrackerSlot K} (h : isLive cfg now s) :
    isLive cfg t s := by
  simp only [isLive, Bool.and_eq_true, decide_eq_true_eq, not_or] at h ⊢
  exact ⟨h.1, h.2.1, by omega⟩

theorem RolesUnique.mono {t : ℤ} (ht : t ≤ now) (h : RolesUnique cfg t st) :
    RolesUnique cfg now st :=
  fun i j hi hj => h i j (isLive_mono ht hi) (isLive_mono ht hj)

/-! ## The condition -/

/-- What a cycle would do with the slot `i` if `role` was inferred for it. -/
def actionFor (cfg : RoleConfig K) (now : ℤ) (st : RoleState n K) (i : Fin n)
    (f : TrackerMotionFeatures K) (role : BodyRole) : RoleAction :=
  let s := st.slots i
  (slotAction cfg now (st.sticky s) (st.manual s) s f role (cfg.fit f role)).1

/-- The slot would take the role, if it was inferred for it. -/
def wouldTake (cfg : RoleConfig K) (now : ℤ) (st : RoleState n K) (i : Fin n) (role : BodyRole) :
    Bool :=
  (featuresOf cfg now (st.slots i)).any fun f =>
    actionFor cfg now st i f role = .adopt || actionFor cfg now st i f role = .reassign

/-- The slot gives up its role, whatever other role is inferred for it. -/
def wouldYield (cfg : RoleConfig K) (now : ℤ) (st : RoleState n K) (i : Fin n) : Bool :=
  (featuresOf cfg now (st.slots i)).any fun f =>
    BodyRole.all.all fun role => role = (st.slots i).role || actionFor cfg now st i f role ≠ .keep

/-- A snap may give the role to the slot. -/
def wouldSnap (cfg : RoleConfig K) (st : RoleState n K) (head : Head K)
    (axes : Option (HeadAxes K)) (i : Fin n) (role : BodyRole) : Bool :=
  let s := st.slots i
  axes.any fun axes =>
    !st.manual s && s.isTracker && s.resolved && s.lastObservedValid &&
      cfg.inferParams.minConfidence ≤
        roleFitConfidence (snapFeatures head axes cfg.inferParams.static s.lastObserved) role
          inferenceCandidateRoles cfg.inferParams.static

/-- The slot `i`, which becomes `s`, does not come to life with the role of a live slot. -/
def arrives (cfg : RoleConfig K) (now : ℤ) (st : RoleState n K) (i : Fin n) (s : TrackerSlot K) :
    Bool :=
  decide (isLive cfg now s → ¬isLive cfg now (st.slots i) → s.role ≠ .none →
    ∀ j, i ≠ j → isLive cfg now (st.slots j) → (st.slots j).role ≠ s.role)

/-- No slot takes a role that a live slot has and does not give up. -/
def noClash (cfg : RoleConfig K) (st : RoleState n K) : RoleEvent n K → Bool
  | .observe i now o => arrives cfg now st i (observedSlot now st o (st.slots i))
  | .quashed i now props => arrives cfg now st i (resolveSerialIfMissing st props (st.slots i))
  | .cycle now =>
    decide (cycleDue cfg now st → ∀ i j, i ≠ j → isLive cfg now (st.slots j) →
      (st.slots j).role ≠ .none → wouldTake cfg now st i (st.slots j).role →
      wouldYield cfg now st j)
  | .snap now head axes =>
    decide (∀ i j, i ≠ j → isLive cfg now (st.slots i) → isLive cfg now (st.slots j) →
      (st.slots j).role ≠ .none → ¬wouldSnap cfg st head axes i (st.slots j).role)
  | .setDeviceRole serialHash role _ =>
    decide (role ≠ .none → ∀ i j, i ≠ j → isLive cfg st.clock (st.slots i) →
      isLive cfg st.clock (st.slots j) → (st.slots i).serialHash = serialHash →
      (st.slots j).serialHash ≠ serialHash ∧ (st.slots j).role ≠ role)

/-! ## What the events change -/

/-- The same device, seen at the same time. -/
structure SameDevice (s s' : TrackerSlot K) : Prop where
  resolved : s'.resolved = s.resolved
  serialHash : s'.serialHash = s.serialHash
  isTracker : s'.isTracker = s.isTracker
  lastObservedQpc : s'.lastObservedQpc = s.lastObservedQpc

variable (s : TrackerSlot K)

omit [Arith K] in
theorem SameDevice.refl : SameDevice s s := ⟨rfl, rfl, rfl, rfl⟩

omit [Arith K] in
theorem SameDevice.trans {s t u : TrackerSlot K} (h : SameDevice s t) (h' : SameDevice t u) :
    SameDevice s u where
  resolved := h'.resolved.trans h.resolved
  serialHash := h'.serialHash.trans h.serialHash
  isTracker := h'.isTracker.trans h.isTracker
  lastObservedQpc := h'.lastObservedQpc.trans h.lastObservedQpc

theorem SameDevice.isLive_iff {s s' : TrackerSlot K} (h : SameDevice s s') :
    isLive cfg now s' ↔ isLive cfg now s := by
  simp only [isLive, h.resolved, h.isTracker, h.lastObservedQpc]

theorem resolved_of_isLive {s : TrackerSlot K} (h : isLive cfg now s) : s.resolved = true := by
  simp only [isLive, Bool.and_eq_true] at h
  exact h.1.2

omit [Arith K] in
theorem resolveSerialIfMissing_of_resolved {props : Option (UInt64 × Bool)} {s : TrackerSlot K}
    (h : s.resolved = true) : resolveSerialIfMissing st props s = s := if_pos h

/-- A pose does not change the role of a device that is known. -/
theorem role_observedSlot {o : Observation K} {s : TrackerSlot K} (h : s.resolved = true) :
    (observedSlot now st o s).role = s.role := by
  rw [observedSlot, resolveSerialIfMissing_of_resolved h]
  unfold accumulateInferenceSample
  split
  · split_ifs <;> rfl
  · rfl

def RoleAction.roleAfter (current role : BodyRole) : RoleAction → BodyRole
  | .keep => current
  | .adopt | .reassign => role
  | .drop => .none

variable (role : BodyRole) (action : RoleAction)

omit [Arith K] in
theorem sameDevice_apply : SameDevice s (s.apply now role action) := by
  cases action <;> exact ⟨rfl, rfl, rfl, rfl⟩

omit [Arith K] in
theorem role_apply : (s.apply now role action).role = action.roleAfter s.role role := by
  cases action <;> rfl

section InferSlot

variable {sticky manual : Bool} {s} {f : TrackerMotionFeatures K} {a : RoleAssignment K}

theorem sameDevice_inferSlot : SameDevice s (inferSlot cfg now sticky manual s f a) := by
  refine .trans ?_ (sameDevice_apply _ a.role _)
  exact ⟨rfl, rfl, rfl, rfl⟩

theorem role_inferSlot : (inferSlot cfg now sticky manual s f a).role =
    (slotAction cfg now sticky manual s f a.role a.confidence).1.roleAfter s.role a.role :=
  role_apply _ _ _

end InferSlot

section Cycle

variable {x : (Fin n × TrackerMotionFeatures K) × RoleAssignment K}

/-- A value that replaces another one adds no key. -/
theorem isSome_replace {α β : Type*} [DecidableEq α] (m : α → Option β) (a k : α) (c : Bool)
    (b : β) : ((if (m a).isSome && c then Function.update m a (some b) else m) k).isSome =
      (m k).isSome := by
  split_ifs with h
  · by_cases hk : k = a
    · rw [hk, update_self]
      exact (Bool.and_eq_true_iff.1 h).1.symm
    · rw [update_of_ne hk]
  · rfl

/-- Roles remain sticky. -/
theorem sticky_inferStep (s : TrackerSlot K) : (inferStep cfg now st x).sticky s = st.sticky s :=
  isSome_replace _ _ _ _ _

/-- A cycle changes each slot for which a role is inferred as if it was the only one. -/
theorem foldl_inferStep (xs : List ((Fin n × TrackerMotionFeatures K) × RoleAssignment K))
    (hxs : (xs.map (·.1.1)).Nodup) (st : RoleState n K) :
    (∀ i ∉ xs.map (·.1.1), (xs.foldl (inferStep cfg now) st).slots i = st.slots i) ∧
      ∀ x ∈ xs, (xs.foldl (inferStep cfg now) st).slots x.1.1 =
        inferSlot cfg now (st.sticky (st.slots x.1.1)) (st.manual (st.slots x.1.1))
          (st.slots x.1.1) x.1.2 x.2 := by
  induction xs generalizing st with
  | nil => exact ⟨fun _ _ => rfl, fun _ h => by cases h⟩
  | cons x xs ih =>
    obtain ⟨hx, hxs⟩ := nodup_cons.1 hxs
    obtain ⟨hother, hslots⟩ := ih hxs (inferStep cfg now st x)
    have hne (i : Fin n) (hi : i ≠ x.1.1) : (inferStep cfg now st x).slots i = st.slots i :=
      update_of_ne hi _ _
    refine ⟨fun i hi => ?_, fun y hy => ?_⟩
    · rw [map_cons, mem_cons, not_or] at hi
      exact (hother i hi.2).trans (hne i hi.1)
    · rcases mem_cons.1 hy with rfl | hy
      · exact (hother _ hx).trans (update_self _ _ _)
      · have hyx : y.1.1 ≠ x.1.1 := fun h => hx (mem_map.2 ⟨y, hy, h⟩)
        rw [foldl_cons, hslots y hy, hne _ hyx, sticky_inferStep]
        rfl

variable {i : Fin n}

theorem mem_selected {f : TrackerMotionFeatures K} :
    (i, f) ∈ selected cfg now st ↔ featuresOf cfg now (st.slots i) = some f := by
  simp [selected]

theorem nodup_selected : ((selected cfg now st).map (·.1)).Nodup := by
  rw [selected, map_filterMap]
  refine (nodup_finRange n).filterMap fun i j k hi hj => ?_
  simp only [Option.map_map, Option.mem_def, Option.map_eq_some_iff, comp_apply] at hi hj
  obtain ⟨-, -, rfl⟩ := hi
  obtain ⟨-, -, rfl⟩ := hj
  rfl

theorem map_fst_inferred : (inferred cfg now st).map (·.1) = selected cfg now st :=
  map_fst_zip (by simp [inferRoles])

theorem nodup_inferred : ((inferred cfg now st).map (·.1.1)).Nodup := by
  have h : (inferred cfg now st).map (·.1.1) = ((inferred cfg now st).map (·.1)).map (·.1) := by
    rw [map_map]
    rfl
  rw [h, map_fst_inferred]
  exact nodup_selected

theorem featuresOf_of_mem_inferred (hx : x ∈ inferred cfg now st) :
    featuresOf cfg now (st.slots x.1.1) = some x.1.2 := by
  have hmem : x.1 ∈ (inferred cfg now st).map (·.1) := mem_map_of_mem hx
  rw [map_fst_inferred] at hmem
  exact mem_selected.1 hmem

/-- What is done with a slot is what would be done if its inferred role was known. -/
theorem action_of_mem_inferred (hx : x ∈ inferred cfg now st) :
    (slotAction cfg now (st.sticky (st.slots x.1.1)) (st.manual (st.slots x.1.1)) (st.slots x.1.1)
      x.1.2 x.2.role x.2.confidence).1 = actionFor cfg now st x.1.1 x.1.2 x.2.role := by
  obtain ⟨k, hk⟩ := mem_iff_getElem?.1 hx
  obtain ⟨hk₁, hk₂⟩ := List.getElem?_zip_eq_some.1 hk
  have hf : ((selected cfg now st).map (·.2))[k]? = some x.1.2 := by
    rw [List.getElem?_map, hk₁, Option.map_some]
  rw [(inferRoles_fits nodup_inferenceCandidateRoles hf hk₂).1]
  rfl

/-- A live slot is not freed. -/
theorem slots_freeRemoved (h : isLive cfg now (st.slots i)) :
    (freeRemoved cfg now st).slots i = st.slots i := by
  simp only [isLive, Bool.and_eq_true, decide_eq_true_eq, not_or] at h
  simp [freeRemoved, h.2.2]

theorem sameDevice_freeRemoved (i : Fin n) :
    SameDevice (st.slots i) ((freeRemoved cfg now st).slots i) := by
  dsimp only [freeRemoved]
  split_ifs
  · exact ⟨rfl, rfl, rfl, rfl⟩
  · exact .refl _

/-- A cycle changes the role of a live slot by its inferred role, if it has one. -/
theorem slots_maybeRunInference (hdue : cycleDue cfg now st) (i : Fin n) :
    SameDevice (st.slots i) ((maybeRunInference cfg now st).slots i) ∧
      (isLive cfg now (st.slots i) →
        (∃ x ∈ inferred cfg now st, x.1.1 = i ∧ ((maybeRunInference cfg now st).slots i).role =
          (actionFor cfg now st i x.1.2 x.2.role).roleAfter (st.slots i).role x.2.role) ∨
        featuresOf cfg now (st.slots i) = none ∧
          ((maybeRunInference cfg now st).slots i).role = (st.slots i).role) := by
  rw [maybeRunInference, if_pos hdue]
  obtain ⟨hother, hslots⟩ := foldl_inferStep (inferred cfg now st) nodup_inferred
    { st with lastInferenceQpc := now }
  generalize (inferred cfg now st).foldl (inferStep cfg now) _ = st' at hother hslots
  have hfree : SameDevice (st'.slots i) ((freeRemoved cfg now st').slots i) :=
    sameDevice_freeRemoved i
  -- A slot is handled once in a cycle, or not at all where it has no features.
  by_cases hi : i ∈ (inferred cfg now st).map (·.1.1)
  · obtain ⟨x, hx, rfl⟩ := mem_map.1 hi
    have hsame : SameDevice (st.slots x.1.1) (st'.slots x.1.1) := by
      rw [hslots x hx]
      exact sameDevice_inferSlot
    refine ⟨hsame.trans hfree, fun hlive => .inl ⟨x, hx, rfl, ?_⟩⟩
    rw [slots_freeRemoved (hsame.isLive_iff.2 hlive), hslots x hx, role_inferSlot,
      ← action_of_mem_inferred hx]
    rfl
  · have hsame : SameDevice (st.slots i) (st'.slots i) := by
      rw [hother i hi]
      exact .refl _
    refine ⟨hsame.trans hfree, fun hlive => .inr ⟨?_, ?_⟩⟩
    · refine Option.eq_none_iff_forall_ne_some.2 fun f hf => hi ?_
      have hmem := mem_selected.2 hf
      rw [← map_fst_inferred] at hmem
      obtain ⟨x, hx, hxi⟩ := mem_map.1 hmem
      exact mem_map.2 ⟨x, hx, congrArg Prod.fst hxi⟩
    · rw [slots_freeRemoved (hsame.isLive_iff.2 hlive), hother i hi]

/-- A cycle leaves the roles different, if no slot takes a role that another one keeps. -/
theorem RolesUnique.cycle (h : RolesUnique cfg now st) (hclash : noClash cfg st (.cycle now)) :
    RolesUnique cfg now (maybeRunInference cfg now st) := by
  by_cases hdue : cycleDue cfg now st
  swap
  · rwa [maybeRunInference, if_neg hdue]
  have hlive (i : Fin n) : isLive cfg now ((maybeRunInference cfg now st).slots i) ↔
      isLive cfg now (st.slots i) := (slots_maybeRunInference hdue i).1.isLive_iff
  simp only [noClash, decide_eq_true_eq] at hclash
  let given (i : Fin n) (r : BodyRole) : Prop := ∃ x ∈ inferred cfg now st, x.1.1 = i ∧
    x.2.role = r ∧ wouldTake cfg now st i r
  refine Exclusive.step (G := given) h ?_ ?_ ?_
  · intro i hi hne
    rw [hlive] at hi
    rcases (slots_maybeRunInference hdue i).2 hi with ⟨x, hx, rfl, hrole⟩ | ⟨-, hrole⟩
    · rw [hrole] at hne ⊢
      cases haction : actionFor cfg now st x.1.1 x.1.2 x.2.role with
      | keep => exact .inr ⟨hi, rfl⟩
      | drop => exact absurd (by rw [haction]; rfl) hne
      | adopt | reassign =>
        refine .inl ⟨x, hx, rfl, rfl, ?_⟩
        simp [wouldTake, featuresOf_of_mem_inferred hx, haction, RoleAction.roleAfter]
    · exact .inr ⟨hi, hrole⟩
  · rintro i j r - - ⟨x, hx, rfl, hxr, -⟩ ⟨y, hy, rfl, hyr, -⟩ hr
    rw [zip_inferRoles_unique nodup_inferenceCandidateRoles hx hy (hxr.trans hyr.symm) (hxr ▸ hr)]
  · rintro i j hij - ⟨x, hx, rfl, hxr, htake⟩ hj hr
    -- The slot `j` gives up its role, since the role is inferred for another slot.
    have hyield := hclash hdue _ j hij hj hr htake
    rcases (slots_maybeRunInference hdue j).2 hj with ⟨y, hy, rfl, hrole⟩ | ⟨hnone, -⟩
    · have hne : y.2.role ≠ (st.slots y.1.1).role := fun heq => hij (by
        rw [zip_inferRoles_unique nodup_inferenceCandidateRoles hx hy (hxr.trans heq.symm)
          (hxr ▸ hr)])
      simp only [wouldYield, featuresOf_of_mem_inferred hy, Option.any_some, all_eq_true,
        Bool.or_eq_true, decide_eq_true_eq] at hyield
      have haction := (hyield _ (BodyRole.mem_all y.2.role)).resolve_left hne
      rw [hrole]
      cases h : actionFor cfg now st y.1.1 y.1.2 y.2.role with
      | keep => exact absurd h haction
      | drop => exact hr.symm
      | adopt | reassign => exact hne
    · simp [wouldYield, hnone] at hyield

end Cycle

section Snap

variable {i : Fin n}

omit [Arith K] in
/-- A step of a snap gives a role to one tracker, if its role was not picked by hand. -/
theorem slots_snapStep (st : RoleState n K) (a : SnapAssignment (Fin n) K) :
    (snapStep now st a).slots i = st.slots i ∨ a.id = i ∧ a.role ≠ .none ∧
      st.manual (st.slots i) = false ∧
        (snapStep now st a).slots i = snapSlot now (st.slots i) a := by
  unfold snapStep
  dsimp only
  split_ifs with h
  · exact .inl rfl
  · rw [not_or, Bool.not_eq_true] at h
    by_cases hi : i = a.id
    · subst hi
      exact .inr ⟨rfl, h.1, h.2, update_self _ _ _⟩
    · exact .inl (update_of_ne hi _ _)

omit [Arith K] in
theorem sameDevice_snapStep (st : RoleState n K) (a : SnapAssignment (Fin n) K) :
    SameDevice (st.slots i) ((snapStep now st a).slots i) := by
  obtain h | ⟨-, -, -, h⟩ := slots_snapStep st a
  · rw [h]
    exact .refl _
  · rw [h]
    exact ⟨rfl, rfl, rfl, rfl⟩

omit [Arith K] in
theorem manual_snapStep (st : RoleState n K) (a : SnapAssignment (Fin n) K) :
    (snapStep now st a).manual ((snapStep now st a).slots i) = st.manual (st.slots i) := by
  have hhashes : (snapStep now st a).manualRoleHashes = st.manualRoleHashes := by
    unfold snapStep
    dsimp only
    split_ifs <;> rfl
  rw [RoleState.manual, RoleState.manual, hhashes, (sameDevice_snapStep st a).serialHash]

omit [Arith K] in
/-- A snap changes the roles of trackers that were not picked by hand only. -/
theorem foldl_snapStep (as : List (SnapAssignment (Fin n) K)) (st : RoleState n K) (i : Fin n) :
    SameDevice (st.slots i) ((as.foldl (snapStep now) st).slots i) ∧
      (((as.foldl (snapStep now) st).slots i).role = (st.slots i).role ∨
        ∃ a ∈ as, a.id = i ∧ a.role ≠ .none ∧ st.manual (st.slots i) = false ∧
          ((as.foldl (snapStep now) st).slots i).role = a.role) := by
  induction as generalizing st with
  | nil => exact ⟨.refl _, .inl rfl⟩
  | cons a as ih =>
    obtain ⟨hsame, hrole⟩ := ih (snapStep now st a)
    refine ⟨(sameDevice_snapStep st a).trans hsame, ?_⟩
    rcases hrole with heq | ⟨b, hb, hid, hne, hman, heq⟩
    · rcases slots_snapStep st a with h | ⟨hid, hne, hman, h⟩
      · exact .inl (heq.trans (congrArg _ h))
      · exact .inr ⟨a, mem_cons_self, hid, hne, hman, heq.trans (congrArg _ h)⟩
    · exact .inr ⟨b, mem_cons_of_mem _ hb, hid, hne, manual_snapStep st a ▸ hman, heq⟩

omit [Arith K] in
theorem mem_snapTrackers {pos : Vec3 K} (h : (i, pos) ∈ snapTrackers st) :
    (st.slots i).isTracker = true ∧ (st.slots i).resolved = true ∧
      (st.slots i).lastObservedValid = true ∧ (st.slots i).lastObserved = pos := by
  obtain ⟨j, -, hj⟩ := mem_filterMap.1 h
  simp only [Option.ite_none_right_eq_some, Bool.and_eq_true, Option.some.injEq,
    Prod.mk.injEq] at hj
  obtain ⟨⟨⟨htracker, hresolved⟩, hvalid⟩, rfl, hpos⟩ := hj
  exact ⟨htracker, hresolved, hvalid, hpos⟩

theorem RolesUnique.snap {head : Head K} {axes : Option (HeadAxes K)}
    (h : RolesUnique cfg now st) (hclash : noClash cfg st (.snap now head axes)) :
    RolesUnique cfg now (runSnap cfg now st head axes) := by
  unfold runSnap
  dsimp only
  split_ifs
  swap
  · exact h
  generalize has :
    (snapCalibrate cfg.sorter head axes (snapTrackers st) cfg.inferParams).assignments
    = as
  have hlive (i : Fin n) : isLive cfg now ((as.foldl (snapStep now) st).slots i) ↔
      isLive cfg now (st.slots i) := (foldl_snapStep as st i).1.isLive_iff
  simp only [noClash, decide_eq_true_eq] at hclash
  let given (i : Fin n) (r : BodyRole) : Prop := ∃ a ∈ as, a.id = i ∧ a.role = r ∧ r ≠ .none ∧
    st.manual (st.slots i) = false
  refine Exclusive.step (G := given) h ?_ ?_ ?_
  · intro i hi hne
    rw [hlive] at hi
    rcases (foldl_snapStep as st i).2 with hrole | ⟨a, ha, hid, -, hman, hrole⟩
    · exact .inr ⟨hi, hrole⟩
    · exact .inl ⟨a, ha, hid, hrole.symm, hne, hman⟩
  · rintro i j r - - ⟨a, ha, rfl, har, -, -⟩ ⟨b, hb, rfl, hbr, -, -⟩ hr
    rw [snapCalibrate_unique (has ▸ ha) (has ▸ hb) (har.trans hbr.symm) (har ▸ hr)]
  · rintro i j hij hi ⟨a, ha, rfl, har, hr, hman⟩ hj -
    rw [hlive] at hi
    obtain ⟨ax, pos, rfl, hpos, hfit⟩ := snapCalibrate_fits (has ▸ ha) (har ▸ hr)
    obtain ⟨htracker, hresolved, hvalid, rfl⟩ := mem_snapTrackers hpos
    refine absurd ?_ (hclash _ j hij hi hj hr)
    rw [har] at hfit
    simp [wouldSnap, hman, htracker, hresolved, hvalid, hfit]

end Snap

/-! ## Every run -/

/-- A slot changes, and a tracker that was not live may come with the role it has. -/
theorem RolesUnique.update {i : Fin n} {s : TrackerSlot K} {st' : RoleState n K}
    (h : RolesUnique cfg now st) (hslots : st'.slots = Function.update st.slots i s)
    (hrole : isLive cfg now (st.slots i) → s.role = (st.slots i).role)
    (harrives : arrives cfg now st i s) : RolesUnique cfg now st' := by
  simp only [arrives, decide_eq_true_eq] at harrives
  rw [RolesUnique, hslots]
  let given (k : Fin n) (r : BodyRole) : Prop :=
    k = i ∧ ¬isLive cfg now (st.slots i) ∧ r = s.role
  refine Exclusive.step (G := given) h ?_ ?_ ?_
  · intro k hk hne
    by_cases hki : k = i
    · subst hki
      rw [update_self]
      by_cases hlive : isLive cfg now (st.slots k)
      · exact .inr ⟨hlive, hrole hlive⟩
      · exact .inl ⟨rfl, hlive, rfl⟩
    · rw [update_of_ne hki] at hk ⊢
      exact .inr ⟨hk, rfl⟩
  · rintro k l r - - ⟨rfl, -, -⟩ ⟨rfl, -, -⟩ -
    rfl
  · rintro k j hkj hk ⟨rfl, hlive, hr⟩ hj hne
    rw [update_self] at hk
    exact absurd hr (harrives hk hlive (hr ▸ hne) j hkj hj)

theorem RolesUnique.request {serialHash : UInt64} {role : BodyRole} {manual : Bool}
    (h : RolesUnique cfg st.clock st)
    (hclash : noClash cfg st (.setDeviceRole serialHash role manual)) :
    RolesUnique cfg st.clock (setDeviceRole st serialHash role manual) := by
  simp only [noClash, decide_eq_true_eq] at hclash
  have hsame (i : Fin n) :
      SameDevice (st.slots i) ((setDeviceRole st serialHash role manual).slots i) := by
    dsimp only [setDeviceRole]
    split_ifs
    · exact ⟨rfl, rfl, rfl, rfl⟩
    · exact .refl _
  let given (i : Fin n) (r : BodyRole) : Prop := (st.slots i).serialHash = serialHash ∧ r = role
  refine Exclusive.step (G := given) h ?_ ?_ ?_
  · intro i hi _
    by_cases hhash : (st.slots i).serialHash = serialHash
    · exact .inl ⟨hhash, by simp [setDeviceRole, hhash]⟩
    · exact .inr ⟨(hsame i).isLive_iff.1 hi, by simp [setDeviceRole, hhash]⟩
  · rintro i j r hi hj ⟨hhash, rfl⟩ ⟨hhash', -⟩ hr
    by_contra hij
    exact (hclash hr i j hij ((hsame i).isLive_iff.1 hi) ((hsame j).isLive_iff.1 hj) hhash).1 hhash'
  · rintro i j hij hi ⟨hhash, hr⟩ hj hne
    exact absurd hr (hclash (hr ▸ hne) i j hij ((hsame i).isLive_iff.1 hi) hj hhash).2

/-- An event leaves the roles different, if no slot takes a role that another one keeps. -/
theorem RolesUnique.step {e : RoleEvent n K} {st' : RoleState n K}
    (h : RolesUnique cfg st.clock st) (hclash : noClash cfg st e)
    (hs : (roleMachine cfg n).step st e = some st') : RolesUnique cfg st'.clock st' := by
  cases e with
  | observe i now o =>
    obtain ⟨hle, rfl⟩ : _ ∧ _ = st' := by simpa [roleMachine] using hs
    exact (h.mono hle).update rfl (fun hlive => role_observedSlot (resolved_of_isLive hlive)) hclash
  | quashed i now props =>
    obtain ⟨hle, rfl⟩ : _ ∧ _ = st' := by simpa [roleMachine] using hs
    refine (h.mono hle).update rfl (fun hlive => ?_) hclash
    rw [resolveSerialIfMissing_of_resolved (resolved_of_isLive hlive)]
  | cycle now =>
    obtain ⟨hle, rfl⟩ : _ ∧ _ = st' := by simpa [roleMachine] using hs
    exact (h.mono hle).cycle hclash
  | snap now head axes =>
    obtain ⟨hle, rfl⟩ : _ ∧ _ = st' := by simpa [roleMachine] using hs
    exact (h.mono hle).snap hclash
  | setDeviceRole serialHash role manual =>
    obtain rfl : _ = st' := by simpa [roleMachine] using hs
    exact h.request hclash

theorem fresh_mem_init (clock : ℤ) : RoleState.fresh n clock ∈ (roleMachine cfg n).init :=
  ⟨clock, rfl⟩

/-- As long as no tracker would take a role that another one holds on to, no two live
    trackers have the same role. -/
theorem roles_unique {es : List (RoleEvent n K)}
    (hrun : (roleMachine cfg n).RunIf (fun st e => noClash cfg st e) es st)
    {i j : Fin n} (hij : i ≠ j) (hi : isLive cfg st.clock (st.slots i))
    (hj : isLive cfg st.clock (st.slots j)) (hne : (st.slots i).role ≠ .none) :
    (st.slots i).role ≠ (st.slots j).role := by
  have hunique : RolesUnique cfg st.clock st := by
    refine hrun.invariant (I := fun st => RolesUnique cfg st.clock st) ?_ fun _ _ _ h => h.step
    rintro - ⟨clock, rfl⟩ i j - - - hne
    exact absurd rfl hne
  exact fun heq => hij (hunique i j hi hj heq hne)

/-! ## A role held twice -/

/-- Rational numbers, with approximations of the functions. -/
structure Approx where
  val : ℚ

namespace Approx

variable (x : ℚ)

/-- The exponential series up to the power 12, of numbers that are not too small. -/
def exp : ℚ :=
  if x < -4 then 0 else (List.range 12).foldr (fun k t => 1 + x / (k + 1) * t) 1

/-- The square root to six digits. -/
def sqrt : ℚ := (Nat.sqrt (x * 10 ^ 12).floor.toNat : ℚ) / 10 ^ 6

/-- The next integer, away from zero in the middle. -/
def llround : ℤ := if 0 ≤ x then (x + 1 / 2).floor else -(-x + 1 / 2).floor

instance : Arith Approx where
  add a b := ⟨a.val + b.val⟩
  sub a b := ⟨a.val - b.val⟩
  mul a b := ⟨a.val * b.val⟩
  div a b := ⟨a.val / b.val⟩
  neg a := ⟨-a.val⟩
  lt a b := a.val < b.val
  le a b := a.val ≤ b.val
  decidableLT a b := inferInstanceAs (Decidable (a.val < b.val))
  decidableLE a b := inferInstanceAs (Decidable (a.val ≤ b.val))
  lit q := ⟨q⟩
  exp a := ⟨exp a.val⟩
  sqrt a := ⟨sqrt a.val⟩
  infinity := ⟨10 ^ 9⟩
  isFinite a := a.val < 10 ^ 9
  llround a := llround a.val
  toFloat a := a

def costLE (a b : Pair Approx) : Prop := a.cost.val ≤ b.cost.val

instance : DecidableRel costLE := fun a b => inferInstanceAs (Decidable (a.cost.val ≤ b.cost.val))

instance : Std.Total costLE := ⟨fun a b => le_total a.cost.val b.cost.val⟩

instance : IsTrans (Pair Approx) costLE := ⟨fun _ _ _ => le_trans (α := ℚ)⟩

def sorter : Sorter Approx where
  sort := List.insertionSort costLE
  perm := List.perm_insertionSort costLE
  sorted l := (List.pairwise_insertionSort costLE l).imp fun h => not_lt_of_ge (α := ℚ) h

/-- The default parameters, with a counter of milliseconds. -/
def config : RoleConfig Approx where
  qpcFreq := 1000
  lostHoldMs := 5000
  inferParams := .defaults
  arbiterParams := .defaults
  sorter := sorter

/-- A tracker at the given height, straight below a head two metres above the floor. -/
def below (serialHash : UInt64) (height : ℚ) : Observation Approx where
  props := some (serialHash, true)
  valid := true
  pos := ⟨lit 0, lit height, lit 0⟩
  head := some (⟨⟨lit 0, lit 2, lit 0⟩, lit 0⟩, ⟨(lit 1, lit 0), (lit 0, lit (-1))⟩)

/-- A tracker comes, and then another one stays at the height of the waist for a while,
    until a cycle runs. -/
def besideWaist : List (RoleEvent 2 Approx) :=
  .observe 0 1000 (below 1 (37 / 25)) ::
    (List.range 24).map (fun k => .observe 1 (1100 + 4 * k) (below 2 (53 / 50))) ++ [.cycle 1200]

end Approx

/-- The first tracker was said to be the one of the waist, but the second one adopts the
    role. -/
theorem adopted_beside_manual : ∃ st,
    (roleMachine Approx.config 2).Run (.setDeviceRole 1 .waist true :: Approx.besideWaist) st ∧
      isLive Approx.config st.clock (st.slots 0) ∧ isLive Approx.config st.clock (st.slots 1) ∧
      (st.slots 0).role = .waist ∧ (st.slots 1).role = .waist :=
  Machine.exists_runIf _ _ (fresh_mem_init 0) (by decide +kernel)

/-- Without the request, the second tracker alone has the role. -/
theorem roles_unique_beside : ∃ st,
    (roleMachine Approx.config 2).RunIf (fun st e => noClash Approx.config st e) Approx.besideWaist
        st ∧
      (st.slots 1).role = .waist ∧ isLive Approx.config st.clock (st.slots 0) ∧
      (st.slots 1).role ≠ (st.slots 0).role := by
  refine Machine.exists_runIf_of _ (P := fun st => isLive Approx.config st.clock (st.slots 0) ∧
    isLive Approx.config st.clock (st.slots 1) ∧ (st.slots 1).role = .waist) _ (fresh_mem_init 0)
    (by decide +kernel) ?_
  rintro st hrun ⟨hlive, hlive', hrole⟩
  exact ⟨hrole, hlive, roles_unique hrun (by decide) hlive' hlive (by rw [hrole]; decide)⟩

end WKOpenVR.Phantom
