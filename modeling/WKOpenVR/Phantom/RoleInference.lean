import WKOpenVR.Phantom.RoleCatalog
import Mathlib.Data.Rat.Defs
import Mathlib.Data.List.Nodup
import Mathlib.Data.List.Induction

/-!
# The inference of body roles

Which tracker sits on which point of the body is inferred from how the trackers move
relative to the head (`PassiveRoleInference.h`). Features of the motion are accumulated
for each tracker; a tracker fits a role at a cost, the distance of its features from
those the role is expected to have; and roles are given greedily, the cheapest pair of
a tracker and a role first (`inferRoles`). A *snap* infers the roles from one static
read of the positions (`snapCalibrate`).

No role is given to two trackers (`inferRoles_unique`).

The computations are those of the code, on numbers `K` of which no law is assumed
(`Arith`): they may be the doubles, with their rounding.
-/

namespace WKOpenVR.Phantom

open List Option Function

/-- The arithmetic of the code. -/
class Arith (K : Type*) extends Add K, Sub K, Mul K, Div K, Neg K, LT K, LE K where
  decidableLT : DecidableLT K
  decidableLE : DecidableLE K
  /-- The value of a literal, or of an integer. -/
  lit : ℚ → K
  exp : K → K
  sqrt : K → K
  infinity : K
  isFinite : K → Bool
  llround : K → ℤ
  /-- The conversion to `float`. -/
  toFloat : K → K

namespace Arith

variable {K : Type*} [Arith K]

instance : DecidableLT K := decidableLT

instance : DecidableLE K := decidableLE

/-- `std::max`. -/
def max (a b : K) : K := if a < b then b else a

/-- `std::min`. -/
def min (a b : K) : K := if b < a then b else a

/-- `std::clamp`. -/
def clamp (v lo hi : K) : K := if v < lo then lo else if hi < v then hi else v

/-- A number of samples as a double. -/
def ofUInt32 (n : UInt32) : K := lit n.toNat

end Arith

open Arith

/-! ## Features -/

structure TrackerMotionFeatures (K : Type*) where
  heightRatio : K
  lateralNorm : K
  forwardNorm : K
  vertMotionNorm : K
  sampleCount : UInt32
  hasData : Bool

structure Vec3 (K : Type*) where
  x : K
  y : K
  z : K

/-- The head, and the floor below it. -/
structure Head (K : Type*) where
  pos : Vec3 K
  floorY : K

/-- The horizontal axes of the head. -/
structure HeadAxes (K : Type*) where
  right : K × K
  fwd : K × K

structure RoleInferenceAccumulator (K : Type*) where
  sumHeightRatio : K
  sumLateral : K
  sumForward : K
  sumHeadH : K
  sumTrackerH : K
  sumTrackerHSq : K
  count : UInt32

variable {K : Type*} [Arith K]

/-- The offset along a horizontal axis. -/
def along (axis : K × K) (dx dz : K) : K := dx * axis.1 + dz * axis.2

namespace RoleInferenceAccumulator

def fresh : RoleInferenceAccumulator K where
  sumHeightRatio := lit 0
  sumLateral := lit 0
  sumForward := lit 0
  sumHeadH := lit 0
  sumTrackerH := lit 0
  sumTrackerHSq := lit 0
  count := 0

def minHeadHeight : K := lit (1 / 2)

variable (a : RoleInferenceAccumulator K)

/-- `AddSample`: an implausible head height is skipped. -/
def addSample (head : Head K) (axes : HeadAxes K) (tracker : Vec3 K) : RoleInferenceAccumulator K :=
  let headH := head.pos.y - head.floorY
  if headH < minHeadHeight then a
  else
    let dx := tracker.x - head.pos.x
    let dz := tracker.z - head.pos.z
    let trackerH := tracker.y - head.floorY
    { sumHeightRatio := a.sumHeightRatio + trackerH / headH
      sumLateral := a.sumLateral + along axes.right dx dz
      sumForward := a.sumForward + along axes.fwd dx dz
      sumHeadH := a.sumHeadH + headH
      sumTrackerH := a.sumTrackerH + trackerH
      sumTrackerHSq := a.sumTrackerHSq + trackerH * trackerH
      count := a.count + 1 }

def decay (factor : K) : RoleInferenceAccumulator K :=
  if lit 1 ≤ factor ∨ a.count = 0 then a
  else
    let factor := clamp factor (lit 0) (lit 1)
    { sumHeightRatio := a.sumHeightRatio * factor
      sumLateral := a.sumLateral * factor
      sumForward := a.sumForward * factor
      sumHeadH := a.sumHeadH * factor
      sumTrackerH := a.sumTrackerH * factor
      sumTrackerHSq := a.sumTrackerHSq * factor
      count := UInt32.ofInt (llround (ofUInt32 a.count * factor)) }

def compute : TrackerMotionFeatures K :=
  if a.count = 0 then ⟨lit 0, lit 0, lit 0, lit 0, 0, false⟩
  else
    let n : K := ofUInt32 a.count
    let headH := a.sumHeadH / n
    let invHead := if minHeadHeight < headH then lit 1 / headH else lit 0
    let meanTrackerH := a.sumTrackerH / n
    let varY := max (lit 0) (a.sumTrackerHSq / n - meanTrackerH * meanTrackerH)
    { heightRatio := a.sumHeightRatio / n
      lateralNorm := a.sumLateral / n * invHead
      forwardNorm := a.sumForward / n * invHead
      vertMotionNorm := sqrt varY * invHead
      sampleCount := a.count
      hasData := true }

end RoleInferenceAccumulator

/-! ## Costs -/

structure RolePrior (K : Type*) where
  role : BodyRole
  heightRatio : K
  lateralNorm : K
  vertMotionNorm : K

def defaultRolePriors : List (RolePrior K) :=
  [⟨.waist, lit 0.53, lit 0, lit 0.10⟩, ⟨.chest, lit 0.74, lit 0, lit 0.10⟩,
    ⟨.leftFoot, lit 0.06, lit (-0.12), lit 0.45⟩, ⟨.rightFoot, lit 0.06, lit 0.12, lit 0.45⟩,
    ⟨.leftKnee, lit 0.28, lit (-0.10), lit 0.30⟩, ⟨.rightKnee, lit 0.28, lit 0.10, lit 0.30⟩,
    ⟨.leftElbow, lit 0.63, lit (-0.18), lit 0.25⟩, ⟨.rightElbow, lit 0.63, lit 0.18, lit 0.25⟩]

structure InferenceParams (K : Type*) where
  weightHeight : K
  weightLateral : K
  weightVertMotion : K
  costScale : K
  marginScale : K
  fullConfidenceSamples : UInt32
  minStaticSamples : UInt32
  staticSampleFloor : K
  minConfidence : K

def InferenceParams.defaults : InferenceParams K where
  weightHeight := lit 3
  weightLateral := lit 2
  weightVertMotion := lit 0.5
  costScale := lit 0.10
  marginScale := lit 0.06
  fullConfidenceSamples := 600
  minStaticSamples := 24
  staticSampleFloor := lit 0.85
  minConfidence := toFloat (lit 0.35)

def roleCost (f : TrackerMotionFeatures K) (p : RolePrior K) (params : InferenceParams K) : K :=
  let dh := f.heightRatio - p.heightRatio
  let dl := f.lateralNorm - p.lateralNorm
  let dv := f.vertMotionNorm - p.vertMotionNorm
  params.weightHeight * dh * dh + params.weightLateral * dl * dl + params.weightVertMotion * dv * dv

/-- How far the number of samples is trusted: a static read early on, to the floor, and
    fully after sustained motion. -/
def sampleFactor (sampleCount : UInt32) (params : InferenceParams K) : K :=
  if params.fullConfidenceSamples = 0 then lit 1
  else
    let n : K := ofUInt32 sampleCount
    let full : K := ofUInt32 params.fullConfidenceSamples
    let minStatic : K :=
      ofUInt32 (if params.minStaticSamples = 0 then 1 else params.minStaticSamples)
    let floor := clamp params.staticSampleFloor (lit 0) (lit 1)
    let base := min (lit 1) (n / minStatic) * floor
    let extra := if minStatic < n ∧ minStatic < full then
        (lit 1 - floor) * min (lit 1) ((n - minStatic) / (full - minStatic))
      else lit 0
    base + extra

def assignmentConfidence (bestCost secondCost : K) (sampleCount : UInt32)
    (params : InferenceParams K) : K :=
  let costFactor := exp (-bestCost / max (lit 1e-6) params.costScale)
  let margin := max (lit 0) (secondCost - bestCost)
  let marginFactor := lit 1 - exp (-margin / max (lit 1e-6) params.marginScale)
  let conf := costFactor * marginFactor * sampleFactor sampleCount params
  toFloat (clamp conf (lit 0) (lit 1))

/-- The cost of the next best role; if there is no other, the role is taken to be
    clearly chosen. -/
def secondOr (second cost : K) (params : InferenceParams K) : K :=
  if isFinite second then second else cost + params.marginScale * lit 3

/-! ## Greedy matching -/

structure RoleAssignment (K : Type*) where
  trackerIndex : ℕ
  role : BodyRole
  confidence : K
  cost : K

/-- A tracker and a role, by their indices, and the cost. -/
structure Pair (K : Type*) where
  tracker : ℕ
  role : ℕ
  cost : K

/-- `std::sort` by cost: the order of pairs of the same cost is not specified. -/
structure Sorter (K : Type*) [Arith K] where
  sort : List (Pair K) → List (Pair K)
  perm : ∀ l, (sort l).Perm l
  sorted : ∀ l, (sort l).Pairwise fun a b => ¬b.cost < a.cost

def priorOf (role : BodyRole) : Option (RolePrior K) := defaultRolePriors.find? (·.role = role)

/-- The trackers and roles given so far. -/
structure Matching (K : Type*) where
  trackerUsed : ℕ → Bool
  roleUsed : ℕ → Bool
  result : ℕ → RoleAssignment K

def Matching.empty : Matching K where
  trackerUsed _ := false
  roleUsed _ := false
  result t := ⟨t, .none, toFloat (lit 0), lit 0⟩

section Infer

variable (trackers : List (TrackerMotionFeatures K)) (active : List (RolePrior K))
  (params : InferenceParams K)

/-- All pairs of a tracker with data and a role. -/
def pairs : List (Pair K) :=
  trackers.zipIdx.flatMap fun (f, t) =>
    if f.hasData then active.zipIdx.map fun (p, r) => ⟨t, r, roleCost f p params⟩ else []

/-- The least cost of a tracker among the roles other than the one with index `role`,
    given ones included. -/
def secondCost (f : TrackerMotionFeatures K) (role : ℕ) : K :=
  active.zipIdx.foldl (fun second (p, r) => if r = role then second
    else min second (roleCost f p params)) infinity

/-- A pair is taken, unless its tracker or its role is. If the confidence is too low, the
    role remains without a tracker. -/
def takePair (m : Matching K) (pr : Pair K) : Matching K :=
  if m.trackerUsed pr.tracker || m.roleUsed pr.role then m
  else
    match trackers[pr.tracker]?, active[pr.role]? with
    | some f, some p =>
      let second := secondOr (secondCost active params f pr.role) pr.cost params
      let confidence := assignmentConfidence pr.cost second f.sampleCount params
      { trackerUsed := Function.update m.trackerUsed pr.tracker true
        roleUsed := Function.update m.roleUsed pr.role true
        result :=
          if params.minConfidence ≤ confidence then
            Function.update m.result pr.tracker ⟨pr.tracker, p.role, confidence, pr.cost⟩
          else m.result }
    | _, _ => m

end Infer

def inferRoles (sorter : Sorter K) (trackers : List (TrackerMotionFeatures K))
    (candidateRoles : List BodyRole) (params : InferenceParams K) : List (RoleAssignment K) :=
  let active := candidateRoles.filterMap priorOf
  let m := (sorter.sort (pairs trackers active params)).foldl (takePair trackers active params)
    .empty
  (List.range trackers.length).map m.result

variable (f : TrackerMotionFeatures K)

/-- `RoleFitConfidence`: how well a tracker fits a role. -/
def roleFitConfidence (role : BodyRole)
    (candidateRoles : List BodyRole) (params : InferenceParams K) : K :=
  if !f.hasData ∨ role = .none then toFloat (lit 0)
  else
    let active : List (RolePrior K) := candidateRoles.filterMap priorOf
    match active.find? (·.role = role) with
    | none => toFloat (lit 0)
    | some p =>
      let cost := roleCost f p params
      let second := active.foldl (fun second p => if p.role = role then second
        else min second (roleCost f p params)) infinity
      assignmentConfidence cost (secondOr second cost params) f.sampleCount params

def inferenceCandidateRoles : List BodyRole :=
  [.waist, .chest, .leftFoot, .rightFoot, .leftKnee, .rightKnee, .leftElbow, .rightElbow]

/-! ## Snap -/

/-- The outcomes of a snap (`SnapStatus`). -/
inductive SnapStatus
  | ok | headTilted | noTrackers | hmdNotReady | lowConfidence | notCalibrated
  deriving DecidableEq

structure SnapAssignment (ι K : Type*) where
  id : ι
  role : BodyRole
  confidence : K

structure SnapResult (ι K : Type*) where
  status : SnapStatus
  ok : Bool
  assignments : List (SnapAssignment ι K)
  assignedCount : ℕ
  measuredHeightM : K
  floorYM : K

def snapFeatures (head : Head K) (axes : HeadAxes K) (params : InferenceParams K) (pos : Vec3 K) :
    TrackerMotionFeatures K :=
  let headH := head.pos.y - head.floorY
  let dx := pos.x - head.pos.x
  let dz := pos.z - head.pos.z
  { heightRatio := (pos.y - head.floorY) / headH
    lateralNorm := along axes.right dx dz / headH
    forwardNorm := along axes.fwd dx dz / headH
    vertMotionNorm := lit 0
    sampleCount := if params.fullConfidenceSamples = 0 then 1 else params.fullConfidenceSamples
    hasData := true }

/-- Whether a tracker is near the body. -/
def isPlausible : Bool :=
  let hdist := sqrt (f.lateralNorm * f.lateralNorm + f.forwardNorm * f.forwardNorm)
  decide (lit (-0.15) ≤ f.heightRatio ∧ f.heightRatio ≤ lit 1.3 ∧ hdist ≤ lit 0.6)

/-- What a static read weighs: no motion. -/
def InferenceParams.static (params : InferenceParams K) : InferenceParams K :=
  { params with weightVertMotion := lit 0 }

/-- `SnapCalibrate`, of trackers with their positions. The axes are missing if the head
    is tilted too far. -/
def snapCalibrate {ι : Type*} (sorter : Sorter K) (head : Head K) (axes : Option (HeadAxes K))
    (trackers : List (ι × Vec3 K)) (params : InferenceParams K) : SnapResult ι K :=
  let headH := head.pos.y - head.floorY
  let failed (status : SnapStatus) : SnapResult ι K :=
    ⟨status, false, trackers.map fun t => ⟨t.1, .none, lit 0⟩, 0, headH, head.floorY⟩
  if trackers.isEmpty then failed .noTrackers
  else
    match axes with
    | none => failed .headTilted
    | some axes =>
      if headH < lit 0.5 then failed .hmdNotReady
      else
        let params := params.static
        let feats := trackers.map fun t => snapFeatures head axes params t.2
        if !feats.any isPlausible then failed .notCalibrated
        else
          let result := inferRoles sorter feats inferenceCandidateRoles params
          let assignedCount := result.countP (·.role ≠ .none)
          { status := if 0 < assignedCount then .ok else .lowConfidence
            ok := 0 < assignedCount
            assignments := (trackers.zip result).map fun (t, a) => ⟨t.1, a.role, a.confidence⟩
            assignedCount := assignedCount
            measuredHeightM := headH
            floorYM := head.floorY }

/-! ## One role, one tracker -/

variable {role : BodyRole} {p : RolePrior K}

theorem role_of_priorOf (h : priorOf role = some p) : p.role = role := by
  simpa using List.find?_some h

variable {candidateRoles : List BodyRole}

/-- Different candidates have different priors. -/
theorem nodup_active (h : candidateRoles.Nodup) :
    ((candidateRoles.filterMap priorOf : List (RolePrior K)).map (·.role)).Nodup := by
  refine (h.filterMap fun a b p ha hb => ?_).map_on fun p hp q hq hpq => ?_
  · exact (role_of_priorOf ha).symm.trans (role_of_priorOf hb)
  · obtain ⟨a, -, ha⟩ := mem_filterMap.1 hp
    obtain ⟨b, -, hb⟩ := mem_filterMap.1 hq
    have hab : a = b := (role_of_priorOf ha).symm.trans (hpq.trans (role_of_priorOf hb))
    exact some_inj.1 (ha.symm.trans (hab ▸ hb))

/-- The roles that are given are used, and no role is given to two trackers. -/
structure Matching.Inv (active : List (RolePrior K)) (m : Matching K) : Prop where
  used : ∀ t, (m.result t).role ≠ .none →
    ∃ r p, active[r]? = some p ∧ m.roleUsed r = true ∧ (m.result t).role = p.role
  unique : ∀ t t', (m.result t).role = (m.result t').role → (m.result t).role ≠ .none → t = t'

variable {trackers : List (TrackerMotionFeatures K)} {active : List (RolePrior K)}
  {params : InferenceParams K} {m : Matching K} {r : ℕ}

omit [Arith K] in
theorem index_inj (hactive : (active.map (·.role)).Nodup) {r' : ℕ} {p p' : RolePrior K}
    (hr : active[r]? = some p) (hr' : active[r']? = some p') (h : p.role = p'.role) : r = r' := by
  have hlt : r < (active.map (·.role)).length := by
    rw [length_map]
    exact (List.getElem?_eq_some_iff.1 hr).1
  rw [← List.getElem?_inj hlt hactive, List.getElem?_map, List.getElem?_map, hr, hr',
    map_some, map_some, h]

variable {a : RoleAssignment K}

omit [Arith K] in
/-- A pair that is taken gives a role that was not used. -/
theorem Matching.Inv.give (h : m.Inv active) (hactive : (active.map (·.role)).Nodup) {t : ℕ}
    {p : RolePrior K} (hp : active[r]? = some p) (hr : m.roleUsed r = false) (ha : a.role = p.role)
    {used : ℕ → Bool} :
    Matching.Inv active
      ⟨used, Function.update m.roleUsed r true, Function.update m.result t a⟩ := by
  -- A tracker that has the role of `p` already would have it by the index `r`.
  have hother (t' : ℕ) (h' : (m.result t').role = p.role) (hne : p.role ≠ .none) : False := by
    obtain ⟨r', p', hp', hr', hrole⟩ := h.used t' (h' ▸ hne)
    obtain rfl := index_inj hactive hp hp' (h'.symm.trans hrole)
    rw [hr] at hr'
    cases hr'
  constructor
  · intro t' hne
    by_cases ht : t' = t
    · subst ht
      exact ⟨r, p, hp, by simp, by simpa using ha⟩
    · simp only [update_of_ne ht] at hne ⊢
      obtain ⟨r', p', hp', hr', hrole⟩ := h.used t' hne
      refine ⟨r', p', hp', ?_, hrole⟩
      rw [update_apply, hr', ite_self]
  · intro t₁ t₂ heq hne
    by_cases h₁ : t₁ = t <;> by_cases h₂ : t₂ = t
    · rw [h₁, h₂]
    · subst h₁
      simp only [update_self, update_of_ne h₂] at heq hne
      exact (hother t₂ (heq.symm.trans ha) (ha ▸ hne)).elim
    · subst h₂
      simp only [update_self, update_of_ne h₁] at heq hne
      exact (hother t₁ (heq.trans ha) (ha ▸ heq ▸ hne)).elim
    · simp only [update_of_ne h₁, update_of_ne h₂] at heq hne
      exact h.unique t₁ t₂ heq hne

theorem Matching.Inv.takePair (h : m.Inv active) (hactive : (active.map (·.role)).Nodup)
    (pr : Pair K) : (takePair trackers active params m pr).Inv active := by
  unfold Phantom.takePair
  split_ifs with hused
  · exact h
  split
  · rename_i f p hf hp
    have hr : m.roleUsed pr.role = false := by simp_all
    dsimp only
    split_ifs
    · exact h.give hactive hp hr rfl
    · refine ⟨fun t hne => ?_, h.unique⟩
      obtain ⟨r', p', hp', hr', hrole⟩ := h.used t hne
      exact ⟨r', p', hp', by simp [update_apply, hr'], hrole⟩
  · exact h

/-- What holds of the matching, as its pairs are taken, holds of what is inferred. -/
theorem inferRoles_induction {P : Matching K → Prop} (sorter : Sorter K)
    (candidateRoles : List BodyRole) (hempty : P .empty)
    (htake : ∀ m, P m → ∀ pr ∈ pairs trackers (candidateRoles.filterMap priorOf) params,
      P (takePair trackers (candidateRoles.filterMap priorOf) params m pr)) :
    ∃ m, P m ∧ ∀ k a, (inferRoles sorter trackers candidateRoles params)[k]? = some a →
      m.result k = a := by
  refine ⟨_,
    List.foldlRecOn (sorter.sort (pairs trackers (candidateRoles.filterMap priorOf) params))
    (takePair trackers (candidateRoles.filterMap priorOf) params) hempty fun m hm pr hpr =>
      htake m hm pr ((sorter.perm _).mem_iff.1 hpr), fun k a hk => ?_⟩
  rw [inferRoles, List.getElem?_map] at hk
  obtain ⟨k', hk', rfl⟩ := map_eq_some_iff.1 hk
  obtain ⟨-, rfl⟩ := List.getElem?_eq_some_iff.1 hk'
  rw [getElem_range]

/-- No role is given to two trackers. -/
theorem inferRoles_unique {sorter : Sorter K}
    (hc : candidateRoles.Nodup) {i j : ℕ} {b : RoleAssignment K}
    (hi : (inferRoles sorter trackers candidateRoles params)[i]? = some a)
    (hj : (inferRoles sorter trackers candidateRoles params)[j]? = some b)
    (hab : a.role = b.role) (ha : a.role ≠ .none) : i = j := by
  obtain ⟨m, hm, hresult⟩ :=
    inferRoles_induction (P := Matching.Inv (candidateRoles.filterMap priorOf))
    sorter candidateRoles ⟨fun _ h => (h rfl).elim, fun _ _ _ h => (h rfl).elim⟩
    fun m hm pr _ => hm.takePair (nodup_active hc) pr
  refine hm.unique i j ?_ ?_
  · rw [hresult i a hi, hresult j b hj, hab]
  · rwa [hresult i a hi]

/-- The same, with the trackers that the roles are given to. -/
theorem zip_inferRoles_unique {α : Type*} {l : List α} {sorter : Sorter K}
    (hc : candidateRoles.Nodup) {x y : α × RoleAssignment K}
    (hx : x ∈ l.zip (inferRoles sorter trackers candidateRoles params))
    (hy : y ∈ l.zip (inferRoles sorter trackers candidateRoles params))
    (hxy : x.2.role = y.2.role) (hne : x.2.role ≠ .none) : x = y := by
  obtain ⟨i, hi⟩ := mem_iff_getElem?.1 hx
  obtain ⟨j, hj⟩ := mem_iff_getElem?.1 hy
  have hi' := List.getElem?_zip_eq_some.1 hi
  have hj' := List.getElem?_zip_eq_some.1 hj
  obtain rfl := inferRoles_unique hc hi'.2 hj'.2 hxy hne
  exact some_inj.1 (hi.symm.trans hj)

/-! ## The confidence in a role -/

theorem role_ne_none_of_priorOf (h : priorOf role = some p) : p.role ≠ .none := by
  have hmem := mem_of_find?_eq_some h
  simp only [defaultRolePriors, mem_cons, not_mem_nil, or_false] at hmem
  obtain rfl | rfl | rfl | rfl | rfl | rfl | rfl | rfl := hmem <;> simp

/-- The next best role is the same whether roles are told apart by index or by name. -/
theorem secondCost_eq (hactive : (active.map (·.role)).Nodup) {f : TrackerMotionFeatures K}
    {p : RolePrior K} (hp : active[r]? = some p) :
    secondCost active params f r = active.foldl (fun second q => if q.role = p.role then second
      else min second (roleCost f q params)) infinity := by
  conv_rhs => rw [← zipIdx_map_fst 0 active, foldl_map]
  refine foldl_ext _ _ _ fun second x hx => ?_
  have hx' := mem_zipIdx_iff_getElem?.1 hx
  have hiff : x.2 = r ↔ x.1.role = p.role := by
    refine ⟨?_, index_inj hactive hx' hp⟩
    rintro rfl
    rw [some_inj.1 (hx'.symm.trans hp)]
  simp only [hiff]

omit [Arith K] in
theorem find?_active (hactive : (active.map (·.role)).Nodup) {p : RolePrior K} (hp : p ∈ active) :
    active.find? (·.role = p.role) = some p := by
  obtain ⟨q, hq⟩ := isSome_iff_exists.1
    (List.find?_isSome (p := fun q => decide (q.role = p.role)).2 ⟨p, hp, by simp⟩)
  have hrole : q.role = p.role := by simpa using List.find?_some hq
  rw [hq, inj_on_of_nodup_map hactive (mem_of_find?_eq_some hq) hp hrole]

/-- Where a role is given, its confidence is how well the tracker fits it. -/
def Matching.Fits (trackers : List (TrackerMotionFeatures K)) (candidateRoles : List BodyRole)
    (params : InferenceParams K) (m : Matching K) : Prop :=
  ∀ t f, trackers[t]? = some f →
    (m.result t).confidence = roleFitConfidence f (m.result t).role candidateRoles params ∧
      ((m.result t).role ≠ .none → params.minConfidence ≤ (m.result t).confidence)

variable {pr : Pair K}

theorem mem_pairs (h : pr ∈ pairs trackers active params) :
    ∃ f p, trackers[pr.tracker]? = some f ∧ active[pr.role]? = some p ∧ f.hasData = true ∧
      pr.cost = roleCost f p params := by
  obtain ⟨⟨f, t⟩, hf, hpr⟩ := mem_flatMap.1 h
  dsimp only at hpr
  split_ifs at hpr with hdata
  · obtain ⟨⟨p, r⟩, hp, rfl⟩ := mem_map.1 hpr
    exact ⟨f, p, mem_zipIdx_iff_getElem?.1 hf, mem_zipIdx_iff_getElem?.1 hp, hdata, rfl⟩
  · cases hpr

theorem Matching.Fits.takePair (hc : candidateRoles.Nodup)
    (h : m.Fits trackers candidateRoles params)
    (hpr : pr ∈ pairs trackers (candidateRoles.filterMap priorOf) params) :
    (takePair trackers (candidateRoles.filterMap priorOf) params m pr).Fits trackers candidateRoles
      params := by
  obtain ⟨f, p, hf, hp, hdata, hcost⟩ := mem_pairs hpr
  have hmem := mem_of_getElem? hp
  obtain ⟨role, -, hrole⟩ := mem_filterMap.1 hmem
  unfold Phantom.takePair
  split_ifs
  · exact h
  simp only [hf, hp]
  split_ifs with hmin
  · intro t f' hf'
    by_cases ht : t = pr.tracker
    · subst ht
      obtain rfl := some_inj.1 (hf.symm.trans hf')
      simp only [update_self]
      refine ⟨?_, fun _ => hmin⟩
      rw [roleFitConfidence, if_neg (by simp [hdata, role_ne_none_of_priorOf hrole]), hcost,
        secondCost_eq (nodup_active hc) hp]
      simp only [find?_active (nodup_active hc) hmem]
    · simp only [update_of_ne ht]
      exact h t f' hf'
  · exact h

/-- What is inferred for a tracker is how well it fits the role. -/
theorem inferRoles_fits {sorter : Sorter K}
    (hc : candidateRoles.Nodup) {i : ℕ} {f : TrackerMotionFeatures K}
    (hf : trackers[i]? = some f)
    (ha : (inferRoles sorter trackers candidateRoles params)[i]? = some a) :
    a.confidence = roleFitConfidence f a.role candidateRoles params ∧
      (a.role ≠ .none → params.minConfidence ≤ a.confidence) := by
  obtain ⟨m, hm, hresult⟩ :=
    inferRoles_induction (P := Matching.Fits trackers candidateRoles params)
    sorter candidateRoles (fun t f _ => by simp [Matching.empty, roleFitConfidence])
    fun m hm pr hpr => hm.takePair hc hpr
  rw [← hresult i a ha]
  exact hm i f hf

/-! ## What a snap gives -/

theorem nodup_inferenceCandidateRoles : inferenceCandidateRoles.Nodup := by decide

section SnapResult

variable {ι : Type*} {sorter : Sorter K} {head : Head K} {axes : Option (HeadAxes K)}
  {ts : List (ι × Vec3 K)}

/-- A snap gives nothing, or the roles inferred from the positions. -/
theorem snapCalibrate_assignments (sorter : Sorter K) (head : Head K)
    (axes : Option (HeadAxes K)) (ts : List (ι × Vec3 K)) (params : InferenceParams K) :
    (snapCalibrate sorter head axes ts params).assignments =
        ts.map (fun t => ⟨t.1, .none, lit 0⟩) ∨
      ∃ ax, axes = some ax ∧ (snapCalibrate sorter head axes ts params).assignments =
        (ts.zip (inferRoles sorter (ts.map fun t => snapFeatures head ax params.static t.2)
          inferenceCandidateRoles params.static)).map fun x =>
            ⟨x.1.1, x.2.role, x.2.confidence⟩ := by
  cases axes with
  | none =>
    refine .inl ?_
    simp only [snapCalibrate]
    split_ifs <;> rfl
  | some ax =>
    simp only [snapCalibrate]
    split_ifs
    any_goals exact .inl rfl
    all_goals exact .inr ⟨ax, rfl, rfl⟩

variable {a : SnapAssignment ι K}

/-- A snap gives no role to two trackers. -/
theorem snapCalibrate_unique {b : SnapAssignment ι K}
    (ha : a ∈ (snapCalibrate sorter head axes ts params).assignments)
    (hb : b ∈ (snapCalibrate sorter head axes ts params).assignments)
    (hab : a.role = b.role) (hne : a.role ≠ .none) : a = b := by
  obtain heq | ⟨ax, -, heq⟩ := snapCalibrate_assignments sorter head axes ts params
  · rw [heq] at ha
    obtain ⟨t, -, rfl⟩ := mem_map.1 ha
    exact absurd rfl hne
  · rw [heq] at ha hb
    obtain ⟨x, hx, rfl⟩ := mem_map.1 ha
    obtain ⟨y, hy, rfl⟩ := mem_map.1 hb
    rw [zip_inferRoles_unique nodup_inferenceCandidateRoles hx hy hab hne]

/-- A tracker fits the role a snap gives it. -/
theorem snapCalibrate_fits
    (ha : a ∈ (snapCalibrate sorter head axes ts params).assignments) (hne : a.role ≠ .none) :
    ∃ ax pos, axes = some ax ∧ (a.id, pos) ∈ ts ∧
      params.minConfidence ≤ roleFitConfidence (snapFeatures head ax params.static pos) a.role
        inferenceCandidateRoles params.static := by
  obtain heq | ⟨ax, hax, heq⟩ := snapCalibrate_assignments sorter head axes ts params
  · rw [heq] at ha
    obtain ⟨t, -, rfl⟩ := mem_map.1 ha
    exact absurd rfl hne
  · rw [heq] at ha
    obtain ⟨x, hx, rfl⟩ := mem_map.1 ha
    obtain ⟨i, hi⟩ := mem_iff_getElem?.1 hx
    obtain ⟨hi₁, hi₂⟩ := List.getElem?_zip_eq_some.1 hi
    have hf : (ts.map fun t => snapFeatures head ax params.static t.2)[i]? =
        some (snapFeatures head ax params.static x.1.2) := by
      rw [List.getElem?_map, hi₁, map_some]
    obtain ⟨hconf, hmin⟩ := inferRoles_fits nodup_inferenceCandidateRoles hf hi₂
    exact ⟨ax, x.1.2, hax, mem_of_getElem? hi₁, hconf ▸ hmin hne⟩

end SnapResult

end WKOpenVR.Phantom
