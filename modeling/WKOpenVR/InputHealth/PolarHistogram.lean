import WKOpenVR.Machine
import Mathlib.Analysis.SpecialFunctions.Complex.Arg
import Mathlib.Analysis.Real.Pi.Bounds

/-!
# The envelope of a stick

`PolarHistogram` keeps the largest radius that a stick has reached in each of 36 directions, and
the largest of all. In a bin that has seen 256 samples the radius is blended with the samples, and
may get smaller; the largest of all never does (`decayed_maximum`). It is the maximum of the bins
as long as no bin decays that alone holds it (`globalMaxR_isGreatest`).

Radii are not rounded; the functions of `<cmath>` are given (`Plane`).
-/

namespace WKOpenVR.InputHealth.PolarHistogram

open Set Function

/-- The functions of `<cmath>`. -/
structure Plane (K : Type*) where
  hypot : K → K → K
  atan2 : K → K → K

/-- The real functions. -/
noncomputable def Plane.real : Plane ℝ where
  hypot x y := √(x ^ 2 + y ^ 2)
  atan2 y x := Complex.arg ⟨x, y⟩

structure PolarBin (K : Type*) [Zero K] where
  maxR : K := 0
  count : ℕ := 0
  lastUpdateUs : UInt64 := 0

structure PolarHistogramState (K : Type*) [Zero K] where
  bins : Fin 36 → PolarBin K := fun _ => {}
  /-- The running maximum of all bins. -/
  globalMaxR : K := 0

def kPerBinCap : ℕ := 256

variable {K : Type*} [Field K] [LinearOrder K] [IsStrictOrderedRing K] [FloorRing K]

/-- The conversion to an integer. -/
def trunc (q : K) : ℤ := if 0 ≤ q then ⌊q⌋ else ⌈q⌉

def fmod (a m : K) : K := a - trunc (a / m) * m

def polarBinIndexForAngle (theta : K) : Fin 36 :=
  let twoPi : K := 6283185307179586 / 1000000000000000
  let t := fmod theta twoPi
  let t := if t < 0 then t + twoPi else t
  let idx := trunc (t / (twoPi / 36))
  if idx < 0 then 0 else if idx < 36 then Fin.ofNat 36 idx.toNat else 35

def PolarBin.update (b : PolarBin K) (rf : K) (timestampUs : UInt64) (saturatedDecay : K) :
    PolarBin K :=
  if b.count < kPerBinCap then
    ⟨max b.maxR rf, b.count + 1, timestampUs⟩
  else
    let decay := min (max saturatedDecay 0) 1
    let blended := (1 - decay) * b.maxR + decay * rf
    ⟨if rf > b.maxR then rf else blended, b.count, timestampUs⟩

/-- A call. -/
inductive Call (K : Type*)
  | update (x y : K) (timestampUs : UInt64) (saturatedDecay : K)
  | reset

variable (p : Plane K)

/-- `PolarHistogramUpdate` and `PolarHistogramReset`. -/
def step (s : PolarHistogramState K) : Call K → PolarHistogramState K
  | .update x y timestampUs saturatedDecay =>
    let bin := polarBinIndexForAngle (p.atan2 y x)
    let b := (s.bins bin).update (p.hypot x y) timestampUs saturatedDecay
    ⟨update s.bins bin b, max s.globalMaxR b.maxR⟩
  | .reset => {}

def machine : Machine (PolarHistogramState K) (Call K) where
  init := {{}}
  step s c := some (step p s c)

/-- A bin that decays does not hold the maximum alone. -/
def MaximumKept (s : PolarHistogramState K) : Call K → Prop
  | .update x y _ saturatedDecay =>
    let bin := polarBinIndexForAngle (p.atan2 y x)
    ((s.bins bin).count < kPerBinCap ∨ saturatedDecay ≤ 0 ∨ (s.bins bin).maxR ≤ p.hypot x y) ∨
      ∃ i ≠ bin, (s.bins i).maxR = s.globalMaxR
  | .reset => True

/-- The maximum of all bins. -/
def IsMaximum (s : PolarHistogramState K) : Prop :=
  IsGreatest (range fun i => (s.bins i).maxR) s.globalMaxR

variable {p} {s : PolarHistogramState K} {calls : List (Call K)}

omit [FloorRing K] in
theorem PolarBin.le_maxR_update {b : PolarBin K} {rf decay : K} (timestampUs : UInt64)
    (h : b.count < kPerBinCap ∨ decay ≤ 0 ∨ b.maxR ≤ rf) :
    b.maxR ≤ (b.update rf timestampUs decay).maxR := by
  rw [PolarBin.update]
  split_ifs with hcount hrf
  · exact le_max_left _ _
  · exact hrf.le
  · rcases h with h | h | h
    · exact absurd h hcount
    · simp [max_eq_right h]
    · rw [le_antisymm h (not_lt.1 hrf)]
      exact le_of_eq (by ring)

omit [Field K] [IsStrictOrderedRing K] [FloorRing K] in
/-- A value of a family is replaced: the maximum is updated with it, if it did not get smaller, or
    another one is the maximum. -/
theorem isGreatest_update {ι : Type*} [DecidableEq ι] {f : ι → K} {g v : K} {i : ι}
    (h : IsGreatest (range f) g) (hv : f i ≤ v ∨ ∃ j ≠ i, f j = g) :
    IsGreatest (range (update f i v)) (max g v) := by
  refine ⟨?_, ?_⟩
  · rcases le_or_gt g v with hgv | hgv
    · exact ⟨i, by rw [update_self, max_eq_right hgv]⟩
    · rw [max_eq_left hgv.le]
      obtain ⟨j, hj⟩ := h.1
      rcases hv with hv | ⟨j, hji, hj⟩
      · have hji : j ≠ i := by
          rintro rfl
          exact absurd (hj ▸ hv) (not_le.2 hgv)
        exact ⟨j, by rw [update_of_ne hji, hj]⟩
      · exact ⟨j, by rw [update_of_ne hji, hj]⟩
  · rintro _ ⟨j, rfl⟩
    rcases eq_or_ne j i with rfl | hji
    · rw [update_self]
      exact le_max_right _ _
    · rw [update_of_ne hji]
      exact le_max_of_le_left (h.2 ⟨j, rfl⟩)

theorem IsMaximum.step (h : IsMaximum s) {c : Call K} (hc : MaximumKept p s c) :
    IsMaximum (step p s c) := by
  cases c with
  | update x y timestampUs decay =>
    have hmaxR (i) (b : PolarBin K) : (fun j => (update s.bins i b j).maxR) =
        update (fun j => (s.bins j).maxR) i b.maxR :=
      funext fun j => apply_update (fun _ => PolarBin.maxR) s.bins i b j
    rw [PolarHistogram.step, IsMaximum, hmaxR]
    exact isGreatest_update h (hc.imp_left (PolarBin.le_maxR_update timestampUs))
  | reset => exact ⟨⟨0, rfl⟩, by rintro _ ⟨i, rfl⟩; exact le_rfl⟩

/-- If no bin decays that alone holds the maximum, it is the maximum of all bins. -/
theorem globalMaxR_isGreatest (h : (machine p).RunIf (MaximumKept p) calls s) :
    IsGreatest (range fun i => (s.bins i).maxR) s.globalMaxR := by
  refine h.invariant (I := IsMaximum) ?_ fun s c s' hmax hc hs => ?_
  · rintro _ rfl
    exact ⟨⟨0, rfl⟩, by rintro _ ⟨i, rfl⟩; exact le_rfl⟩
  · cases hs
    exact hmax.step hc

/-! ## A bin that decays -/

/-- A stick to the right is in the first bin, and one to the left in the one across from it. -/
theorem polarBinIndex_right {x : ℝ} (hx : 0 ≤ x) :
    polarBinIndexForAngle (Plane.real.atan2 0 x) = 0 := by
  have harg : Plane.real.atan2 0 x = 0 := Complex.arg_ofReal_of_nonneg hx
  simp [harg, polarBinIndexForAngle, fmod, trunc]

theorem polarBinIndex_left : polarBinIndexForAngle (Plane.real.atan2 0 (-1)) = 18 := by
  have harg : Plane.real.atan2 0 (-1) = Real.pi := Complex.arg_ofReal_of_neg (by norm_num)
  have hpi := Real.pi_gt_d20
  have hpi' := Real.pi_lt_d2
  have hturns : trunc (Real.pi / (6283185307179586 / 1000000000000000)) = 0 := by
    rw [trunc, if_pos (by positivity), Int.floor_eq_iff]
    norm_num
    constructor <;> linarith
  have hbin : trunc (Real.pi / (6283185307179586 / 1000000000000000 / 36)) = 18 := by
    rw [trunc, if_pos (by positivity), Int.floor_eq_iff]
    norm_num
    constructor <;> linarith
  have hpos : ¬Real.pi < 0 := not_lt.2 Real.pi_pos.le
  rw [harg, polarBinIndexForAngle]
  simp only [fmod, hturns, Int.cast_zero, zero_mul, sub_zero, if_neg hpos, hbin]
  rfl

theorem hypot_real (x : ℝ) : Plane.real.hypot x 0 = |x| := by
  simp [Plane.real, Real.sqrt_sq_eq_abs]

/-- The stick is moved to the right until the first bin is saturated, or shortly before. -/
theorem runIf_replicate {C : PolarHistogramState ℝ → Call ℝ → Prop}
    {calls : List (Call ℝ)} {s : PolarHistogramState ℝ} (h : (machine Plane.real).RunIf C calls s)
    (hC : ∀ s', (s'.bins 0).count < kPerBinCap → C s' (.update 1 0 0 1)) (hs : s.bins 0 = {})
    (n : ℕ) (hn : n < kPerBinCap) :
    (machine Plane.real).RunIf C (calls ++ .replicate (n + 1) (.update 1 0 0 1))
      ⟨update s.bins 0 ⟨1, n + 1, 0⟩, max s.globalMaxR 1⟩ := by
  have hright := polarBinIndex_right (x := 1) zero_le_one
  induction n with
  | zero =>
    refine .step h (hC s (by rw [hs]; exact hn)) ?_
    simp [machine, step, hright, hypot_real, PolarBin.update, kPerBinCap, hs]
  | succ n ih =>
    rw [List.replicate_succ', ← List.append_assoc]
    refine .step (ih (by omega)) (hC _ (by simpa using hn)) ?_
    simp [machine, step, hright, hypot_real, PolarBin.update, hn]

/-- The stick is moved to the left once, to the right until the bin is saturated, and then
    stays at rest: the bin on the right decays to `0`, and the one on the left holds the
    maximum. -/
theorem globalMaxR_isGreatest_decayed : ∃ calls s,
    (machine Plane.real).RunIf (MaximumKept Plane.real) calls s ∧ (s.bins 0).maxR = 0 ∧
      s.globalMaxR = 1 ∧ IsGreatest (range fun i => (s.bins i).maxR) s.globalMaxR := by
  have hleft : (machine Plane.real).RunIf (MaximumKept Plane.real) [.update (-1) 0 0 1]
      ⟨update (fun _ => {}) 18 ⟨1, 1, 0⟩, 1⟩ := by
    refine (Machine.RunIf.init rfl).step (.inl (.inl (by simp [kPerBinCap]))) ?_
    simp [machine, step, polarBinIndex_left, hypot_real, PolarBin.update, kPerBinCap]
  have hrest := polarBinIndex_right (x := 0) le_rfl
  have hright := polarBinIndex_right (x := 1) zero_le_one
  have hfull := runIf_replicate hleft (fun s' h => .inl (.inl (by simpa [hright] using h))) rfl
    255 (by decide)
  have hkept : MaximumKept Plane.real ⟨update (update (fun _ => {}) 18 ⟨1, 1, 0⟩) 0 ⟨1, 256, 0⟩,
      max 1 1⟩ (.update 0 0 0 1) := .inr ⟨18, by simp [hrest], by simp⟩
  have hdecayed := Machine.RunIf.step hfull hkept rfl
  refine ⟨_, _, hdecayed, ?_, ?_, globalMaxR_isGreatest hdecayed⟩
  all_goals simp [step, hrest, hypot_real, PolarBin.update, kPerBinCap]

/-- The stick reaches `1` until its bin is saturated, and then stays at rest. -/
theorem decayed_maximum : ∃ calls s, (machine Plane.real).Run calls s ∧ ¬IsMaximum s := by
  have hrest := polarBinIndex_right (x := 0) le_rfl
  have hfull : (machine Plane.real).Run ([] ++ .replicate 256 (.update 1 0 0 1)) _ :=
    runIf_replicate (.init rfl) (fun _ _ => trivial) rfl 255 (by decide)
  refine ⟨_, _, .step (a := .update 0 0 0 1) hfull trivial rfl, fun h => ?_⟩
  obtain ⟨i, hi⟩ := h.1
  rcases eq_or_ne i 0 with rfl | hi0
  · simp [step, hrest, hypot_real, PolarBin.update, kPerBinCap] at hi
  · simp [step, hrest, hypot_real, PolarBin.update, kPerBinCap, hi0] at hi

end WKOpenVR.InputHealth.PolarHistogram
