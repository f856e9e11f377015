import WKOpenVR.InputHealth.LearningRules
import Mathlib.Topology.MetricSpace.Pseudo.Real

/-!
# Stable rest

`UpdateStableRestWindow` keeps the extremes of the values since it was last started, and starts
anew where they are too far apart. In exact numbers it answers that the values are stable only
after a run of candidates that takes long enough, and in which no two values are too far apart
(`stable_of_update`). The times of the calls need not be in order.
-/

namespace WKOpenVR.InputHealth.StableRestWindow

open List

/-- The arguments of a call of `UpdateStableRestWindow`. -/
structure Call where
  candidate : Bool
  primary : ℝ
  partner : ℝ
  nowUs : UInt64
  maxSpan : ℝ
  minWindowUs : UInt64

noncomputable def call (w : StableRestWindow ℝ) (c : Call) : Bool × StableRestWindow ℝ :=
  w.update c.candidate c.primary c.partner c.nowUs c.maxSpan c.minWindowUs

/-- The window after the calls. -/
noncomputable def after (calls : List Call) : StableRestWindow ℝ :=
  calls.foldl (fun w c => (w.call c).2) reset

/-- All calls are of candidates, with values that are not further apart than `span`. -/
structure Steady (span : ℝ) (calls : List Call) : Prop where
  candidate : ∀ a ∈ calls, a.candidate = true
  primary : ∀ a ∈ calls, ∀ b ∈ calls, |a.primary - b.primary| ≤ span
  partner : ∀ a ∈ calls, ∀ b ∈ calls, |a.partner - b.partner| ≤ span

variable {w : StableRestWindow ℝ} {a c : Call} {calls : List Call}

theorem min_eq (x y : ℝ) : FloatMath.min x y = min x y := by
  rw [FloatMath.min, min_comm, min_def_lt]

theorem max_eq (x y : ℝ) : FloatArith.max x y = max x y := by
  rw [FloatArith.max, max_def_lt]

/-- The call is of a candidate, with values between the extremes. -/
structure Holds (w : StableRestWindow ℝ) (a : Call) : Prop where
  candidate : a.candidate = true
  primary : a.primary ∈ Set.Icc w.minPrimary w.maxPrimary
  partner : a.partner ∈ Set.Icc w.minPartner w.maxPartner

theorem holds_widen (h : c.candidate = true) : (w.widen c.primary c.partner).Holds c :=
  ⟨h, by simp [widen, min_eq, max_eq], by simp [widen, min_eq, max_eq]⟩

theorem Holds.widen (h : w.Holds a) (x y : ℝ) : (w.widen x y).Holds a := by
  obtain ⟨hcandidate, ⟨hmin, hmax⟩, ⟨hmin', hmax'⟩⟩ := h
  exact ⟨hcandidate, by simp [StableRestWindow.widen, min_eq, max_eq, hmin, hmax],
    by simp [StableRestWindow.widen, min_eq, max_eq, hmin', hmax']⟩

/-- The values in a window that is not too wide are not too far apart. -/
theorem steady_of_holds {span : ℝ} (h : w.exceeds span = false) (hcalls : ∀ a ∈ calls, w.Holds a) :
    Steady span calls := by
  rw [exceeds, Bool.or_eq_false_iff, decide_eq_false_iff_not, decide_eq_false_iff_not] at h
  refine ⟨fun a ha => (hcalls a ha).candidate, fun a ha b hb => ?_, fun a ha b hb => ?_⟩
  · exact (Real.dist_le_of_mem_Icc (hcalls a ha).primary (hcalls b hb).primary).trans (not_lt.1 h.1)
  · exact (Real.dist_le_of_mem_Icc (hcalls a ha).partner (hcalls b hb).partner).trans (not_lt.1 h.2)

/-- The last of the calls are in the window, which was started by the first of them. -/
def Spans (w : StableRestWindow ℝ) (calls : List Call) : Prop :=
  ∃ pre first run, calls = pre ++ first :: run ∧ first.nowUs = w.sinceUs ∧
    ∀ a ∈ first :: run, w.Holds a

theorem spans_startAt (h : c.candidate = true) :
    (startAt c.primary c.partner c.nowUs).Spans (calls ++ [c]) := by
  refine ⟨calls, c, [], rfl, rfl, forall_mem_singleton.2 ?_⟩
  exact ⟨h, ⟨le_rfl, le_rfl⟩, ⟨le_rfl, le_rfl⟩⟩

theorem Spans.widen (h : w.Spans calls) (hc : c.candidate = true) :
    (w.widen c.primary c.partner).Spans (calls ++ [c]) := by
  obtain ⟨pre, first, run, rfl, hsince, hrun⟩ := h
  refine ⟨pre, first, run ++ [c], by rw [append_assoc, cons_append], hsince, ?_⟩
  rw [← cons_append, forall_mem_append, forall_mem_singleton]
  exact ⟨fun a ha => (hrun a ha).widen _ _, holds_widen hc⟩

/-- A call resets the window, starts it, or widens it as far as is allowed. -/
theorem call_cases (w : StableRestWindow ℝ) (c : Call) :
    w.call c = (false, reset) ∨
      c.candidate = true ∧ (w.call c = (false, startAt c.primary c.partner c.nowUs) ∨
        w.active = true ∧ (w.widen c.primary c.partner).exceeds c.maxSpan = false ∧
          w.call c = (decide (w.sinceUs ≤ c.nowUs) && decide (c.minWindowUs ≤ c.nowUs - w.sinceUs),
            w.widen c.primary c.partner)) := by
  rw [call, update]
  split_ifs <;> simp_all

theorem spans_after (h : (after calls).active = true) : (after calls).Spans calls := by
  induction calls using reverseRecOn with
  | nil => exact absurd h Bool.false_ne_true
  | append_singleton calls c ih =>
    have hafter : after (calls ++ [c]) = ((after calls).call c).2 := foldl_concat ..
    rw [hafter] at h ⊢
    rcases call_cases (after calls) c with hcall | ⟨hc, hcall | ⟨hactive, -, hcall⟩⟩
    · rw [hcall] at h
      exact absurd h Bool.false_ne_true
    · rw [hcall]
      exact spans_startAt hc
    · rw [hcall]
      exact (ih hactive).widen hc

/-- The values are stable only after a run of calls that is long enough, and steady. -/
theorem stable_of_update (calls : List Call) (c : Call) (h : ((after calls).call c).1 = true) :
    ∃ pre first run, calls ++ [c] = pre ++ first :: run ∧
      first.nowUs.toNat + c.minWindowUs.toNat ≤ c.nowUs.toNat ∧
      Steady c.maxSpan (first :: run) := by
  rcases call_cases (after calls) c with hcall | ⟨hc, hcall | ⟨hactive, hexceeds, hcall⟩⟩
  · rw [hcall] at h
    exact absurd h Bool.false_ne_true
  · rw [hcall] at h
    exact absurd h Bool.false_ne_true
  · rw [hcall, Bool.and_eq_true, decide_eq_true_iff, decide_eq_true_iff] at h
    obtain ⟨pre, first, run, hcalls, hsince, hrun⟩ := (spans_after hactive).widen hc
    refine ⟨pre, first, run, hcalls, ?_, steady_of_holds hexceeds hrun⟩
    have hle := UInt64.le_iff_toNat_le.1 h.2
    rw [UInt64.toNat_sub_of_le _ _ h.1] at hle
    rw [hsince]
    exact Nat.add_le_of_le_sub' (UInt64.le_iff_toNat_le.1 h.1) hle

/-- Two equal values, a second apart. -/
theorem stable_of_update_second :
    ∃ pre first run, [⟨true, 0, 0, 0, 0, 1000000⟩] ++ [⟨true, 0, 0, 1000000, 0, 1000000⟩] =
      pre ++ first :: run ∧ first.nowUs.toNat + 1000000 ≤ 1000000 ∧ Steady 0 (first :: run) :=
  stable_of_update _ ⟨true, 0, 0, 1000000, 0, 1000000⟩ (by
    simp [after, call, update, reset, startAt, widen, exceeds, min_eq, max_eq])

end WKOpenVR.InputHealth.StableRestWindow
