import WKOpenVR.Common.RecordingRetention

/-!
# Retention of motion recordings

The calibration module has a planner of its own for its recordings
(`PlanRecordingRetention`). It plans as the shared one does (`planRecordingRetention_eq`), and
all that holds for a plan is put together here (`planRetention_spec`).
-/

namespace WKOpenVR.Calibration

open Common.Recording

structure RecordingRetentionPolicy where
  maxFiles : ℕ
  maxTotalBytes : UInt64

structure LogFileEntry where
  sizeBytes : UInt64

structure RecordingRetentionPlan where
  deleteIndexes : List ℕ := []
  keptFiles : ℕ := 0
  keptBytes : UInt64 := 0
  deletedBytes : UInt64 := 0

/-- `detail::SaturatingAdd` of this module. -/
def saturatingAdd (a b : UInt64) : UInt64 :=
  let max : UInt64 := 0xFFFFFFFFFFFFFFFF
  if max - a < b then max else a + b

def keepsRecording (policy : RecordingRetentionPolicy) (plan : RecordingRetentionPlan)
    (entry : LogFileEntry) : Bool :=
  if 0 < policy.maxFiles ∧ plan.keptFiles < policy.maxFiles ∧ 0 < policy.maxTotalBytes then
    let fitsByteBudget :=
      if plan.keptBytes ≤ policy.maxTotalBytes then
        decide (entry.sizeBytes ≤ policy.maxTotalBytes - plan.keptBytes)
      else false
    -- The newest recording is kept even if it alone exceeds the cap.
    if !fitsByteBudget && plan.keptFiles == 0 then true else fitsByteBudget
  else false

def planRecordingLoop (policy : RecordingRetentionPolicy) :
    ℕ → RecordingRetentionPlan → List LogFileEntry → RecordingRetentionPlan
  | _, plan, [] => plan
  | i, plan, entry :: entries =>
    let next : RecordingRetentionPlan :=
      if keepsRecording policy plan entry then
        { plan with
          keptFiles := plan.keptFiles + 1
          keptBytes := saturatingAdd plan.keptBytes entry.sizeBytes }
      else
        { plan with
          deleteIndexes := plan.deleteIndexes ++ [i]
          deletedBytes := saturatingAdd plan.deletedBytes entry.sizeBytes }
    planRecordingLoop policy (i + 1) next entries

def planRecordingRetention (newestFirst : List LogFileEntry) (policy : RecordingRetentionPolicy) :
    RecordingRetentionPlan :=
  planRecordingLoop policy 0 {} newestFirst

/-- A plan of the shared planner as one of this module. -/
def ofRetentionPlan (plan : RetentionPlan) : RecordingRetentionPlan :=
  ⟨plan.deleteIndexes, plan.keptFiles, plan.keptBytes, plan.deletedBytes⟩

def ofRecordingFileEntry (entry : RecordingFileEntry) : LogFileEntry := ⟨entry.sizeBytes⟩

def ofRetentionPolicy (policy : RetentionPolicy) : RecordingRetentionPolicy :=
  ⟨policy.maxFiles, policy.maxTotalBytes⟩

section Plans

variable (newestFirst : List RecordingFileEntry) (policy : RetentionPolicy)

/-- The two loops go together. -/
theorem planRecordingLoop_eq (i : ℕ) (plan : RetentionPlan) :
    planRecordingLoop (ofRetentionPolicy policy) i (ofRetentionPlan plan)
        (newestFirst.map ofRecordingFileEntry) =
      ofRetentionPlan (planLoop policy i plan newestFirst) := by
  induction newestFirst generalizing i plan with
  | nil => rfl
  | cons entry newestFirst ih =>
    have hsame : keepsRecording (ofRetentionPolicy policy) (ofRetentionPlan plan)
        (ofRecordingFileEntry entry) = keeps policy plan entry := rfl
    rw [List.map_cons, planRecordingLoop, planLoop, ← ih, hsame]
    cases hkeeps : keeps policy plan entry with
    | true =>
      rw [planStep_of_keeps hkeeps, if_pos rfl]
      rfl
    | false =>
      rw [planStep_of_not_keeps hkeeps, if_neg Bool.false_ne_true]
      rfl

/-- What a plan is, for all files and caps. The indexes to delete increase, and each index is
    deleted or kept. The caps hold, but for a single file that exceeds the cap on the bytes,
    and the newest file is kept if any may be. What is kept is kept again, and both planners
    agree. -/
theorem planRetention_spec :
    (planRetention newestFirst policy).deleteIndexes.Pairwise (· < ·) ∧
      ((planRetention newestFirst policy).deleteIndexes ++ keptIndexes newestFirst policy).Perm
        (List.range newestFirst.length) ∧
      (∀ p ∈ kept newestFirst policy, newestFirst[p.1]? = some p.2) ∧
      (planRetention newestFirst policy).keptFiles = (keptIndexes newestFirst policy).length ∧
      (planRetention newestFirst policy).keptFiles ≤ policy.maxFiles ∧
      (planRetention newestFirst policy).keptBytes.toNat =
        totalBytes (keptEntries newestFirst policy) ∧
      ((planRetention newestFirst policy).keptBytes ≤ policy.maxTotalBytes ∨
        (planRetention newestFirst policy).keptFiles = 1) ∧
      (0 < policy.maxFiles → 0 < policy.maxTotalBytes → newestFirst ≠ [] →
        0 ∈ keptIndexes newestFirst policy) ∧
      (planRetention (keptEntries newestFirst policy) policy).deleteIndexes = [] ∧
      planRecordingRetention (newestFirst.map ofRecordingFileEntry) (ofRetentionPolicy policy) =
        ofRetentionPlan (planRetention newestFirst policy) := by
  obtain ⟨hbudget, hsum⟩ := (Budget.start policy).planLoop 0 newestFirst
  refine ⟨pairwise_deleteIndexes newestFirst policy, perm_indexes newestFirst policy,
    fun p hp => (getElem?_of_mem_keptLoop policy hp).2, ?_, hbudget.files, ?_,
    hbudget.bytes.imp_left UInt64.le_iff_toNat_le.2, zero_mem_keptIndexes newestFirst policy,
    planLoop_keptLoop rfl rfl 0 0 newestFirst, planRecordingLoop_eq newestFirst policy 0 {}⟩
  · have hfiles := keptFiles_planLoop policy 0 {} newestFirst
    rw [Nat.zero_add] at hfiles
    rw [keptIndexes, List.length_map]
    exact hfiles
  · have hzero : (0 : UInt64).toNat = 0 := rfl
    rw [hzero, Nat.zero_add] at hsum
    exact hsum

end Plans

end WKOpenVR.Calibration
