import Mathlib.Data.UInt
import Mathlib.Data.List.Range

/-!
# Retention of recordings

Recordings are kept from the newest on, under a cap on their number and a cap on their bytes
(`PlanRetention`). A recording that does not fit is skipped, and older ones may still fit. The
newest one is kept even if it alone exceeds the cap on the bytes.

The loop is followed by what it keeps (`keptLoop`), each recording with its index.

* `deleteIndexes_planLoop`: what is not kept is deleted;
* `Budget.planStep`: the caps hold before and after each recording, and no sum of kept bytes
  saturates;
* `planLoop_keptLoop`: what is kept is kept again, if it is planned for alone.
-/

namespace WKOpenVR.Common.Recording

open List

structure RetentionPolicy where
  maxFiles : ℕ
  maxTotalBytes : UInt64

structure RecordingFileEntry where
  sizeBytes : UInt64

structure RetentionPlan where
  deleteIndexes : List ℕ := []
  keptFiles : ℕ := 0
  keptBytes : UInt64 := 0
  deletedBytes : UInt64 := 0

def saturatingAdd (a b : UInt64) : UInt64 :=
  let max : UInt64 := 0xFFFFFFFFFFFFFFFF
  if max - a < b then max else a + b

section Planner

variable (policy : RetentionPolicy) (plan : RetentionPlan) (entry : RecordingFileEntry)

/-- Whether the bytes of the next recording fit. The first one always does. -/
def fitsByteBudget : Bool :=
  let fits :=
    if plan.keptBytes ≤ policy.maxTotalBytes then
      decide (entry.sizeBytes ≤ policy.maxTotalBytes - plan.keptBytes)
    else false
  if !fits && plan.keptFiles == 0 then true else fits

def keeps : Bool :=
  if 0 < policy.maxFiles ∧ plan.keptFiles < policy.maxFiles ∧ 0 < policy.maxTotalBytes then
    fitsByteBudget policy plan entry
  else false

def planStep (i : ℕ) (entry : RecordingFileEntry) : RetentionPlan :=
  if keeps policy plan entry then
    { plan with
      keptFiles := plan.keptFiles + 1
      keptBytes := saturatingAdd plan.keptBytes entry.sizeBytes }
  else
    { plan with
      deleteIndexes := plan.deleteIndexes ++ [i]
      deletedBytes := saturatingAdd plan.deletedBytes entry.sizeBytes }

/-- The loop, from an index on. -/
def planLoop (policy : RetentionPolicy) :
    ℕ → RetentionPlan → List RecordingFileEntry → RetentionPlan
  | _, plan, [] => plan
  | i, plan, entry :: entries => planLoop policy (i + 1) (planStep policy plan i entry) entries

variable (newestFirst : List RecordingFileEntry)

def planRetention (policy : RetentionPolicy) : RetentionPlan :=
  planLoop policy 0 {} newestFirst

/-! ## What is kept -/

/-- What the loop keeps, with its indexes. -/
def keptLoop (policy : RetentionPolicy) :
    ℕ → RetentionPlan → List RecordingFileEntry → List (ℕ × RecordingFileEntry)
  | _, _, [] => []
  | i, plan, entry :: entries =>
    let kept := keptLoop policy (i + 1) (planStep policy plan i entry) entries
    if keeps policy plan entry then (i, entry) :: kept else kept

def kept (policy : RetentionPolicy) : List (ℕ × RecordingFileEntry) :=
  keptLoop policy 0 {} newestFirst

def keptIndexes (policy : RetentionPolicy) : List ℕ :=
  (kept newestFirst policy).map Prod.fst

/-- The files that are kept, the newest first. -/
def keptEntries (policy : RetentionPolicy) : List RecordingFileEntry :=
  (kept newestFirst policy).map Prod.snd

def totalBytes (entries : List RecordingFileEntry) : ℕ :=
  (entries.map fun entry => entry.sizeBytes.toNat).sum

end Planner

section Step

variable {policy : RetentionPolicy} {plan : RetentionPlan} {entry : RecordingFileEntry} {i : ℕ}

theorem planStep_of_keeps (h : keeps policy plan entry = true) :
    planStep policy plan i entry =
      { plan with
        keptFiles := plan.keptFiles + 1
        keptBytes := saturatingAdd plan.keptBytes entry.sizeBytes } :=
  if_pos h

theorem planStep_of_not_keeps (h : keeps policy plan entry = false) :
    planStep policy plan i entry =
      { plan with
        deleteIndexes := plan.deleteIndexes ++ [i]
        deletedBytes := saturatingAdd plan.deletedBytes entry.sizeBytes } :=
  if_neg (by simp [h])

theorem fitsByteBudget_iff :
    fitsByteBudget policy plan entry = true ↔
      plan.keptFiles = 0 ∨
        plan.keptBytes.toNat + entry.sizeBytes.toNat ≤ policy.maxTotalBytes.toNat := by
  have hfits : (if plan.keptBytes ≤ policy.maxTotalBytes then
      decide (entry.sizeBytes ≤ policy.maxTotalBytes - plan.keptBytes) else false) = true ↔
      plan.keptBytes.toNat + entry.sizeBytes.toNat ≤ policy.maxTotalBytes.toNat := by
    split_ifs with hle
    · rw [decide_eq_true_eq, UInt64.le_iff_toNat_le, UInt64.toNat_sub_of_le _ _ hle]
      have hle' := UInt64.le_iff_toNat_le.1 hle
      omega
    · have hlt : ¬plan.keptBytes.toNat ≤ policy.maxTotalBytes.toNat := fun h =>
        hle (UInt64.le_iff_toNat_le.2 h)
      refine ⟨False.elim, fun h => ?_⟩
      omega
  rw [← hfits]
  unfold fitsByteBudget
  generalize (if plan.keptBytes ≤ policy.maxTotalBytes then
    decide (entry.sizeBytes ≤ policy.maxTotalBytes - plan.keptBytes) else false) = fits
  cases fits with
  | true => simp
  | false => simp

/-- A recording is kept if there is room for a file and, unless it is the first one, for its
    bytes. -/
theorem keeps_iff :
    keeps policy plan entry = true ↔
      plan.keptFiles < policy.maxFiles ∧ 0 < policy.maxTotalBytes ∧
        (plan.keptFiles = 0 ∨
          plan.keptBytes.toNat + entry.sizeBytes.toNat ≤ policy.maxTotalBytes.toNat) := by
  unfold keeps
  split_ifs with hcaps
  · rw [fitsByteBudget_iff]
    exact ⟨fun h => ⟨hcaps.2.1, hcaps.2.2, h⟩, fun h => h.2.2⟩
  · refine ⟨False.elim, ?_⟩
    rintro ⟨hfiles, hbytes, -⟩
    exact absurd ⟨by omega, hfiles, hbytes⟩ hcaps

theorem toNat_saturatingAdd {a b : UInt64} (h : a.toNat + b.toNat < 2 ^ 64) :
    (saturatingAdd a b).toNat = a.toNat + b.toNat := by
  have hno : ¬0xFFFFFFFFFFFFFFFF - a < b := by
    rw [UInt64.lt_iff_toNat_lt, UInt64.toNat_sub_of_le]
    · simp
      omega
    · rw [UInt64.le_iff_toNat_le]
      have := a.toNat_lt
      simp
      omega
  rw [saturatingAdd, if_neg hno, UInt64.toNat_add, Nat.mod_eq_of_lt h]

end Step

/-! ## The loop -/

section Loop

variable (policy : RetentionPolicy) (i : ℕ) (plan : RetentionPlan)
  (entries : List RecordingFileEntry)

/-- What is kept has been looked at, in its order. -/
theorem sublist_keptLoop :
    ((keptLoop policy i plan entries).map Prod.fst).Sublist (range' i entries.length) := by
  induction entries generalizing i plan with
  | nil => exact List.Sublist.refl _
  | cons entry entries ih =>
    have ih := ih (i + 1) (planStep policy plan i entry)
    rw [keptLoop, length_cons, range'_succ]
    split_ifs with hkeeps
    · exact ih.cons_cons i
    · exact ih.cons i

/-- A file is kept with its index. -/
theorem getElem?_of_mem_keptLoop {i : ℕ} {plan : RetentionPlan} {entries : List RecordingFileEntry}
    {p : ℕ × RecordingFileEntry} (hp : p ∈ keptLoop policy i plan entries) :
    i ≤ p.1 ∧ entries[p.1 - i]? = some p.2 := by
  induction entries generalizing i plan with
  | nil => cases hp
  | cons entry entries ih =>
    have hrest (hp : p ∈ keptLoop policy (i + 1) (planStep policy plan i entry) entries) :
        i ≤ p.1 ∧ (entry :: entries)[p.1 - i]? = some p.2 := by
      obtain ⟨hle, hget⟩ := ih hp
      have hsub : p.1 - i = p.1 - (i + 1) + 1 := by omega
      exact ⟨by omega, by rw [hsub, getElem?_cons_succ, hget]⟩
    rw [keptLoop] at hp
    split_ifs at hp with hkeeps
    · rcases mem_cons.1 hp with rfl | hp
      · simp
      · exact hrest hp
    · exact hrest hp

/-- The files that are kept are counted. -/
theorem keptFiles_planLoop : (planLoop policy i plan entries).keptFiles =
      plan.keptFiles + (keptLoop policy i plan entries).length := by
  induction entries generalizing i plan with
  | nil => rfl
  | cons entry entries ih =>
    rw [planLoop, keptLoop, ih]
    cases hkeeps : keeps policy plan entry with
    | true =>
      rw [planStep_of_keeps hkeeps, if_pos rfl, length_cons]
      simp only
      omega
    | false => rw [planStep_of_not_keeps hkeeps, if_neg Bool.false_ne_true]

/-- What is not kept is deleted. -/
theorem deleteIndexes_planLoop : (planLoop policy i plan entries).deleteIndexes =
      plan.deleteIndexes ++ (range' i entries.length).filter fun j =>
        decide (j ∉ (keptLoop policy i plan entries).map Prod.fst) := by
  induction entries generalizing i plan with
  | nil => simp [planLoop]
  | cons entry entries ih =>
    rw [planLoop, keptLoop, ih, length_cons, range'_succ]
    have hlater : ∀ j ∈ range' (i + 1) entries.length, i < j := fun j hj =>
      (mem_range'_1.1 hj).1
    cases hkeeps : keeps policy plan entry with
    | true =>
      rw [planStep_of_keeps hkeeps, if_pos rfl]
      simp only [map_cons, filter_cons, mem_cons, true_or, not_true_eq_false,
        decide_false, Bool.false_eq_true, if_false]
      refine congrArg (plan.deleteIndexes ++ ·) (filter_congr fun j hj => ?_)
      have hne : j ≠ i := (hlater j hj).ne'
      simp [hne]
    | false =>
      rw [planStep_of_not_keeps hkeeps, if_neg Bool.false_ne_true]
      -- The index is smaller than all that are kept later.
      have hno : ∀ plan', i ∉ (keptLoop policy (i + 1) plan' entries).map Prod.fst :=
        fun plan' hmem => lt_irrefl i (hlater i ((sublist_keptLoop policy _ _ _).mem hmem))
      rw [filter_cons_of_pos (by simpa using hno _)]
      simp

/-- The caps, as the loop keeps them. -/
structure Budget (plan : RetentionPlan) : Prop where
  files : plan.keptFiles ≤ policy.maxFiles
  bytes : plan.keptBytes.toNat ≤ policy.maxTotalBytes.toNat ∨ plan.keptFiles = 1
  none_kept : plan.keptFiles = 0 → plan.keptBytes = 0

theorem Budget.start : Budget policy {} := ⟨Nat.zero_le _, .inl (Nat.zero_le _), fun _ => rfl⟩

variable {policy plan}

/-- No sum of kept bytes saturates. -/
theorem Budget.toNat_keptBytes (h : Budget policy plan) {entry : RecordingFileEntry}
    (hkeeps : keeps policy plan entry = true) :
    (saturatingAdd plan.keptBytes entry.sizeBytes).toNat =
      plan.keptBytes.toNat + entry.sizeBytes.toNat := by
  apply toNat_saturatingAdd
  rcases (keeps_iff.1 hkeeps).2.2 with hzero | hle
  · have hsize := entry.sizeBytes.toNat_lt
    rw [h.none_kept hzero]
    simpa using hsize
  · exact hle.trans_lt policy.maxTotalBytes.toNat_lt

theorem Budget.planStep (h : Budget policy plan) (i : ℕ) (entry : RecordingFileEntry) :
    Budget policy (planStep policy plan i entry) := by
  cases hkeeps : keeps policy plan entry with
  | true =>
    have hsum := h.toNat_keptBytes hkeeps
    obtain ⟨hfiles, -, hbytes⟩ := keeps_iff.1 hkeeps
    rw [planStep_of_keeps hkeeps]
    refine ⟨hfiles, ?_, fun hzero => absurd hzero (Nat.succ_ne_zero _)⟩
    rcases hbytes with hzero | hle
    · exact .inr (congrArg (· + 1) hzero)
    · exact .inl (hsum ▸ hle)
  | false =>
    rw [planStep_of_not_keeps hkeeps]
    exact ⟨h.files, h.bytes, h.none_kept⟩

theorem Budget.planLoop (h : Budget policy plan) (i : ℕ) (entries : List RecordingFileEntry) :
    Budget policy (planLoop policy i plan entries) ∧
      (Recording.planLoop policy i plan entries).keptBytes.toNat =
        plan.keptBytes.toNat + totalBytes ((keptLoop policy i plan entries).map Prod.snd) := by
  induction entries generalizing i plan with
  | nil => exact ⟨h, rfl⟩
  | cons entry entries ih =>
    obtain ⟨hbudget, hsum⟩ := ih (h.planStep i entry) (i + 1)
    refine ⟨hbudget, ?_⟩
    rw [Recording.planLoop, hsum, keptLoop]
    cases hkeeps : keeps policy plan entry with
    | true =>
      rw [planStep_of_keeps hkeeps, if_pos rfl]
      simp only [h.toNat_keptBytes hkeeps, map_cons, totalBytes, sum_cons]
      omega
    | false => rw [planStep_of_not_keeps hkeeps, if_neg Bool.false_ne_true]

variable {plan' : RetentionPlan}

/-- What the loop keeps depends on the files and bytes that are kept already. -/
theorem keeps_congr (hfiles : plan'.keptFiles = plan.keptFiles)
    (hbytes : plan'.keptBytes = plan.keptBytes) (entry : RecordingFileEntry) :
    keeps policy plan' entry = keeps policy plan entry := by
  rw [Bool.eq_iff_iff, keeps_iff, keeps_iff, hfiles, hbytes]

/-- What is kept is kept again, if it is planned for alone. -/
theorem planLoop_keptLoop (hfiles : plan'.keptFiles = plan.keptFiles)
    (hbytes : plan'.keptBytes = plan.keptBytes) (i k : ℕ) (entries : List RecordingFileEntry) :
    (planLoop policy k plan' ((keptLoop policy i plan entries).map Prod.snd)).deleteIndexes =
      plan'.deleteIndexes := by
  induction entries generalizing i k plan plan' with
  | nil => rfl
  | cons entry entries ih =>
    rw [keptLoop]
    cases hkeeps : keeps policy plan entry with
    | true =>
      have hkeeps' : keeps policy plan' entry = true := by
        rw [keeps_congr hfiles hbytes, hkeeps]
      rw [if_pos rfl, map_cons, planLoop, ih]
      · rw [planStep_of_keeps hkeeps']
      · rw [planStep_of_keeps hkeeps, planStep_of_keeps hkeeps', hfiles]
      · rw [planStep_of_keeps hkeeps, planStep_of_keeps hkeeps', hbytes]
    | false =>
      rw [if_neg Bool.false_ne_true]
      apply ih
      · rw [planStep_of_not_keeps hkeeps, hfiles]
      · rw [planStep_of_not_keeps hkeeps, hbytes]

end Loop

/-! ## The plan -/

section Plan

variable (newestFirst : List RecordingFileEntry) (policy : RetentionPolicy)

theorem deleteIndexes_planRetention :
    (planRetention newestFirst policy).deleteIndexes =
      (range newestFirst.length).filter fun j =>
        decide (j ∉ keptIndexes newestFirst policy) := by
  rw [planRetention, deleteIndexes_planLoop, range_eq_range']
  rfl

theorem pairwise_deleteIndexes :
    (planRetention newestFirst policy).deleteIndexes.Pairwise (· < ·) := by
  rw [deleteIndexes_planRetention]
  exact pairwise_lt_range.filter _

/-- Each index is either deleted or kept. -/
theorem perm_indexes :
    ((planRetention newestFirst policy).deleteIndexes ++ keptIndexes newestFirst policy).Perm
      (range newestFirst.length) := by
  have hsub : (keptIndexes newestFirst policy).Sublist (range newestFirst.length) := by
    rw [range_eq_range']
    exact sublist_keptLoop policy 0 {} newestFirst
  have hnodup := hsub.nodup nodup_range
  have hkept : (keptIndexes newestFirst policy).Perm
      ((range newestFirst.length).filter fun j =>
        !decide (j ∉ keptIndexes newestFirst policy)) := by
    rw [perm_ext_iff_of_nodup hnodup (nodup_range.filter _)]
    intro j
    rw [mem_filter]
    refine ⟨fun hj => ⟨hsub.mem hj, by simpa using hj⟩, fun hj => by simpa using hj.2⟩
  rw [deleteIndexes_planRetention]
  exact (hkept.append_left _).trans (filter_append_perm _ _)

/-- The newest file is kept, if any may be. -/
theorem zero_mem_keptIndexes (hfiles : 0 < policy.maxFiles) (hbytes : 0 < policy.maxTotalBytes)
    (hne : newestFirst ≠ []) : 0 ∈ keptIndexes newestFirst policy := by
  obtain ⟨entry, entries, rfl⟩ := exists_cons_of_ne_nil hne
  have hkeeps : keeps policy {} entry = true := keeps_iff.2 ⟨hfiles, hbytes, .inl rfl⟩
  rw [keptIndexes, kept, keptLoop, if_pos hkeeps]
  exact mem_cons_self

end Plan

end WKOpenVR.Common.Recording
