import Mathlib.Data.List.Basic

/-!
# Jobs that write to one place

Jobs are started one after another, and each may write a value to a place that they share, at
any time after it was started. If a job writes only while no job that was started later has
written, the place holds the value of the last job that has written (`lastWritten`): this stays
so when a job is started (`lastWritten_concat`), when it goes on without writing
(`lastWritten_set_of_eq`) and when it writes (`lastWritten_set`). Once a job has written, that
value is its own or that of a later job (`lastWritten_append_cons`).
-/

namespace WKOpenVR

variable {J V : Type*} {written : J → Option V} {jobs : List J} {job job' : J} {v : V} {i : ℕ}

/-- The value of the last of the jobs that have written. -/
def lastWritten (written : J → Option V) (jobs : List J) : Option V :=
  (jobs.filterMap written).getLast?

/-- A job that was started has not written yet. -/
theorem lastWritten_concat (h : written job = none) :
    lastWritten written (jobs ++ [job]) = lastWritten written jobs := by
  simp [lastWritten, h]

/-- The jobs before a job, the job, and those after it. -/
theorem eq_take_append_cons_drop (h : jobs[i]? = some job) :
    jobs = jobs.take i ++ job :: jobs.drop (i + 1) ∧
      ∀ job', jobs.set i job' = jobs.take i ++ job' :: jobs.drop (i + 1) := by
  obtain ⟨hi, rfl⟩ := List.getElem?_eq_some_iff.1 h
  refine ⟨?_, ?_⟩
  · rw [← List.drop_eq_getElem_cons hi, List.take_append_drop]
  · intro job'
    rw [List.set_eq_take_append_cons_drop, if_pos hi]

/-- A job goes on, and does not write. -/
theorem lastWritten_set_of_eq (hi : jobs[i]? = some job) (h : written job' = written job) :
    lastWritten written (jobs.set i job') = lastWritten written jobs := by
  obtain ⟨hjobs, hset⟩ := eq_take_append_cons_drop hi
  rw [hset job']
  conv_rhs => rw [hjobs]
  simp only [lastWritten, List.filterMap_append, List.filterMap_cons, h]

/-- A job writes, and no later one has. -/
theorem lastWritten_set (hi : jobs[i]? = some job) (h : written job' = some v)
    (hlater : ∀ k ∈ jobs.drop (i + 1), written k = none) :
    lastWritten written (jobs.set i job') = some v := by
  have hafter : (jobs.drop (i + 1)).filterMap written = [] := List.filterMap_eq_nil_iff.2 hlater
  rw [(eq_take_append_cons_drop hi).2 job']
  simp [lastWritten, h, hafter]

/-- The value is that of a job that has written, or of a later one. -/
theorem lastWritten_append_cons {before after : List J} (h : written job = some v) :
    lastWritten written (before ++ job :: after) = some v ∨
      ∃ k ∈ after, ∃ w, written k = some w ∧
        lastWritten written (before ++ job :: after) = some w := by
  have hjobs : lastWritten written (before ++ job :: after) =
      (v :: after.filterMap written).getLast? := by
    simp only [lastWritten, List.filterMap_append, List.filterMap_cons, h]
    rw [List.getLast?_append_of_ne_nil _ (List.cons_ne_nil _ _)]
  rw [hjobs]
  cases hlast : (after.filterMap written).getLast? with
  | none =>
    rw [List.getLast?_eq_none_iff] at hlast
    rw [hlast]
    exact .inl rfl
  | some w =>
    obtain ⟨k, hk, hw⟩ := List.mem_filterMap.1 (List.mem_of_getLast? hlast)
    refine .inr ⟨k, hk, w, hw, ?_⟩
    rw [List.getLast?_cons, hlast]
    rfl

end WKOpenVR
