import WKOpenVR.Driver.CompensationTable

/-!
# Debounced buttons

The driver forwards an update of a button to the runtime, unless the value changes sooner after
the last change than the debounce time of its compensation (`DetourUpdateBooleanComponent`). Such
an update is dropped: there is no timer, so nothing is forwarded until the next update. A button
whose last update is dropped keeps the value it had (`release_dropped`); otherwise the runtime has
the last value (`lastForwarded_eq_iff`).
-/

namespace WKOpenVR.InputHealth

/-- The fields of `ComponentStats` that decide what is forwarded. -/
structure ComponentStats where
  path : Path
  lastBoolean : Bool := false
  lastCommittedUs : UInt64 := 0

variable {K : Type*}

def shouldSwallowBooleanUpdate (stats : ComponentStats) (entry : CompensationEntry K)
    (newValue : Bool) (nowUs : UInt64) : Bool :=
  entry.kind == .boolean && !isSystemButtonPath stats.path && entry.learnedDebounceUs != 0 &&
    newValue != stats.lastBoolean && stats.lastCommittedUs != 0 &&
    decide (nowUs - stats.lastCommittedUs < entry.learnedDebounceUs.toUInt64)

/-- What the detour of `UpdateBooleanComponent` finds: the configuration, and the entry of
    `LookupInputHealthCompensation` for the component. -/
structure Compensating (K : Type*) where
  masterEnabled : Bool
  diagnosticsOnly : Bool
  entry : Option (CompensationEntry K)

/-- The arguments of `UpdateBooleanComponent`, and the time. -/
structure BooleanUpdate where
  newValue : Bool
  nowUs : UInt64

variable (c : Compensating K) (path : Path)

def Compensating.swallows (stats : ComponentStats) (u : BooleanUpdate) : Bool :=
  c.masterEnabled && !c.diagnosticsOnly &&
    c.entry.any fun entry => shouldSwallowBooleanUpdate stats entry u.newValue u.nowUs

/-- The statistics and the value last forwarded, after one more update. -/
def Compensating.update (s : ComponentStats × Option Bool) (u : BooleanUpdate) :
    ComponentStats × Option Bool :=
  if c.swallows s.1 u then s
  else if c.masterEnabled && u.newValue != s.1.lastBoolean then
    ({ s.1 with lastBoolean := u.newValue, lastCommittedUs := u.nowUs }, some u.newValue)
  else (s.1, some u.newValue)

variable (updates : List BooleanUpdate)

/-- From a component that was just created. -/
def Compensating.run : ComponentStats × Option Bool :=
  updates.foldl c.update ({ path }, none)

variable {c}

theorem of_swallows {stats : ComponentStats} {u : BooleanUpdate} (h : c.swallows stats u = true) :
    c.masterEnabled = true ∧ stats.lastCommittedUs ≠ 0 ∧ u.newValue ≠ stats.lastBoolean := by
  simp only [Compensating.swallows, Bool.and_eq_true, Option.any_eq_true] at h
  obtain ⟨⟨hmaster, -⟩, entry, -, h⟩ := h
  simp only [shouldSwallowBooleanUpdate, Bool.and_eq_true, bne_iff_ne] at h
  exact ⟨hmaster, h.1.2, h.1.1.2⟩

/-- Once a value was committed, it is the one forwarded last. -/
theorem run_forwarded (hmaster : c.masterEnabled = true)
    (h : (c.run path updates).1.lastCommittedUs ≠ 0) :
    (c.run path updates).2 = some (c.run path updates).1.lastBoolean := by
  induction updates using List.reverseRecOn with
  | nil => exact absurd rfl h
  | append_singleton updates u ih =>
    have hrun : c.run path (updates ++ [u]) = c.update (c.run path updates) u :=
      List.foldl_concat ..
    rw [hrun, Compensating.update] at h ⊢
    split_ifs at h ⊢ with hswallow hchange
    · exact ih h
    · rfl
    · simp_all

/-- The last value is the one forwarded last if and only if the last update is not dropped. -/
theorem lastForwarded_eq_iff (c : Compensating K) (path : Path) (updates : List BooleanUpdate)
    (u : BooleanUpdate) : (c.run path (updates ++ [u])).2 = some u.newValue ↔
      c.swallows (c.run path updates).1 u = false := by
  have hrun : c.run path (updates ++ [u]) = c.update (c.run path updates) u := List.foldl_concat ..
  rw [hrun, Compensating.update]
  split_ifs with hswallow hchange
  · obtain ⟨hmaster, hcommitted, hne⟩ := of_swallows hswallow
    rw [run_forwarded path updates hmaster hcommitted]
    simp [hswallow, hne.symm]
  · simp [hswallow]
  · simp [hswallow]

def clickPath : Path := Text.ascii "/input/a/click"

/-- A button with a debounce time of 5 milliseconds is released a millisecond after it is
    pressed. -/
theorem release_dropped :
    (Compensating.run ⟨true, false, some ⟨1, clickPath, .boolean, true, 0, 0, 0, 0, 5000⟩⟩ clickPath
      [⟨true, 1000⟩, ⟨false, 2000⟩] : ComponentStats × Option Bool).2 = some true := by
  decide +kernel

end WKOpenVR.InputHealth
