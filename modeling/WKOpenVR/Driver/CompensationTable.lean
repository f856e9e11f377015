import WKOpenVR.InputHealth.PathLearning

/-!
# The compensation table of the driver

The driver keeps the compensations that the overlay has pushed, by device and path
(`inputHealthComp`). A request to disable one takes it out of the table; a request to enable
one replaces it, unless the driver may not compensate the path
(`SetInputHealthCompensation`). So every entry of the table is enabled, and of a device and
a path (`CompensationTable.stored`).
-/

namespace WKOpenVR.InputHealth

/-- `InputHealthCompensationEntry`. -/
structure CompensationEntry (K : Type*) where
  deviceSerialHash : UInt64
  /-- The buffer of `INPUTHEALTH_PATH_LEN` characters. -/
  path : List UInt8
  kind : CompensationKind
  enabled : Bool
  learnedRestOffset : K
  learnedTriggerMin : K
  learnedTriggerMax : K
  learnedDeadzoneRadius : K
  learnedDebounceUs : UInt16

/-- A device and a path, as the driver reads it. -/
abbrev CompensationKey := UInt64 × Path

def CompensationEntry.key {K : Type*} (entry : CompensationEntry K) : CompensationKey :=
  (entry.deviceSerialHash, pathString entry.path)

/-- The driver can hold an entry with the key. -/
def IsStorable (key : CompensationKey) : Prop := key.1 ≠ 0 ∧ key.2 ≠ []

instance (key : CompensationKey) : Decidable (IsStorable key) := inferInstanceAs (Decidable (_ ∧ _))

/-- The compensations the driver holds. -/
structure CompensationTable (K : Type*) where
  entry : CompensationKey → Option (CompensationEntry K)
  stored : ∀ key e, entry key = some e → e.key = key ∧ IsStorable key ∧ e.enabled = true

namespace CompensationTable

variable {K : Type*}

def empty : CompensationTable K := ⟨fun _ => none, fun _ _ h => nomatch h⟩

variable (t : CompensationTable K)

def setInputHealthCompensation (e : CompensationEntry K) : CompensationTable K :=
  if hkey : IsStorable e.key then
    if henabled : e.enabled then
      if (classifyPathFamily e.key.2).allowsDriverCompensation then
        { entry := Function.update t.entry e.key (some e)
          stored key e' h := by
            rcases eq_or_ne key e.key with rfl | hne
            · rw [Function.update_self, Option.some.injEq] at h
              subst h
              exact ⟨rfl, hkey, henabled⟩
            · rw [Function.update_of_ne hne] at h
              exact t.stored key e' h }
      else t
    else
      { entry := Function.update t.entry e.key none
        stored key e' h := by
          rcases eq_or_ne key e.key with rfl | hne
          · rw [Function.update_self] at h
            cases h
          · rw [Function.update_of_ne hne] at h
            exact t.stored key e' h }
  else t

def keys : Set CompensationKey := {key | t.entry key ≠ none}

variable {t} {e : CompensationEntry K}

/-- A request to enable an entry adds at most its key. -/
theorem keys_set_subset : (t.setInputHealthCompensation e).keys ⊆ insert e.key t.keys := by
  intro key hkey
  rcases eq_or_ne key e.key with rfl | hne
  · exact .inl rfl
  · refine .inr ?_
    rw [setInputHealthCompensation] at hkey
    split_ifs at hkey
    · exact fun h => hkey ((Function.update_of_ne hne _ _).trans h)
    · exact hkey
    · exact fun h => hkey ((Function.update_of_ne hne _ _).trans h)
    · exact hkey

/-- A request to disable an entry takes it out of the table. -/
theorem keys_set_disabled (h : e.enabled = false) :
    (t.setInputHealthCompensation e).keys = t.keys \ {e.key} := by
  rw [setInputHealthCompensation]
  by_cases hkey : IsStorable e.key
  · rw [dif_pos hkey, dif_neg (by simp [h])]
    ext key
    rcases eq_or_ne key e.key with rfl | hne
    · simp [keys]
    · simp [keys, hne]
  · -- The driver holds no entry with this key.
    have hnone : e.key ∉ t.keys := by
      intro hmem
      obtain ⟨e', he'⟩ := Option.ne_none_iff_exists'.1 hmem
      exact hkey (t.stored _ _ he').2.1
    rw [dif_neg hkey, Set.sdiff_singleton_eq_self hnone]

end CompensationTable

end WKOpenVR.InputHealth
