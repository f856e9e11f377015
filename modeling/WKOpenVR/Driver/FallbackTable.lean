import WKOpenVR.Calibration.TransformPayload

/-!
# The fallbacks of the driver

The driver keeps a fallback transform for each of up to eight tracking systems
(`systemFallbacks`), and applies it to the devices of the system that have no transform of
their own. A slot is taken by the first fallback of its system, and never given up: a
fallback is withdrawn by disabling it.
-/

namespace WKOpenVR.Driver

open FloatArith Calibration.ProfileApply

def maxFallbackSlots : ℕ := 8

/-- What is set of a `FallbackTransform`. -/
structure FallbackTransform (K : Type*) where
  enabled : Bool
  translation : Vec3 K
  rotation : Quat K
  scale : K
  recalibrateOnMovement : Bool

/-- A slot that is occupied. -/
structure FallbackSlot (K : Type*) where
  systemName : Name
  tf : FallbackTransform K

/-- The occupied slots, in their order. -/
structure FallbackTable (K : Type*) where
  slots : List (FallbackSlot K)
  nodup : (slots.map FallbackSlot.systemName).Nodup
  length_le : slots.length ≤ maxFallbackSlots

namespace FallbackTable

variable {K : Type*}

def empty : FallbackTable K := ⟨[], List.nodup_nil, Nat.zero_le _⟩

variable (t : FallbackTable K) (name : Name)

/-- The slot of the name, which `FindFallbackSlot` finds, is changed. -/
def modify (f : FallbackTransform K → FallbackTransform K) : FallbackTable K where
  slots := t.slots.map fun slot =>
    if slot.systemName = name then { slot with tf := f slot.tf } else slot
  nodup := by
    have hnames (slot : FallbackSlot K) : (if slot.systemName = name then
        { slot with tf := f slot.tf } else slot).systemName = slot.systemName := by
      split_ifs <;> rfl
    simpa [List.map_map, Function.comp_def, hnames] using t.nodup
  length_le := by simpa using t.length_le

variable [FloatArith K]

/-- `AcquireFallbackSlot`: a free slot is taken, if there is none of the name. -/
def acquire (t : FallbackTable K) (name : Name) : FallbackTable K :=
  if hname : name ∈ t.slots.map FallbackSlot.systemName then t
  else if hfull : t.slots.length < maxFallbackSlots then
    { slots := t.slots ++ [⟨name, ⟨false, .zero, .identity, lit 1, false⟩⟩]
      nodup := by
        rw [List.map_append, List.nodup_append]
        refine ⟨t.nodup, List.nodup_singleton _, fun n hn m hm => ?_⟩
        rw [List.map_singleton, List.mem_singleton] at hm
        rintro rfl
        obtain rfl : n = name := hm
        exact hname hn
      length_le := by simpa using hfull }
  else t

/-- `SetTrackingSystemFallback`. If no slot is left, a new fallback is ignored. -/
def setTrackingSystemFallback (t : FallbackTable K) (newFallback : SetTrackingSystemFallback K) :
    FallbackTable K :=
  let name := readName newFallback.systemName
  if name = [] then t
  else if !newFallback.enabled then t.modify name fun tf => { tf with enabled := false }
  else
    (t.acquire name).modify name fun _ =>
      ⟨true, newFallback.translation, newFallback.rotation, newFallback.scale,
        newFallback.recalibrateOnMovement⟩

def Enabled : Prop :=
  ∃ slot ∈ t.slots, slot.systemName = name ∧ slot.tf.enabled = true

instance (t : FallbackTable K) (name : Name) : Decidable (t.Enabled name) :=
  inferInstanceAs (Decidable (∃ slot ∈ t.slots, _ ∧ _))

omit [FloatArith K] in
theorem not_enabled_empty : ¬(empty : FallbackTable K).Enabled name := by
  rintro ⟨slot, hslot, -⟩
  exact List.not_mem_nil hslot

variable {t} {n : Name}

omit [FloatArith K] in
/-- What was enabled of the name before, and is not turned off, or another one. -/
theorem enabled_of_modify {name : Name}
    {f : FallbackTransform K → FallbackTransform K} (h : (t.modify name f).Enabled n) :
    (n = name ∧ ∃ tf, (f tf).enabled = true) ∨ n ≠ name ∧ t.Enabled n := by
  obtain ⟨slot', hslot', hname, henabled⟩ := h
  obtain ⟨slot, hslot, rfl⟩ := List.mem_map.1 hslot'
  split_ifs at hname henabled with heq
  · exact .inl ⟨hname ▸ heq, slot.tf, henabled⟩
  · exact .inr ⟨hname ▸ heq, slot, hslot, hname, henabled⟩

/-- A slot that is taken is not enabled yet. -/
theorem enabled_of_acquire {name : Name} (h : (t.acquire name).Enabled n) : t.Enabled n := by
  rw [acquire] at h
  split_ifs at h
  · exact h
  · obtain ⟨slot, hslot, hname, henabled⟩ := h
    rcases List.mem_append.1 hslot with hold | hnew
    · exact ⟨slot, hold, hname, henabled⟩
    · obtain rfl := List.mem_singleton.1 hnew
      cases henabled
  · exact h

/-- After a fallback is set, the systems that are enabled are those that were before, and
    its own, which is only if the fallback is. -/
theorem enabled_of_set {newFallback : SetTrackingSystemFallback K}
    (hname : readName newFallback.systemName ≠ [])
    (h : (t.setTrackingSystemFallback newFallback).Enabled n) :
    (n = readName newFallback.systemName ∧ newFallback.enabled = true) ∨
      n ≠ readName newFallback.systemName ∧ t.Enabled n := by
  rw [setTrackingSystemFallback, if_neg hname] at h
  split_ifs at h with henabled
  · rcases enabled_of_modify h with ⟨-, tf, htf⟩ | hother
    · cases htf
    · exact .inr hother
  · rcases enabled_of_modify h with ⟨rfl, -⟩ | ⟨hne, hother⟩
    · exact .inl ⟨rfl, by simpa using henabled⟩
    · exact .inr ⟨hne, enabled_of_acquire hother⟩

end FallbackTable

end WKOpenVR.Driver
