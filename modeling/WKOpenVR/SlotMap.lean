import Mathlib.Data.Set.Card

/-!
# Finite maps in slots

A finite map can be kept in a fixed number of slots, each of them free or holding one
key with its value. The slots `s` *hold* the map `m` (`SlotMap.Holds`) if the keys in
them, with their values, are those of the map, and no key is in two slots. The map then
has at most as many keys as there are slots, and exactly as many if no slot is free.

Writing a key that is new to a free slot, or a key to the slot it is in, updates the
map (`Holds.insert`); freeing the slot of a key erases it (`Holds.erase`); and changing
the values in the slots changes those of the map (`Holds.map`).
-/

namespace WKOpenVR.SlotMap

open Function Option Set

variable {ι K V : Type*}

/-- The slots `s` hold the map `m`. -/
structure Holds (s : ι → Option (K × V)) (m : K → Option V) : Prop where
  mem_iff : ∀ k v, m k = some v ↔ ∃ i, s i = some (k, v)
  slot_unique : ∀ i j k v w, s i = some (k, v) → s j = some (k, w) → i = j

def keys (m : K → Option V) : Set K := {k | (m k).isSome}

variable {s : ι → Option (K × V)} {m : K → Option V} {i : ι} {k : K} {v : V}

theorem holds_empty (hs : ∀ i, s i = none) : Holds s fun _ => none :=
  ⟨fun k v => by simp [hs], fun i j k v w hi => by simp [hs] at hi⟩

theorem Holds.mem_keys (h : Holds s m) : k ∈ keys m ↔ ∃ i v, s i = some (k, v) := by
  rw [keys, mem_ofPred_eq, isSome_iff_exists, exists_comm]
  exact exists_congr fun v => h.mem_iff k v

theorem Holds.of_slot (h : Holds s m) (hi : s i = some (k, v)) : m k = some v :=
  (h.mem_iff k v).2 ⟨i, hi⟩

/-- The slots that are taken, as many as there are keys. -/
theorem Holds.ncard_keys (h : Holds s m) : (keys m).ncard = {i | (s i).isSome}.ncard := by
  symm
  refine ncard_congr (fun i hi => ((s i).get hi).1) (fun i hi => ?_) (fun i j hi hj hk => ?_)
    fun k hk => ?_
  · exact h.mem_keys.2 ⟨i, ((s i).get hi).2, by simp⟩
  · refine h.slot_unique i j ((s i).get hi).1 ((s i).get hi).2 ((s j).get hj).2 (by simp) ?_
    rw [hk]
    simp
  · obtain ⟨i, v, hi⟩ := h.mem_keys.1 hk
    exact ⟨i, by simp [hi], by simp [hi]⟩

section Card

variable [Fintype ι]

theorem Holds.ncard_keys_le (h : Holds s m) : (keys m).ncard ≤ Fintype.card ι := by
  rw [h.ncard_keys, ← Nat.card_eq_fintype_card, ← ncard_univ]
  exact ncard_le_ncard (subset_univ _)

/-- The map is full if no slot is free. -/
theorem Holds.full_iff (h : Holds s m) : (keys m).ncard = Fintype.card ι ↔ ∀ i, (s i).isSome := by
  rw [h.ncard_keys, ← Nat.card_eq_fintype_card, ← ncard_univ]
  refine ⟨fun heq i => ?_, fun hall => ?_⟩
  · have huniv := eq_of_subset_of_ncard_le (subset_univ {i | (s i).isSome}) heq.ge
    exact huniv.ge (mem_univ i)
  · have huniv : {i | (s i).isSome} = univ := eq_univ_of_forall hall
    rw [huniv]

end Card

section Update

variable [DecidableEq ι] [DecidableEq K]

theorem Holds.insert (h : Holds s m) (hi : ∀ k' w, s i = some (k', w) → k' = k)
    (hk : ∀ j w, s j = some (k, w) → j = i) :
    Holds (update s i (some (k, v))) (update m k (some v)) := by
  -- The keys of the other slots are other keys, with the values they had.
  have hother (k' : K) (hk' : k' ≠ k) (w : V) (j : ι) :
      update s i (some (k, v)) j = some (k', w) ↔ s j = some (k', w) := by
    by_cases hj : j = i
    · subst hj
      simp only [update_self, some.injEq, Prod.mk.injEq]
      exact ⟨fun he => absurd he.1.symm hk', fun he => absurd (hi _ _ he) hk'⟩
    · rw [update_of_ne hj]
  have hself (j : ι) (w : V) (hj : update s i (some (k, v)) j = some (k, w)) : j = i := by
    by_contra hne
    rw [update_of_ne hne] at hj
    exact hne (hk j w hj)
  constructor
  · intro k' w
    by_cases hk' : k' = k
    · subst hk'
      rw [update_self]
      refine ⟨fun he => ⟨i, by rw [update_self, some.inj he]⟩, fun ⟨j, hj⟩ => ?_⟩
      rw [hself j w hj, update_self] at hj
      simpa using hj
    · rw [update_of_ne hk', h.mem_iff]
      exact exists_congr fun j => (hother k' hk' w j).symm
  · intro j j' k' w w' hj hj'
    by_cases hk' : k' = k
    · subst hk'
      rw [hself j w hj, hself j' w' hj']
    · exact h.slot_unique j j' k' w w' ((hother k' hk' w j).1 hj) ((hother k' hk' w' j').1 hj')

theorem Holds.erase {w : V} (h : Holds s m) (hi : s i = some (k, w)) :
    Holds (update s i none) (update m k none) := by
  have hother (k' : K) (w' : V) (j : ι) :
      update s i none j = some (k', w') ↔ k' ≠ k ∧ s j = some (k', w') := by
    by_cases hj : j = i
    · subst hj
      rw [update_self, hi]
      simp only [reduceCtorEq, some.injEq, Prod.mk.injEq, false_iff]
      exact fun he => he.1 he.2.1.symm
    · rw [update_of_ne hj]
      refine ⟨fun hs => ⟨fun hk' => hj ?_, hs⟩, And.right⟩
      subst hk'
      exact h.slot_unique j i k' w' w hs hi
  constructor
  · intro k' w'
    by_cases hk' : k' = k
    · subst hk'
      simp [hother]
    · rw [update_of_ne hk', h.mem_iff]
      exact exists_congr fun j => by simp [hother, hk']
  · intro j j' k' v' w' hj hj'
    exact h.slot_unique j j' k' v' w' ((hother k' v' j).1 hj).2 ((hother k' w' j').1 hj').2

end Update

theorem Holds.map (h : Holds s m) (f : V → V) :
    Holds (fun i => (s i).map (Prod.map id f)) fun k => (m k).map f := by
  have hslot (i : ι) (k : K) (w : V) :
      (s i).map (Prod.map id f) = some (k, w) ↔ ∃ v, s i = some (k, v) ∧ f v = w := by
    simp [map_eq_some_iff, Prod.map]
  constructor
  · intro k w
    simp only [hslot, map_eq_some_iff, h.mem_iff]
    exact ⟨fun ⟨v, ⟨i, hi⟩, hv⟩ => ⟨i, v, hi, hv⟩, fun ⟨i, v, hi, hv⟩ => ⟨v, ⟨i, hi⟩, hv⟩⟩
  · intro i j k v w hi hj
    obtain ⟨v', hi, -⟩ := (hslot i k v).1 hi
    obtain ⟨w', hj, -⟩ := (hslot j k w).1 hj
    exact h.slot_unique i j k v' w' hi hj

end WKOpenVR.SlotMap
