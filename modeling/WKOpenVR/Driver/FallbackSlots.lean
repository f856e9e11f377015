import WKOpenVR.Driver.FallbackTable

/-!
# The slots of the fallbacks

The fallbacks of the driver are in an array of eight slots. The name of a tracking system is in
a buffer of its slot, padded with NULs, and a name is looked up by a comparison of as many bytes
as it has, with a NUL after them (`FindFallbackSlot`). A name is thus found in its own slot, and
not in the slot of a name that it begins, or that begins it (`matchesName_raw_iff`).

* `Represents`: the array is the table of occupied slots, padded, and then the free slots, which
  each request preserves (`Represents.setFallbackSlots`);
* `lookupFallback_run`: what is looked up after any requests. The slots belong to the first eight
  names that are enabled, and they are never given up, so a name that comes later is not served,
  even if all others have been disabled. A name that has a slot is served with its last request.
-/

namespace WKOpenVR.Driver

open Text FloatArith Calibration.ProfileApply List

variable {K : Type*}

/-- `FallbackSlot`. -/
structure RawSlot (K : Type*) where
  systemName : List UInt8
  tf : FallbackTransform K
  occupied : Bool

/-- The comparison of `FindFallbackSlot`. -/
def RawSlot.matchesName (slot : RawSlot K) (name : List UInt8) : Bool :=
  slot.occupied && decide (slot.systemName.take name.length = name) &&
    (decide (name.length = maxTrackingSystemNameLen) ||
      decide (slot.systemName[name.length]? = some 0))

/-- The index of the slot that `FindFallbackSlot` returns. -/
def findFallbackSlot (slots : List (RawSlot K)) (name : List UInt8) : Option ℕ :=
  if name.length = 0 ∨ maxTrackingSystemNameLen < name.length then none
  else slots.findIdx? fun slot => slot.matchesName name

section Slots

variable [FloatArith K]

/-- `FallbackTransform{}`. -/
def FallbackTransform.default : FallbackTransform K := ⟨false, .zero, .identity, lit 1, false⟩

variable (slots : List (RawSlot K)) (name : List UInt8)

/-- The slots, and the index of the one that `AcquireFallbackSlot` returns. -/
def acquireFallbackSlot : Option (List (RawSlot K) × ℕ) :=
  if name.length = 0 ∨ maxTrackingSystemNameLen < name.length then none
  else
    match findFallbackSlot slots name with
    | some i => some (slots, i)
    | none =>
      match slots.findIdx? fun slot => !slot.occupied with
      | some i =>
        some (slots.set i ⟨name.rightpad maxTrackingSystemNameLen 0, .default, true⟩, i)
      | none => none

variable (newFallback : SetTrackingSystemFallback K)

/-- The transform of a fallback that is enabled. -/
def fallbackTransform : FallbackTransform K :=
  ⟨true, newFallback.translation, newFallback.rotation, newFallback.scale,
    newFallback.recalibrateOnMovement⟩

/-- What `SetTrackingSystemFallback` does to the slots. -/
def setFallbackSlots : List (RawSlot K) :=
  let name := readName newFallback.systemName
  if name = [] then slots
  else if !newFallback.enabled then
    match findFallbackSlot slots name with
    | some i => slots.modify i fun slot => { slot with tf := { slot.tf with enabled := false } }
    | none => slots
  else
    match acquireFallbackSlot slots name with
    | none => slots
    | some (slots, i) =>
      slots.modify i fun slot => { slot with tf := fallbackTransform newFallback }

def initialSlots : List (RawSlot K) :=
  List.replicate maxFallbackSlots ⟨List.replicate maxTrackingSystemNameLen 0, .default, false⟩

/-- The fallback that is applied to the devices of a system, if there is one. -/
def lookupFallback : Option (FallbackTransform K) :=
  (findFallbackSlot slots name).bind fun i => slots[i]?.bind fun slot =>
    if slot.tf.enabled then some slot.tf else none

end Slots

/-! ## Names in buffers -/

/-- A name that a buffer can have. -/
structure ValidName (name : Name) : Prop where
  ne_nil : name ≠ []
  length_le : name.length ≤ maxTrackingSystemNameLen
  no_nul : 0 ∉ name

/-- A slot of the table, in the array. -/
def FallbackSlot.raw (slot : FallbackSlot K) : RawSlot K :=
  ⟨slot.systemName.rightpad maxTrackingSystemNameLen 0, slot.tf, true⟩

/-- A name is found in its own slot only, not in the one of a shorter or longer name. -/
theorem matchesName_raw_iff {slot : FallbackSlot K} (hslot : ValidName slot.systemName)
    {name : Name} (hname : ValidName name) :
    slot.raw.matchesName name = true ↔ slot.systemName = name := by
  have hbuffer : slot.raw.systemName =
      slot.systemName ++ replicate (maxTrackingSystemNameLen - slot.systemName.length) 0 := rfl
  have hoccupied : slot.raw.occupied = true := rfl
  simp only [RawSlot.matchesName, hoccupied, Bool.true_and, Bool.and_eq_true, Bool.or_eq_true,
    decide_eq_true_eq, hbuffer]
  constructor
  · rintro ⟨htake, hend⟩
    rcases lt_trichotomy name.length slot.systemName.length with hlt | heq | hgt
    · -- The name begins the one of the slot, which goes on with a byte that is not NUL.
      rcases hend with hfull | hnul
      · have hle := hslot.length_le
        omega
      · rw [getElem?_append_left hlt] at hnul
        exact absurd (mem_of_getElem? hnul) hslot.no_nul
    · rw [heq, take_left] at htake
      exact htake
    · -- The name goes on with the padding.
      have hmem : (0 : UInt8) ∈ name := by
        rw [← htake, take_append, take_of_length_le hgt.le, mem_append]
        right
        rw [take_replicate, mem_replicate]
        have hle := hname.length_le
        exact ⟨by omega, rfl⟩
      exact absurd hmem hname.no_nul
  · rintro rfl
    refine ⟨take_left, ?_⟩
    by_cases hfull : slot.systemName.length = maxTrackingSystemNameLen
    · exact .inl hfull
    · right
      have hle := hname.length_le
      rw [getElem?_append_right le_rfl, Nat.sub_self, getElem?_replicate,
        if_pos (by omega)]

/-! ## The array and the table -/

/-- The array has the occupied slots of the table, and then free ones. -/
structure Represents (slots : List (RawSlot K)) (t : FallbackTable K) : Prop where
  exists_free : ∃ free, slots = t.slots.map FallbackSlot.raw ++ free ∧
    (∀ slot ∈ free, slot.occupied = false) ∧ t.slots.length + free.length = maxFallbackSlots
  valid : ∀ slot ∈ t.slots, ValidName slot.systemName

section Find

variable {slots : List (RawSlot K)} {t : FallbackTable K} {name : Name}

/-- A name is found where the table has it. -/
theorem Represents.findFallbackSlot_eq (h : Represents slots t) (hnul : 0 ∉ name) :
    findFallbackSlot slots name = t.slots.findIdx? fun slot => decide (slot.systemName = name) := by
  obtain ⟨⟨free, rfl, hfree, -⟩, hvalid⟩ := h
  unfold findFallbackSlot
  split_ifs with hlength
  · -- No slot has a name that is empty or too long.
    symm
    rw [findIdx?_eq_none_iff]
    intro slot hslot
    have hslot := hvalid slot hslot
    refine decide_eq_false ?_
    rintro rfl
    rcases hlength with hzero | hlong
    · exact hslot.ne_nil (eq_nil_of_length_eq_zero hzero)
    · exact absurd hslot.length_le (by omega)
  · have hname : ValidName name := by
      refine ⟨?_, by omega, hnul⟩
      rintro rfl
      exact hlength (.inl rfl)
    have hnone : free.findIdx? (fun slot => slot.matchesName name) = none := by
      rw [findIdx?_eq_none_iff]
      intro slot hslot
      simp [RawSlot.matchesName, hfree slot hslot]
    have hmap : ∀ l : List (FallbackSlot K), (∀ slot ∈ l, ValidName slot.systemName) →
        (l.map FallbackSlot.raw).findIdx? (fun slot => slot.matchesName name) =
          l.findIdx? fun slot => decide (slot.systemName = name) := by
      intro l hl
      induction l with
      | nil => rfl
      | cons slot l ih =>
        have hmatch : slot.raw.matchesName name = decide (slot.systemName = name) := by
          rw [Bool.eq_iff_iff, decide_eq_true_eq]
          exact matchesName_raw_iff (hl slot mem_cons_self) hname
        rw [map_cons, findIdx?_cons, findIdx?_cons, hmatch,
          ih fun slot hslot => hl slot (mem_cons_of_mem _ hslot)]
    rw [findIdx?_append, hmap _ hvalid, hnone]
    simp

/-- The slot of a name is changed in the array as in the table. -/
theorem Represents.modify (h : Represents slots t) {i : ℕ}
    (hi : (t.slots.findIdx? fun slot => decide (slot.systemName = name)) = some i)
    (f : FallbackTransform K → FallbackTransform K) :
    Represents (slots.modify i fun slot => { slot with tf := f slot.tf }) (t.modify name f) := by
  obtain ⟨⟨free, rfl, hfree, hlength⟩, hvalid⟩ := h
  refine ⟨⟨free, ?_, hfree, by simpa [FallbackTable.modify] using hlength⟩, ?_⟩
  · have hmodify : ∀ (l : List (FallbackSlot K)) (i : ℕ),
        (l.map FallbackSlot.systemName).Nodup →
        (l.findIdx? fun slot => decide (slot.systemName = name)) = some i →
        (l.map FallbackSlot.raw ++ free).modify i (fun slot => { slot with tf := f slot.tf }) =
          (l.map fun slot => if slot.systemName = name then { slot with tf := f slot.tf }
            else slot).map FallbackSlot.raw ++ free := by
      intro l
      induction l with
      | nil => intro i _ hi; cases hi
      | cons slot l ih =>
        intro i hnodup hi
        rw [map_cons, nodup_cons] at hnodup
        rw [findIdx?_cons] at hi
        by_cases hname : slot.systemName = name
        · -- The first slot is the one of the name, and there is no other.
          obtain rfl : 0 = i := by simpa [hname] using hi
          have hother : ∀ slot' ∈ l, slot'.systemName ≠ name := by
            rintro slot' hslot' rfl
            exact hnodup.1 (hname ▸ mem_map_of_mem hslot')
          have hrest : (l.map fun slot => if slot.systemName = name then
              { slot with tf := f slot.tf } else slot) = l := by
            rw [map_congr_left fun slot' hslot' => if_neg (hother slot' hslot'), map_id']
          simp only [map_cons, if_pos hname, hrest]
          rfl
        · obtain ⟨j, hj, rfl⟩ : ∃ j, (l.findIdx? fun slot => decide (slot.systemName = name)) =
              some j ∧ j + 1 = i := by
            simpa [hname] using hi
          have ih := ih j hnodup.2 hj
          simp only [map_cons, if_neg hname, cons_append, modify_succ_cons, ih]
    exact hmodify t.slots i t.nodup hi
  · intro slot hslot
    obtain ⟨slot', hslot', rfl⟩ := mem_map.1 hslot
    split_ifs with hname
    · exact hvalid slot' hslot'
    · exact hvalid slot' hslot'

/-- Without a slot of the name nothing is changed. -/
theorem FallbackTable.modify_of_not_mem (hname : name ∉ t.slots.map FallbackSlot.systemName)
    (f : FallbackTransform K → FallbackTransform K) : t.modify name f = t := by
  have hslots : (t.slots.map fun slot => if slot.systemName = name then
      { slot with tf := f slot.tf } else slot) = t.slots := by
    have hother : ∀ slot ∈ t.slots, slot.systemName ≠ name := by
      rintro slot hslot rfl
      exact hname (mem_map_of_mem hslot)
    rw [map_congr_left fun slot hslot => if_neg (hother slot hslot), map_id']
  cases t
  simpa [FallbackTable.modify] using hslots

theorem findIdx?_eq_none_iff_not_mem :
    (t.slots.findIdx? fun slot => decide (slot.systemName = name)) = none ↔
      name ∉ t.slots.map FallbackSlot.systemName := by
  rw [findIdx?_eq_none_iff]
  simp [eq_comm]

end Find

section Simulation

variable [FloatArith K] {slots : List (RawSlot K)} {t : FallbackTable K}

/-- A request, with its buffer. -/
abbrev FallbackRequest (K : Type*) :=
  {r : SetTrackingSystemFallback K // r.systemName.length = maxTrackingSystemNameLen}

def FallbackRequest.name (r : FallbackRequest K) : Name := readName r.1.systemName

omit [FloatArith K] in
theorem FallbackRequest.valid {r : FallbackRequest K} (hne : r.name ≠ []) : ValidName r.name := by
  refine ⟨hne, ?_, ?_⟩
  · rw [← r.2]
    exact (takeWhile_sublist _).length_le
  · intro hmem
    have hnul := mem_takeWhile_imp hmem
    simp at hnul

/-- A free slot is taken in the array as in the table. -/
theorem Represents.acquire_free (h : Represents slots t) {name : Name} (hname : ValidName name)
    (hnew : name ∉ t.slots.map FallbackSlot.systemName) :
    match slots.findIdx? fun slot => !slot.occupied with
    | some i =>
      Represents (slots.set i ⟨name.rightpad maxTrackingSystemNameLen 0, .default, true⟩)
          (t.acquire name) ∧
        ((t.acquire name).slots.findIdx? fun slot => decide (slot.systemName = name)) = some i
    | none => t.acquire name = t := by
  obtain ⟨⟨free, rfl, hfree, hlength⟩, hvalid⟩ := h
  have hoccupied : (t.slots.map FallbackSlot.raw).findIdx? (fun slot => !slot.occupied) = none := by
    rw [findIdx?_eq_none_iff]
    intro slot hslot
    obtain ⟨slot', -, rfl⟩ := mem_map.1 hslot
    rfl
  rw [findIdx?_append, hoccupied, Option.none_or]
  cases free with
  | nil =>
    -- The table is full.
    have hfull : ¬t.slots.length < maxFallbackSlots := by simpa using hlength.ge
    simp [FallbackTable.acquire, hnew, hfull]
  | cons slot free =>
    have hroom : t.slots.length < maxFallbackSlots := by
      rw [length_cons] at hlength
      omega
    have hacquire : (t.acquire name).slots = t.slots ++ [⟨name, .default⟩] := by
      simp only [FallbackTable.acquire, dif_neg hnew, dif_pos hroom]
      rfl
    have hfirst : (slot :: free).findIdx? (fun slot => !slot.occupied) = some 0 := by
      simp [findIdx?_cons, hfree slot mem_cons_self]
    simp only [hfirst, Option.map_some, length_map, Nat.zero_add]
    constructor
    · refine ⟨⟨free, ?_, fun slot' hslot' => hfree slot' (mem_cons_of_mem _ hslot'), ?_⟩, ?_⟩
      · rw [hacquire, set_append_right _ _ (by simp)]
        simp [FallbackSlot.raw]
      · rw [hacquire, length_append, length_singleton, ← hlength, length_cons]
        omega
      · intro slot' hslot'
        rw [hacquire, mem_append, mem_singleton] at hslot'
        rcases hslot' with hslot' | rfl
        · exact hvalid slot' hslot'
        · exact hname
    · rw [hacquire, findIdx?_append, findIdx?_eq_none_iff_not_mem.2 hnew]
      simp [findIdx?_cons]

/-- A request does to the array what it does to the table. -/
theorem Represents.setFallbackSlots (h : Represents slots t) (r : FallbackRequest K) :
    Represents (setFallbackSlots slots r.1) (t.setTrackingSystemFallback r.1) := by
  unfold Driver.setFallbackSlots FallbackTable.setTrackingSystemFallback
  by_cases hne : readName r.1.systemName = []
  · simpa only [if_pos hne] using h
  have hvalid : ValidName (readName r.1.systemName) := FallbackRequest.valid (r := r) hne
  have hfind := h.findFallbackSlot_eq hvalid.no_nul
  simp only [if_neg hne]
  split_ifs with henabled
  · -- The fallback is disabled.
    rw [hfind]
    cases hidx :
      t.slots.findIdx? fun slot => decide (slot.systemName = readName r.1.systemName) with
    | none =>
      rw [FallbackTable.modify_of_not_mem (findIdx?_eq_none_iff_not_mem.1 hidx)]
      exact h
    | some i => exact h.modify hidx fun tf => { tf with enabled := false }
  · have hlength : ¬((readName r.1.systemName).length = 0 ∨
        maxTrackingSystemNameLen < (readName r.1.systemName).length) := by
      rintro (hzero | hlong)
      · exact hne (eq_nil_of_length_eq_zero hzero)
      · exact absurd hvalid.length_le (by omega)
    rw [acquireFallbackSlot, if_neg hlength, hfind]
    cases hidx :
      t.slots.findIdx? fun slot => decide (slot.systemName = readName r.1.systemName) with
    | some i =>
      have hmem : readName r.1.systemName ∈ t.slots.map FallbackSlot.systemName := by
        by_contra hnot
        rw [findIdx?_eq_none_iff_not_mem.2 hnot] at hidx
        cases hidx
      have hacquire : t.acquire (readName r.1.systemName) = t := dif_pos hmem
      rw [hacquire]
      exact h.modify hidx fun _ => fallbackTransform r.1
    | none =>
      have hnew := findIdx?_eq_none_iff_not_mem.1 hidx
      have hacquire := h.acquire_free hvalid hnew
      cases hfree : slots.findIdx? fun slot => !slot.occupied with
      | none =>
        simp only [hfree] at hacquire ⊢
        rw [hacquire, FallbackTable.modify_of_not_mem hnew]
        exact h
      | some i =>
        simp only [hfree] at hacquire ⊢
        exact hacquire.1.modify hacquire.2 fun _ => fallbackTransform r.1

end Simulation

/-! ## Requests in a row -/

section Run

variable (requests : List (FallbackRequest K))

/-- The names that have been enabled, in the order of their first request that does. -/
def enabledNames : List Name :=
  requests.foldl (fun names r =>
    if r.name ≠ [] ∧ r.1.enabled = true ∧ names.contains r.name = false then names ++ [r.name]
    else names) []

def lastRequest (name : Name) : Option (FallbackRequest K) :=
  requests.reverse.find? fun r => decide (r.name = name)

/-- The transform that the last request for a name asks for. -/
def lastEnabled (name : Name) : Option (FallbackTransform K) :=
  (lastRequest requests name).bind fun r =>
    if r.1.enabled then some (fallbackTransform r.1) else none

variable {requests} {r : FallbackRequest K} {name : Name}

theorem lastRequest_concat :
    lastRequest (requests ++ [r]) name =
      if r.name = name then some r else lastRequest requests name := by
  rw [lastRequest, reverse_concat, find?_cons]
  split <;> simp_all [lastRequest]

theorem enabledNames_concat :
    enabledNames (requests ++ [r]) =
      if r.name ≠ [] ∧ r.1.enabled = true ∧ r.name ∉ enabledNames requests then
        enabledNames requests ++ [r.name]
      else enabledNames requests := by
  rw [enabledNames, foldl_concat, ← enabledNames]
  simp only [← Bool.not_eq_true, contains_iff_mem]

/-- The table after requests: the slots belong to the names that were enabled first, and each
    has what the last request for its name asked for. -/
structure Serves (requests : List (FallbackRequest K)) (t : FallbackTable K) : Prop where
  names : t.slots.map FallbackSlot.systemName = (enabledNames requests).take maxFallbackSlots
  last : ∀ slot ∈ t.slots, ∃ r, lastRequest requests slot.systemName = some r ∧
    if r.1.enabled = true then slot.tf = fallbackTransform r.1 else slot.tf.enabled = false

theorem FallbackTable.map_modify (t : FallbackTable K) (name : Name)
    (f : FallbackTransform K → FallbackTransform K) :
    (t.modify name f).slots.map FallbackSlot.systemName = t.slots.map FallbackSlot.systemName := by
  rw [FallbackTable.modify, map_map]
  refine map_congr_left fun slot _ => ?_
  simp only [Function.comp_apply]
  split_ifs <;> rfl

variable {t : FallbackTable K}

/-- A request for a name that has a slot. -/
theorem Serves.modify (hnames : t.slots.map FallbackSlot.systemName =
      (enabledNames (requests ++ [r])).take maxFallbackSlots)
    (hlast : ∀ slot ∈ t.slots, slot.systemName ≠ r.name →
      ∃ r, lastRequest requests slot.systemName = some r ∧
        if r.1.enabled = true then slot.tf = fallbackTransform r.1 else slot.tf.enabled = false)
    {f : FallbackTransform K → FallbackTransform K}
    (hf : ∀ tf, if r.1.enabled = true then f tf = fallbackTransform r.1
      else (f tf).enabled = false) : Serves (requests ++ [r]) (t.modify r.name f) := by
  refine ⟨(t.map_modify r.name f).trans hnames, ?_⟩
  intro slot hslot
  obtain ⟨slot', hslot', rfl⟩ := mem_map.1 hslot
  by_cases hname : slot'.systemName = r.name
  · rw [if_pos hname, lastRequest_concat, if_pos hname.symm]
    exact ⟨r, rfl, hf slot'.tf⟩
  · rw [if_neg hname, lastRequest_concat, if_neg (Ne.symm hname)]
    exact hlast slot' hslot' hname

theorem ne_nil_of_mem_enabledNames (h : name ∈ enabledNames requests) : name ≠ [] := by
  induction requests using reverseRecOn with
  | nil => cases h
  | append_singleton requests r ih =>
    rw [enabledNames_concat] at h
    split_ifs at h with hr
    · exact (mem_append.1 h).elim ih fun hname => mem_singleton.1 hname ▸ hr.1
    · exact ih h

/-- The names that have slots, after one more request. -/
theorem take_enabledNames_concat (hdone : r.name = [] ∨ r.1.enabled = false ∨
      r.name ∈ enabledNames requests ∨ maxFallbackSlots ≤ (enabledNames requests).length) :
    (enabledNames (requests ++ [r])).take maxFallbackSlots =
      (enabledNames requests).take maxFallbackSlots := by
  rw [enabledNames_concat]
  split_ifs with hr
  · obtain ⟨hne, henabled, hnew⟩ := hr
    rcases hdone with h | h | h | h
    · exact absurd h hne
    · rw [h] at henabled
      cases henabled
    · exact absurd h hnew
    · exact take_append_of_le_length h
  · rfl

variable [FloatArith K]

/-- A slot is taken by a name that comes in time. -/
theorem Serves.acquire {t : FallbackTable K} (h : Serves requests t) (hne : r.name ≠ [])
    (henabled : r.1.enabled = true) :
    (t.acquire r.name).slots.map FallbackSlot.systemName =
        (enabledNames (requests ++ [r])).take maxFallbackSlots ∧
      ∀ slot ∈ (t.acquire r.name).slots, slot.systemName ≠ r.name → slot ∈ t.slots := by
  have hlength : t.slots.length = min maxFallbackSlots (enabledNames requests).length := by
    rw [← length_take, ← h.names, length_map]
  rw [FallbackTable.acquire]
  split_ifs with hmem hroom
  · have hmem' : r.name ∈ enabledNames requests := mem_of_mem_take (h.names ▸ hmem)
    rw [take_enabledNames_concat (.inr (.inr (.inl hmem')))]
    exact ⟨h.names, fun slot hslot _ => hslot⟩
  · -- All names so far have a slot.
    have hall : (enabledNames requests).take maxFallbackSlots = enabledNames requests :=
      take_of_length_le (by omega)
    have hnew : r.name ∉ enabledNames requests := by
      rw [← hall, ← h.names]
      exact hmem
    rw [enabledNames_concat, if_pos ⟨hne, henabled, hnew⟩]
    constructor
    · rw [take_of_length_le (by rw [length_append, length_singleton]; omega),
        map_append, h.names, hall]
      rfl
    · intro slot hslot hslotName
      rcases mem_append.1 hslot with hslot | hslot
      · exact hslot
      · rw [mem_singleton.1 hslot] at hslotName
        exact absurd rfl hslotName
  · rw [take_enabledNames_concat (.inr (.inr (.inr (by omega))))]
    exact ⟨h.names, fun slot hslot _ => hslot⟩

theorem Serves.set {t : FallbackTable K} (h : Serves requests t) (r : FallbackRequest K) :
    Serves (requests ++ [r]) (t.setTrackingSystemFallback r.1) := by
  unfold FallbackTable.setTrackingSystemFallback
  by_cases hne : r.name = []
  · -- A request without a name is ignored, and no slot has the empty name.
    have hread : readName r.1.systemName = [] := hne
    simp only [if_pos hread]
    refine ⟨h.names.trans (take_enabledNames_concat (.inl hne)).symm, ?_⟩
    intro slot hslot
    have hmem : slot.systemName ∈ (enabledNames requests).take maxFallbackSlots :=
      h.names ▸ mem_map_of_mem hslot
    have hslotName := ne_nil_of_mem_enabledNames (mem_of_mem_take hmem)
    rw [lastRequest_concat, if_neg (hne ▸ hslotName.symm)]
    exact h.last slot hslot
  have hread : readName r.1.systemName ≠ [] := hne
  simp only [if_neg hread]
  split_ifs with henabled
  · have henabled : r.1.enabled = false := by simpa using henabled
    refine Serves.modify (h.names.trans (take_enabledNames_concat (.inr (.inl henabled))).symm)
      (fun slot hslot _ => h.last slot hslot) fun tf => ?_
    simp [henabled]
  · have henabled : r.1.enabled = true := by simpa using henabled
    obtain ⟨hnames, hold⟩ := h.acquire hne henabled
    refine Serves.modify hnames (fun slot hslot hname => h.last slot (hold slot hslot hname))
      fun tf => ?_
    rw [if_pos henabled]
    rfl

def runFallbacks (requests : List (FallbackRequest K)) : List (RawSlot K) :=
  requests.foldl (fun slots r => setFallbackSlots slots r.1) initialSlots

/-- The array after requests has the table, which serves them. -/
theorem exists_represents_run (requests : List (FallbackRequest K)) :
    ∃ t, Represents (runFallbacks requests) t ∧ Serves requests t := by
  induction requests using reverseRecOn with
  | nil =>
    refine ⟨.empty, ⟨⟨initialSlots, rfl, ?_, rfl⟩, ?_⟩, rfl, ?_⟩
    · intro slot hslot
      rw [eq_of_mem_replicate hslot]
    · intro slot hslot
      cases hslot
    · intro slot hslot
      cases hslot
  | append_singleton requests r ih =>
    obtain ⟨t, hrep, hserves⟩ := ih
    refine ⟨_, ?_, hserves.set r⟩
    rw [runFallbacks, foldl_concat]
    exact hrep.setFallbackSlots r

omit [FloatArith K] in
/-- What is looked up in an array that has a table. -/
theorem Represents.lookupFallback_eq {slots : List (RawSlot K)} {t : FallbackTable K}
    (h : Represents slots t) (hnul : 0 ∉ name) :
    lookupFallback slots name = (t.slots.find? fun slot => decide (slot.systemName = name)).bind
      fun slot => if slot.tf.enabled then some slot.tf else none := by
  rw [lookupFallback, h.findFallbackSlot_eq hnul, find?_eq_bind_findIdx?_getElem?]
  obtain ⟨⟨free, rfl, -⟩, -⟩ := h
  cases hidx : t.slots.findIdx? fun slot => decide (slot.systemName = name) with
  | none => rfl
  | some i =>
    obtain ⟨hi, -⟩ := findIdx?_eq_some_iff_getElem.1 hidx
    have hget : (t.slots.map FallbackSlot.raw ++ free)[i]? = some (t.slots[i]).raw := by
      rw [getElem?_append_left (by simpa using hi), getElem?_map,
        getElem?_eq_getElem hi]
      rfl
    simp only [Option.bind_some, hget, getElem?_eq_getElem hi]
    rfl

omit [FloatArith K] in
/-- What is looked up in a table that serves requests. -/
theorem Serves.find (h : Serves requests t) :
    ((t.slots.find? fun slot => decide (slot.systemName = name)).bind
      fun slot => if slot.tf.enabled then some slot.tf else none) =
      if name ∈ (enabledNames requests).take maxFallbackSlots then lastEnabled requests name
      else none := by
  rw [← h.names]
  cases hfind : t.slots.find? fun slot => decide (slot.systemName = name) with
  | none =>
    have hnot : name ∉ t.slots.map FallbackSlot.systemName := by
      rw [find?_eq_none] at hfind
      simpa [eq_comm] using hfind
    rw [if_neg hnot]
    rfl
  | some slot =>
    have hslot := mem_of_find?_eq_some hfind
    obtain rfl : slot.systemName = name := by simpa using find?_some hfind
    obtain ⟨r, hr, htf⟩ := h.last slot hslot
    rw [if_pos (mem_map_of_mem hslot), lastEnabled, hr, Option.bind_some, Option.bind_some]
    by_cases henabled : r.1.enabled = true
    · rw [if_pos henabled] at htf ⊢
      rw [htf]
      rfl
    · rw [if_neg henabled] at htf ⊢
      rw [htf]
      rfl

theorem lookupFallback_run (requests : List (FallbackRequest K)) (hnul : 0 ∉ name) :
    lookupFallback (runFallbacks requests) name =
      if name ∈ (enabledNames requests).take maxFallbackSlots then lastEnabled requests name
      else none := by
  obtain ⟨t, hrep, hserves⟩ := exists_represents_run requests
  rw [hrep.lookupFallback_eq hnul, hserves.find]

omit [FloatArith K] in
/-- A name comes in time if fewer than eight other names have been enabled. -/
theorem mem_take_enabledNames (hne : r.name ≠ []) (henabled : r.1.enabled = true)
    (hothers : ((enabledNames requests).filter fun n => decide (n ≠ r.name)).length <
      maxFallbackSlots) : r.name ∈ (enabledNames (requests ++ [r])).take maxFallbackSlots := by
  have hprefix : ∀ names : List Name, r.name ∈ names →
      (names.filter fun n => decide (n ≠ r.name)).length < maxFallbackSlots →
      r.name ∈ names.take maxFallbackSlots := by
    intro names hmem hlength
    -- The names before the first occurrence are others.
    obtain ⟨before, after, rfl, hbefore⟩ := eq_append_cons_of_mem hmem
    have hfilter : before.filter (fun n => decide (n ≠ r.name)) = before := by
      rw [filter_eq_self]
      intro n hn
      exact decide_eq_true (ne_of_mem_of_not_mem hn hbefore)
    rw [filter_append, hfilter, length_append] at hlength
    rw [take_append, take_of_length_le (by omega), mem_append]
    right
    obtain ⟨k, hk⟩ : ∃ k, maxFallbackSlots - before.length = k + 1 :=
      Nat.exists_eq_add_one.2 (by omega)
    rw [hk, take_succ_cons]
    exact mem_cons_self
  rw [enabledNames_concat]
  split_ifs with hr
  · refine hprefix _ (mem_append_right _ (mem_singleton_self _)) ?_
    rw [filter_append]
    simpa using hothers
  · have hmem : r.name ∈ enabledNames requests := by
      by_contra hnew
      exact hr ⟨hne, henabled, hnew⟩
    exact hprefix _ hmem hothers

/-- The array after any requests. A system is looked up by its exact name, and has what the last
    request for the name asked for, if the name is one of the first that were enabled. A request
    that enables a name takes effect if fewer than eight other names have been enabled before. -/
theorem fallback_slots_refine_map (requests : List (FallbackRequest K)) :
    (∀ name : {name : Name // 0 ∉ name}, lookupFallback (runFallbacks requests) name.1 =
        if name.1 ∈ (enabledNames requests).take maxFallbackSlots then lastEnabled requests name.1
        else none) ∧
      ∀ r : FallbackRequest K, r.name ≠ [] → r.1.enabled = true →
        ((enabledNames requests).filter fun n => decide (n ≠ r.name)).length < maxFallbackSlots →
        lookupFallback (runFallbacks (requests ++ [r])) r.name = some (fallbackTransform r.1) := by
  refine ⟨fun name => lookupFallback_run requests name.2, ?_⟩
  intro r hne henabled hothers
  have hvalid := FallbackRequest.valid hne
  rw [lookupFallback_run _ hvalid.no_nul, if_pos (mem_take_enabledNames hne henabled hothers),
    lastEnabled, lastRequest_concat, if_pos rfl, Option.bind_some, if_pos henabled]

end Run

/-- A request for the system with a name of one letter. -/
def letterRequest (letter : UInt8) (enabled : Bool) : FallbackRequest ℚ :=
  ⟨{ systemName := letter :: List.replicate 31 0
     enabled
     translation := .zero
     rotation := .identity
     scale := 1 }, rfl⟩

/-- Eight names are enabled and disabled again. The ninth one is enabled then, but not served. -/
theorem lookupFallback_ninth_name :
    let letters : List UInt8 := [97, 98, 99, 100, 101, 102, 103, 104]
    let requests := letters.map (letterRequest · true) ++ letters.map (letterRequest · false)
    letters.all (fun letter => (lookupFallback (runFallbacks requests) [letter]).isNone) = true ∧
      (lookupFallback (runFallbacks (requests ++ [letterRequest 105 true])) [105]).isNone =
        true := by
  decide +kernel

end WKOpenVR.Driver
