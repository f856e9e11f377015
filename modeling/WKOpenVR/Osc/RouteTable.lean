import WKOpenVR.Machine
import WKOpenVR.SlotMap
import WKOpenVR.Osc.Pattern

/-!
# The route table

The routes of the router (`RouteTable`): a subscriber asks for the messages whose
address matches a pattern, and each route counts the messages that matched it, and those
that matched but were dropped. The table has 32 entries, which are found by the id of the
subscriber, and reused when they are free.

What the table is for is a map from ids to routes, of at most 32 (`RouteMap`), in which
subscribing inserts a new route, with its counters at zero, and dispatching an address
counts a match for the routes whose pattern matches. The table refines it, over all
sequences of calls (`routeTable_refines`).
-/

namespace WKOpenVR.Osc

/-- `OSC_ROUTER_ROUTE_SLOTS`. -/
def maxRoutes : ℕ := 32

/-- `OSC_ROUTE_ADDR_LEN`, the buffer of a pattern. -/
def routeAddrLen : ℕ := 64

/-- The buffer of a label. -/
def routeLabelLen : ℕ := 32

/-- What is kept of a subscription. -/
structure Route where
  pattern : List UInt8
  label : List UInt8
  matchCount : UInt64
  dropCount : UInt64
  lastMatchTick : UInt64
  deriving DecidableEq

namespace Route

/-- A route as it is subscribed: pattern and label are cut to their buffers. -/
def new (pattern label : CStr) : Route where
  pattern := pattern.bytes.take (routeAddrLen - 1)
  label := label.bytes.take (routeLabelLen - 1)
  matchCount := 0
  dropCount := 0
  lastMatchTick := 0

variable (r : Route) (address : CStr)

def Matches : Bool := oscPatternMatch r.pattern address.bytes

/-- A match is counted, if the address matches. -/
def countMatch (tick : UInt64) : Route :=
  if r.Matches address then { r with matchCount := r.matchCount + 1, lastMatchTick := tick } else r

/-- A drop is counted, if the address matches. -/
def countDrop : Route :=
  if r.Matches address then { r with dropCount := r.dropCount + 1 } else r

end Route

/-! ## The table -/

structure RouteEntry extends Route where
  subscriberId : UInt32
  active : Bool

structure RouteTable where
  entries : Fin maxRoutes → RouteEntry

inductive RouteCall
  | subscribe (sub : UInt32) (pattern label : CStr)
  | unsubscribe (sub : UInt32)
  | dispatch (address : CStr) (tick : UInt64)
  | bumpDropCount (address : CStr)

namespace RouteTable

/-- A table as constructed: no entry is active, and what else is in them is arbitrary. -/
def fresh (entries : Fin maxRoutes → RouteEntry) : RouteTable :=
  ⟨fun i => { entries i with active := false }⟩

variable (t : RouteTable) (sub : UInt32)

def findSlot : Option (Fin maxRoutes) :=
  (List.finRange maxRoutes).find? fun i =>
    (t.entries i).active && (t.entries i).subscriberId == sub

def findFreeSlot : Option (Fin maxRoutes) :=
  (List.finRange maxRoutes).find? fun i => !(t.entries i).active

def set (i : Fin maxRoutes) (e : RouteEntry) : RouteTable := ⟨Function.update t.entries i e⟩

def subscribe (pattern label : CStr) : Bool × RouteTable :=
  match t.findSlot sub with
  | some i => (true, t.set i ⟨.new pattern label, sub, true⟩)
  | none =>
    match t.findFreeSlot with
    | some i => (true, t.set i ⟨.new pattern label, sub, true⟩)
    | none => (false, t)

def unsubscribe : RouteTable :=
  match t.findSlot sub with
  | some i => t.set i { t.entries i with active := false }
  | none => t

/-- The loop of `Dispatch` and `BumpDropCount`. -/
def updateActive (f : Route → Route) : RouteTable :=
  ⟨fun i => if (t.entries i).active then { t.entries i with toRoute := f (t.entries i).toRoute }
    else t.entries i⟩

variable (address : CStr)

/-- `Dispatch`, which tells whether a route has matched. -/
def dispatch (tick : UInt64) : Bool × RouteTable :=
  ((List.finRange maxRoutes).any fun i =>
    (t.entries i).active && (t.entries i).Matches address,
    t.updateActive (·.countMatch address tick))

def bumpDropCount : RouteTable := t.updateActive (·.countDrop address)

/-- A call, with its answer if it has one. -/
def step : RouteCall → Option Bool × RouteTable
  | .subscribe sub pattern label => (t.subscribe sub pattern label).map some id
  | .unsubscribe sub => (none, t.unsubscribe sub)
  | .dispatch address tick => (t.dispatch address tick).map some id
  | .bumpDropCount address => (none, t.bumpDropCount address)

end RouteTable

/-! ## The map -/

/-- The routes, by subscriber. -/
abbrev RouteMap := UInt32 → Option Route

namespace RouteMap

open Classical in
/-- A route that is new needs room. -/
noncomputable def subscribe (m : RouteMap) (sub : UInt32) (pattern label : CStr) :
    Bool × RouteMap :=
  if m sub = none ∧ (SlotMap.keys m).ncard = maxRoutes then (false, m)
  else (true, Function.update m sub (some (.new pattern label)))

variable (m : RouteMap)

def unsubscribe (sub : UInt32) : RouteMap := Function.update m sub none

variable (address : CStr)

noncomputable def dispatch (tick : UInt64) : Bool × RouteMap :=
  (@decide (∃ sub r, m sub = some r ∧ r.Matches address = true) (Classical.propDecidable _),
    fun sub => (m sub).map (·.countMatch address tick))

def bumpDropCount : RouteMap :=
  fun sub => (m sub).map (·.countDrop address)

noncomputable def step : RouteCall → Option Bool × RouteMap
  | .subscribe sub pattern label => (m.subscribe sub pattern label).map some id
  | .unsubscribe sub => (none, m.unsubscribe sub)
  | .dispatch address tick => (m.dispatch address tick).map some id
  | .bumpDropCount address => (none, m.bumpDropCount address)

end RouteMap

/-! ## Refinement -/

namespace RouteTable

variable {t : RouteTable} {m : RouteMap} {sub : UInt32} {i : Fin maxRoutes}

/-- The active entries, as the slots of a map. -/
def slots (t : RouteTable) (i : Fin maxRoutes) : Option (UInt32 × Route) :=
  if (t.entries i).active then some ((t.entries i).subscriberId, (t.entries i).toRoute) else none

theorem isSome_slots : (t.slots i).isSome = (t.entries i).active := by
  unfold slots
  split_ifs with h <;> simp [h]

theorem slots_set (e : RouteEntry) : (t.set i e).slots =
    Function.update t.slots i (if e.active then some (e.subscriberId, e.toRoute) else none) := by
  funext j
  by_cases hj : j = i
  · subst hj
    simp [slots, set]
  · simp [slots, set, hj]

theorem slots_updateActive (f : Route → Route) :
    (t.updateActive f).slots = fun i => (t.slots i).map (Prod.map id f) := by
  funext i
  by_cases h : (t.entries i).active <;> simp [slots, updateActive, h]

theorem slots_eq_some {r : Route} : t.slots i = some (sub, r) ↔
    (t.entries i).active = true ∧ (t.entries i).subscriberId = sub ∧ (t.entries i).toRoute = r := by
  unfold slots
  split_ifs with h <;> simp [h]

theorem findSlot_some (h : t.findSlot sub = some i) : ∃ r, t.slots i = some (sub, r) := by
  have hfound := List.find?_some h
  rw [Bool.and_eq_true, beq_iff_eq] at hfound
  exact ⟨_, slots_eq_some.2 ⟨hfound.1, hfound.2, rfl⟩⟩

theorem findSlot_none (h : t.findSlot sub = none) (i : Fin maxRoutes) (r : Route) :
    t.slots i ≠ some (sub, r) := by
  rw [findSlot, List.find?_eq_none] at h
  intro hslot
  obtain ⟨hactive, hid, -⟩ := slots_eq_some.1 hslot
  exact h i (List.mem_finRange i) (by simp [hactive, hid])

theorem findFreeSlot_some (h : t.findFreeSlot = some i) : t.slots i = none := by
  have hfree := List.find?_some h
  rw [Bool.not_eq_true'] at hfree
  simp [slots, hfree]

theorem findFreeSlot_none : t.findFreeSlot = none ↔ ∀ i, (t.slots i).isSome := by
  simp [findFreeSlot, List.find?_eq_none, isSome_slots]

/-- A subscriber without a slot has no route. -/
theorem map_of_findSlot_none (h : SlotMap.Holds t.slots m) (hfind : t.findSlot sub = none) :
    m sub = none := by
  refine Option.eq_none_iff_forall_ne_some.2 fun r hr => ?_
  obtain ⟨i, hi⟩ := (h.mem_iff sub r).1 hr
  exact findSlot_none hfind i r hi

theorem full_iff (h : SlotMap.Holds t.slots m) :
    (SlotMap.keys m).ncard = maxRoutes ↔ t.findFreeSlot = none := by
  rw [findFreeSlot_none, ← h.full_iff, Fintype.card_fin]

/-- `Subscribe` fails if the subscriber is new, and there is no room for its route. -/
theorem subscribe_eq_false_iff (h : SlotMap.Holds t.slots m) (pattern label : CStr) :
    (t.subscribe sub pattern label).1 = false ↔
      m sub = none ∧ (SlotMap.keys m).ncard = maxRoutes := by
  rw [full_iff h, subscribe]
  cases hfind : t.findSlot sub with
  | some i =>
    obtain ⟨r, hr⟩ := findSlot_some hfind
    simp [h.of_slot hr]
  | none => cases hfree : t.findFreeSlot <;> simp [map_of_findSlot_none h hfind]

theorem subscribe_unchanged {pattern label : CStr}
    (h : (t.subscribe sub pattern label).1 = false) : (t.subscribe sub pattern label).2 = t := by
  revert h
  unfold subscribe
  split
  · simp
  · split <;> simp

theorem Holds.set_new (h : SlotMap.Holds t.slots m) (pattern label : CStr)
    (hi : ∀ sub' r, t.slots i = some (sub', r) → sub' = sub)
    (hsub : ∀ j r, t.slots j = some (sub, r) → j = i) :
    SlotMap.Holds (t.set i ⟨.new pattern label, sub, true⟩).slots
      (Function.update m sub (some (.new pattern label))) := by
  rw [slots_set]
  exact h.insert hi hsub

/-- `Subscribe` refines the insertion into the map. -/
theorem subscribe_refines (h : SlotMap.Holds t.slots m) (sub : UInt32) (pattern label : CStr) :
    (t.subscribe sub pattern label).1 = (m.subscribe sub pattern label).1 ∧
      SlotMap.Holds (t.subscribe sub pattern label).2.slots
        (m.subscribe sub pattern label).2 := by
  by_cases hfull : m sub = none ∧ (SlotMap.keys m).ncard = maxRoutes
  · have hfalse := (subscribe_eq_false_iff h pattern label).2 hfull
    rw [RouteMap.subscribe, if_pos hfull, hfalse, subscribe_unchanged hfalse]
    exact ⟨rfl, h⟩
  · rw [RouteMap.subscribe, if_neg hfull]
    cases hfind : t.findSlot sub with
    | some i =>
      obtain ⟨r, hr⟩ := findSlot_some hfind
      simp only [subscribe, hfind]
      refine ⟨trivial, Holds.set_new h pattern label (fun sub' r' hr' => ?_) fun j r' hr' => ?_⟩
      · rw [hr] at hr'
        exact (congrArg Prod.fst (Option.some.inj hr')).symm
      · exact h.slot_unique j i sub r' r hr' hr
    | none =>
      rw [map_of_findSlot_none h hfind, full_iff h] at hfull
      obtain ⟨i, hfree⟩ := Option.ne_none_iff_exists'.1 (by simpa using hfull)
      simp only [subscribe, hfind, hfree]
      refine ⟨trivial, Holds.set_new h pattern label (fun sub' r hr => ?_) fun j r hr => ?_⟩
      · rw [findFreeSlot_some hfree] at hr
        cases hr
      · exact absurd hr (findSlot_none hfind j r)

/-- `Unsubscribe` refines the erasure from the map. -/
theorem unsubscribe_refines (h : SlotMap.Holds t.slots m) (sub : UInt32) :
    SlotMap.Holds (t.unsubscribe sub).slots (m.unsubscribe sub) := by
  unfold unsubscribe RouteMap.unsubscribe
  split
  · rename_i i hfind
    obtain ⟨r, hr⟩ := findSlot_some hfind
    rw [slots_set]
    exact h.erase hr
  · rename_i hfind
    rw [← map_of_findSlot_none h hfind, Function.update_eq_self]
    exact h

theorem updateActive_refines (h : SlotMap.Holds t.slots m) (f : Route → Route) :
    SlotMap.Holds (t.updateActive f).slots fun sub => (m sub).map f := by
  rw [slots_updateActive]
  exact h.map f

/-- A dispatched address matches an entry if it matches a route of the map. -/
theorem dispatch_matched (h : SlotMap.Holds t.slots m) (address : CStr) (tick : UInt64) :
    (t.dispatch address tick).1 = (m.dispatch address tick).1 := by
  rw [Bool.eq_iff_iff]
  simp only [dispatch, RouteMap.dispatch, List.any_eq_true, List.mem_finRange, true_and,
    Bool.and_eq_true, decide_eq_true_eq, h.mem_iff, slots_eq_some]
  constructor
  · rintro ⟨i, hactive, hmatch⟩
    exact ⟨_, _, ⟨i, hactive, rfl, rfl⟩, hmatch⟩
  · rintro ⟨sub, r, ⟨i, hactive, -, rfl⟩, hmatch⟩
    exact ⟨i, hactive, hmatch⟩

theorem step_refines (t : RouteTable) (m : RouteMap) (c : RouteCall)
    (h : SlotMap.Holds t.slots m) :
    (t.step c).1 = (m.step c).1 ∧ SlotMap.Holds (t.step c).2.slots (m.step c).2 := by
  cases c with
  | subscribe sub pattern label =>
    obtain ⟨hanswer, hholds⟩ := subscribe_refines h sub pattern label
    exact ⟨congrArg some hanswer, hholds⟩
  | unsubscribe sub => exact ⟨rfl, unsubscribe_refines h sub⟩
  | dispatch address tick =>
    exact ⟨congrArg some (dispatch_matched h address tick),
      updateActive_refines h (·.countMatch address tick)⟩
  | bumpDropCount address => exact ⟨rfl, updateActive_refines h (·.countDrop address)⟩

theorem holds_fresh (entries : Fin maxRoutes → RouteEntry) :
    SlotMap.Holds (fresh entries).slots fun _ => none :=
  SlotMap.holds_empty fun _ => rfl

end RouteTable

/-- The route table refines the map of the routes: after any calls, its active entries are
    the routes of the map, each in one slot, and it has given the same answers. It
    refuses a route exactly if the subscriber is new and the map is full, and is
    unchanged then. -/
theorem routeTable_refines (entries : Fin maxRoutes → RouteEntry) (cs : List RouteCall) :
    (answers RouteTable.step (.fresh entries) cs).1 =
        (answers RouteMap.step (fun _ => none) cs).1 ∧
      SlotMap.Holds (answers RouteTable.step (.fresh entries) cs).2.slots
        (answers RouteMap.step (fun _ => none) cs).2 ∧
      (SlotMap.keys (answers RouteMap.step (fun _ => none) cs).2).ncard ≤ maxRoutes ∧
      ∀ sub pattern label,
        let t := (answers RouteTable.step (.fresh entries) cs).2
        let m := (answers RouteMap.step (fun _ => none) cs).2
        ((t.subscribe sub pattern label).1 = false ↔
          m sub = none ∧ (SlotMap.keys m).ncard = maxRoutes) ∧
        ((t.subscribe sub pattern label).1 = false → (t.subscribe sub pattern label).2 = t) := by
  obtain ⟨hanswers, hholds⟩ := answers_simulation
    (R := fun t m => SlotMap.Holds (RouteTable.slots t) m) RouteTable.step_refines
    (RouteTable.holds_fresh entries) cs
  have hle := hholds.ncard_keys_le
  rw [Fintype.card_fin] at hle
  exact ⟨hanswers, hholds, hle, fun sub pattern label =>
    ⟨RouteTable.subscribe_eq_false_iff hholds pattern label, RouteTable.subscribe_unchanged⟩⟩

end WKOpenVR.Osc
