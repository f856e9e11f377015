import WKOpenVR.Machine

/-!
# Draining the detours

A detour counts itself while it runs (`DetourScope`), and `DisableHooks` waits after `DestroyAll`
until the counter is zero, but not for long (`InterfaceHookInjector.cpp`). A call of a hooked
function is inside the detour before it is counted, and when it is not counted any more: the
counter may be zero with such a call inside, and `DisableHooks` returns (`returns_with_call`).
Where the drain finds zero only if there is none, no call is inside afterwards (`quiescent`).
-/

namespace WKOpenVR.Driver.Hooks

/-- Where a call is in a detour. -/
inductive Position
  /-- Before `EnterDetour`. -/
  | entered
  | counted
  /-- After `ExitDetour`. -/
  | leaving
  deriving DecidableEq

/-- Where `DisableHooks` is. -/
inductive Phase
  | idle
  /-- In `DestroyAll`. -/
  | removing
  | draining
  | drained
  /-- From where `DisableHooks` is not followed. -/
  | timedOut
  | returned
  deriving DecidableEq

structure State where
  hooksInitialized : Bool
  /-- The calls inside a detour. -/
  inside : List Position := []
  inFlightDetours : ℤ := 0
  phase : Phase := .idle

inductive Event
  | enter
  /-- The next step of a call. -/
  | advance (p : Position)
  | disableHooks
  | destroyAll
  /-- A load of the counter by `DrainInFlightDetours`, which may be after the deadline. -/
  | load (late : Bool)
  /-- `MH_Uninitialize`, and the return. -/
  | leave

namespace State

variable (s : State)

/-- Calls come in until `DestroyAll` has returned. -/
def hooked : Bool :=
  match s.phase with
  | .idle => s.hooksInitialized
  | .removing => true
  | .draining | .drained | .timedOut | .returned => false

def advance (p : Position) : State :=
  let others := s.inside.erase p
  match p with
  | .entered => { s with inside := .counted :: others, inFlightDetours := s.inFlightDetours + 1 }
  | .counted => { s with inside := .leaving :: others, inFlightDetours := s.inFlightDetours - 1 }
  | .leaving => { s with inside := others }

def step : Event → Option State
  | .enter => if s.hooked then some { s with inside := .entered :: s.inside } else none
  | .advance p => if s.inside.contains p then some (s.advance p) else none
  | .disableHooks =>
    if s.phase ≠ .idle then none
    else if s.hooksInitialized then some { s with hooksInitialized := false, phase := .removing }
    else some { s with phase := .returned }
  | .destroyAll => if s.phase = .removing then some { s with phase := .draining } else none
  | .load late =>
    if s.phase ≠ .draining then none
    else if 0 < s.inFlightDetours then
      some { s with phase := if late then .timedOut else .draining }
    else some { s with phase := .drained }
  | .leave => if s.phase = .drained then some { s with phase := .returned } else none

end State

/-- The hooks are installed, or `InjectHooks` has not installed any. -/
def machine : Machine State Event where
  init := {s | ∃ hooksInitialized, s = { hooksInitialized }}
  step := State.step

variable (s : State)

/-- The drain finds zero only if every call that is inside is counted. -/
def CountsAll (e : Event) : Prop :=
  match e with
  | .load _ => s.inFlightDetours ≤ 0 → ∀ p ∈ s.inside, p = .counted
  | .enter | .advance _ | .disableHooks | .destroyAll | .leave => True

instance : DecidableRel CountsAll
  | s, .load _ => inferInstanceAs (Decidable (s.inFlightDetours ≤ 0 → ∀ p ∈ s.inside, p = .counted))
  | _, .enter | _, .advance _ | _, .disableHooks | _, .destroyAll | _, .leave => .isTrue trivial

/-- No call comes in, and none is waited for. -/
def State.over : Bool :=
  match s.phase with
  | .idle => !s.hooksInitialized
  | .drained | .returned => true
  | .removing | .draining | .timedOut => false

structure Inv (s : State) : Prop where
  counts : s.inFlightDetours = s.inside.count .counted
  empty : s.over = true → s.inside = []

variable {s} {s' : State} {e : Event}

theorem not_over_of_hooked (h : s.hooked = true) : s.over ≠ true := by
  unfold State.hooked at h
  unfold State.over
  split at h <;> simp_all

theorem Inv.advance {p : Position} (h : Inv s) (hp : p ∈ s.inside) : Inv (s.advance p) := by
  have hover : s.over ≠ true := fun hover => List.ne_nil_of_mem hp (h.empty hover)
  have hpos := List.count_pos_iff.2 hp
  cases p with
  | entered => exact ⟨by simp [State.advance, h.counts], fun ho => absurd ho hover⟩
  | counted =>
    refine ⟨?_, fun ho => absurd ho hover⟩
    simp only [State.advance, h.counts, List.count_cons, List.count_erase_self]
    grind
  | leaving => exact ⟨by simp [State.advance, h.counts], fun ho => absurd ho hover⟩

theorem Inv.step (h : Inv s) (hC : CountsAll s e) (hs : s.step e = some s') : Inv s' := by
  cases e with
  | advance p =>
    simp only [State.step] at hs
    split_ifs at hs with hp
    cases hs
    exact h.advance (List.contains_iff_mem.1 hp)
  | enter =>
    simp only [State.step] at hs
    split_ifs at hs with hhooked
    cases hs
    exact ⟨by simp [h.counts], fun ho => absurd ho (not_over_of_hooked hhooked)⟩
  | disableHooks =>
    simp only [State.step] at hs
    split_ifs at hs with hidle hinit
    · cases hs
      exact ⟨h.counts, nofun⟩
    · cases hs
      exact ⟨h.counts, fun _ => h.empty (by simp_all [State.over])⟩
  | destroyAll =>
    simp only [State.step] at hs
    split_ifs at hs
    cases hs
    exact ⟨h.counts, nofun⟩
  | load late =>
    simp only [State.step] at hs
    split_ifs at hs with hphase hpos hlate
    · cases hs
      exact ⟨h.counts, nofun⟩
    · cases hs
      exact ⟨h.counts, nofun⟩
    · cases hs
      -- All calls are counted, and the counter is zero.
      have hzero : s.inside.count .counted = 0 := by have := h.counts; omega
      refine ⟨h.counts, fun _ => List.eq_nil_iff_forall_not_mem.2 fun p hp => ?_⟩
      exact List.count_eq_zero.1 hzero (hC (not_lt.1 hpos) p hp ▸ hp)
  | leave =>
    simp only [State.step] at hs
    split_ifs at hs with hphase
    cases hs
    exact ⟨h.counts, fun _ => h.empty (by simp [State.over, hphase])⟩

/-- When `DisableHooks` returns after the drain, no call is inside a detour. -/
theorem quiescent {es : List Event} (h : machine.RunIf CountsAll es s) (hs : s.phase = .returned) :
    s.inside = [] := by
  have hinv : Inv s := by
    refine h.invariant (I := Inv) ?_ fun _ _ _ hinv hC => hinv.step hC
    rintro _ ⟨hooksInitialized, rfl⟩
    exact ⟨rfl, fun _ => rfl⟩
  exact hinv.empty (by rw [State.over, hs])

/-- A call that came in before the hooks were removed, and has returned. -/
theorem quiescent_waited :
    ∃ es s, machine.RunIf CountsAll es s ∧ s.phase = .returned ∧ s.inside = [] := by
  refine ⟨[.enter, .disableHooks, .advance .entered, .destroyAll, .load false, .advance .counted,
    .advance .leaving, .load false, .leave], machine.exists_runIf_of (P := (·.phase = .returned))
    { hooksInitialized := true } ⟨true, rfl⟩ (by decide) ?_⟩
  exact fun s hrun hs => ⟨hs, quiescent hrun hs⟩

/-- A call came in that is not counted until `DisableHooks` has returned. -/
theorem returns_with_call :
    ∃ es s, machine.Run es s ∧ s.phase = .returned ∧ s.inside = [.entered] :=
  ⟨[.enter, .disableHooks, .destroyAll, .load false, .leave],
    machine.exists_runIf { hooksInitialized := true } ⟨true, rfl⟩ (by decide)⟩

end WKOpenVR.Driver.Hooks
