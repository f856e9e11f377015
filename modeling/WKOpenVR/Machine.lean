import Mathlib.Data.Set.Basic
import Mathlib.Data.List.Basic
import Mathlib.Tactic.Cases

/-!
# Machines and their runs

A *machine* is a set of initial states, and a partial function giving the state
after an action. What a program does not control (the schedule of its threads,
the outcome of a system call, the failure of a write, a crash) is part of the
action: a nondeterministic choice is resolved by the action that is taken, and
an action that cannot be taken has no next state.

A *run* (`Machine.RunIf`) is a sequence of actions from an initial state, each
meeting a guard in the state it is taken from; without a guard it is any run of
the machine (`Machine.Run`). Safety is proved by an invariant: a property of
the initial states preserved by every guarded step holds after every guarded
run (`RunIf.invariant`); an invariant may also depend on the actions taken
(`RunIf.history_invariant`). A machine *refines* another by an abstraction of its
states if each step is a step of the other or leaves the abstract state as it is;
its runs are then runs of the other (`RunIf.refines`).

As a step is a function, a run can be computed (`Machine.exec`), which gives
the run of a concrete schedule (`exists_runIf`).

What happened in a run is recorded by the machine itself, if a property needs it:
`Machine.recording` keeps, beside the state, the list of the events observed at its
steps, which are steps of the machine (`recording_step`).

Where every action can always be taken, a run is a fold over its actions, and
what holds at each of its steps is stated over the prefixes `pre ++ [a]` of the
actions (`concat_prefix_cons`). If the actions are calls that are answered, the run
gives the answers (`answers`); related states that answer alike, and stay related, give
the same answers to all sequences of calls (`answers_simulation`).
-/

namespace WKOpenVR

/-- A machine with states `S` and actions `A`. -/
structure Machine (S A : Type*) where
  /-- The initial states. -/
  init : Set S
  /-- The state after an action, if the action can be taken. -/
  step : S → A → Option S

namespace Machine

variable {S A : Type*} (m : Machine S A)

/-- A run under the guard `C`: the actions `as` lead from an initial state to
    `s`, each of them meeting `C` in the state it is taken from. -/
inductive RunIf (C : S → A → Prop) : List A → S → Prop
  | init {s : S} : s ∈ m.init → RunIf C [] s
  | step {as : List A} {s s' : S} {a : A} :
      RunIf C as s → C s a → m.step s a = some s' → RunIf C (as ++ [a]) s'

/-- A run, under no guard. -/
abbrev Run : List A → S → Prop := m.RunIf fun _ _ => True

/-- The machine started in the state `s`. -/
def startingAt (s : S) : Machine S A := { m with init := {s} }

/-- The machine that also records the events observed at its steps. -/
def recording {E : Type*} (obs : S → A → List E) : Machine (S × List E) A where
  init := {p | p.1 ∈ m.init ∧ p.2 = []}
  step p a := (m.step p.1 a).map fun s' => (s', p.2 ++ obs p.1 a)

variable {m} {C : S → A → Prop} {as : List A} {s : S} {I : S → Prop}

/-- An invariant of the guarded steps holds after every guarded run. -/
theorem RunIf.invariant (h : m.RunIf C as s) (hinit : ∀ s ∈ m.init, I s)
    (hstep : ∀ s a s', I s → C s a → m.step s a = some s' → I s') : I s := by
  induction h with
  | init hs => exact hinit _ hs
  | step _ hC hs ih => exact hstep _ _ _ ih hC hs

/-- An invariant relating the actions taken to the state reached. -/
theorem RunIf.history_invariant {I : List A → S → Prop} (h : m.RunIf C as s)
    (hinit : ∀ s ∈ m.init, I [] s)
    (hstep : ∀ as s a s', I as s → C s a → m.step s a = some s' → I (as ++ [a]) s') : I as s := by
  induction h with
  | init hs => exact hinit _ hs
  | step _ hC hs ih => exact hstep _ _ _ _ ih hC hs

/-- Refinement: if the abstraction of each step is a step of the machine `n`, or
    nothing, then the abstraction of a run is a run of `n`. The steps may be assumed
    to start from states with the invariant `I`. -/
theorem RunIf.refines {T B : Type*} {n : Machine T B} (h : m.RunIf C as s)
    (abs : S → T) (hI : ∀ as s, m.RunIf C as s → I s) (hinit : ∀ s ∈ m.init, abs s ∈ n.init)
    (hstep : ∀ s a s', I s → m.step s a = some s' →
      abs s' = abs s ∨ ∃ b, n.step (abs s) b = some (abs s')) : ∃ bs, n.Run bs (abs s) := by
  induction h with
  | init hs => exact ⟨[], .init (hinit _ hs)⟩
  | step hrun _ hs ih =>
    obtain ⟨bs, hbs⟩ := ih
    rcases hstep _ _ _ (hI _ _ hrun) hs with heq | ⟨b, hb⟩
    · exact ⟨bs, heq ▸ hbs⟩
    · exact ⟨bs ++ [b], .step hbs trivial hb⟩

/-- A run from the state after an action is one from the state before it. -/
theorem RunIf.cons {a : A} {t u : S} (h : (m.startingAt t).RunIf C as u) (hC : C s a)
    (hs : m.step s a = some t) : (m.startingAt s).RunIf C (a :: as) u := by
  induction h with
  | init hu =>
    obtain rfl : _ = t := hu
    have hinit : (m.startingAt s).RunIf C [] s := .init rfl
    exact .step hinit hC hs
  | step _ hC' hs' ih => exact .step ih hC' hs'

section Recording

variable {E : Type*} {obs : S → A → List E} {p p' : S × List E}

/-- A recorded step is a step, with what is observed at it added to the record. -/
theorem recording_step {a : A} (h : (m.recording obs).step p a = some p') :
    m.step p.1 a = some p'.1 ∧ p'.2 = p.2 ++ obs p.1 a := by
  obtain ⟨s', hs', rfl⟩ := Option.map_eq_some_iff.1 h
  exact ⟨hs', rfl⟩

end Recording

/-- The state after the actions `as` from `s`, if they can all be taken under the
    guard `C`. -/
def exec (m : Machine S A) (C : S → A → Prop) [DecidableRel C] : S → List A → Option S
  | s, [] => some s
  | s, a :: as => if C s a then (m.step s a).bind fun s' => m.exec C s' as else none

variable [DecidableRel C]

/-- A run goes on with the actions computed from its last state. -/
theorem RunIf.append_exec {bs : List A} {s' : S} (h : m.RunIf C as s)
    (hs : m.exec C s bs = some s') : m.RunIf C (as ++ bs) s' := by
  induction bs generalizing as s with
  | nil =>
    rw [exec, Option.some.injEq] at hs
    rw [List.append_nil, ← hs]
    exact h
  | cons b bs ih =>
    rw [exec] at hs
    split_ifs at hs with hC
    obtain ⟨u, hu, hs⟩ := Option.bind_eq_some_iff.1 hs
    rw [List.append_cons]
    exact ih (.step h hC hu) hs

/-- The actions computed from an initial state are a run, to a state of which what
    was computed holds. -/
theorem exists_runIf (m : Machine S A) {P : S → Prop} [DecidablePred P] (s : S) (h : s ∈ m.init)
    (hs : (m.exec C s as).any (decide <| P ·)) : ∃ s', m.RunIf C as s' ∧ P s' := by
  obtain ⟨s', hs', hp⟩ := (Option.any_eq_true _ _).1 hs
  have hrun : m.RunIf C ([] ++ as) s' := (RunIf.init h).append_exec hs'
  exact ⟨s', hrun, of_decide_eq_true hp⟩

/-- What follows for the states that are found. -/
theorem exists_runIf_of (m : Machine S A) {P Q : S → Prop} [DecidablePred P] (s : S)
    (h : s ∈ m.init) (hs : (m.exec C s as).any (decide <| P ·))
    (hQ : ∀ s', m.RunIf C as s' → P s' → Q s') : ∃ s', m.RunIf C as s' ∧ Q s' := by
  obtain ⟨s', hrun, hp⟩ := m.exists_runIf s h hs
  exact ⟨s', hrun, hQ s' hrun hp⟩

end Machine

section Answers

variable {S T A O : Type*}

/-- The answers to the calls `as`, in turn, and the state after them. -/
def answers (step : S → A → O × S) : S → List A → List O × S
  | s, [] => ([], s)
  | s, a :: as =>
    ((step s a).1 :: (answers step (step s a).2 as).1, (answers step (step s a).2 as).2)

/-- Related states that answer every call alike, and are related after it, answer all
    sequences of calls alike. -/
theorem answers_simulation {step : S → A → O × S} {step' : T → A → O × T} {R : S → T → Prop}
    (hstep : ∀ s t a, R s t → (step s a).1 = (step' t a).1 ∧ R (step s a).2 (step' t a).2)
    {s : S} {t : T} (h : R s t) (as : List A) :
    (answers step s as).1 = (answers step' t as).1 ∧
      R (answers step s as).2 (answers step' t as).2 := by
  induction as generalizing s t with
  | nil => exact ⟨rfl, h⟩
  | cons a as ih =>
    obtain ⟨hanswer, hR⟩ := hstep s t a h
    obtain ⟨hanswers, hR'⟩ := ih hR
    exact ⟨by rw [answers, answers, hanswer, hanswers], hR'⟩

end Answers

/-- The steps of a run: the first action, and the steps of the rest. -/
theorem concat_prefix_cons {A : Type*} {pre as : List A} {a b : A} :
    pre ++ [a] <+: b :: as ↔
      pre = [] ∧ a = b ∨ ∃ pre', pre = b :: pre' ∧ pre' ++ [a] <+: as := by
  cases pre <;> simp [List.cons_prefix_cons]

/-- A run without actions has no steps. -/
theorem not_concat_prefix_nil {A : Type*} {pre : List A} {a : A} : ¬pre ++ [a] <+: [] := by
  simp

end WKOpenVR
