import WKOpenVR.Machine

/-!
# Programs that ask their environment

A program with a state and exceptions asks its environment, say for the outcome of a system
call, and goes on according to the answer. What it has come to is a `Dialogue`: it has ended,
with a result or an exception, or it asks a question. The state is kept when an exception is
raised.

What holds at the end of a program, whatever the answers, is `Dialogue.Always`; a guard says
which answers are considered. There is one rule for each way to put programs together
(`always_bind`, `always_tryCatch`, `always_ask`).

A system that takes calls one after the other is a machine, an action being a call or an answer
(`callMachine`). If what holds after a call is enough for the next one, it holds after every
call of a run (`always_of_runIf`).
-/

namespace WKOpenVR

/-- What a program has come to. -/
inductive Dialogue (Q : Type) (R : Q → Type) (S E α : Type)
  | ended (result : Except E α) (s : S)
  | asks (q : Q) (s : S) (next : R q → Dialogue Q R S E α)

/-- A program, started in a state. -/
def Program (Q : Type) (R : Q → Type) (S E α : Type) := S → Dialogue Q R S E α

variable {Q : Type} {R : Q → Type} {S E α β : Type}

namespace Dialogue

def bind : Dialogue Q R S E α → (α → Program Q R S E β) → Dialogue Q R S E β
  | ended (.ok a) s, f => f a s
  | ended (.error e) s, _ => ended (.error e) s
  | asks q s next, f => asks q s fun r => (next r).bind f

def handle : Dialogue Q R S E α → (E → Program Q R S E α) → Dialogue Q R S E α
  | ended (.ok a) s, _ => ended (.ok a) s
  | ended (.error e) s, f => f e s
  | asks q s next, f => asks q s fun r => (next r).handle f

/-- Whatever is answered under the guard `G`, the program ends with a result and `P`, or with an
    exception and `X`. -/
def Always (G : (q : Q) → S → R q → Prop) (P : α → S → Prop) (X : E → S → Prop) :
    Dialogue Q R S E α → Prop
  | ended (.ok a) s => P a s
  | ended (.error e) s => X e s
  | asks q s next => ∀ r, G q s r → (next r).Always G P X

end Dialogue

namespace Program

instance : Monad (Program Q R S E) where
  pure a := fun s => .ended (.ok a) s
  bind m f := fun s => (m s).bind f

instance : MonadStateOf S (Program Q R S E) where
  get := fun s => .ended (.ok s) s
  set s := fun _ => .ended (.ok ()) s
  modifyGet f := fun s => .ended (.ok (f s).1) (f s).2

instance : MonadExceptOf E (Program Q R S E) where
  throw e := fun s => .ended (.error e) s
  tryCatch m f := fun s => (m s).handle f

/-- Asking the environment. -/
def ask (q : Q) : Program Q R S E (R q) := fun s => .asks q s fun r => .ended (.ok r) s

end Program

/-! ## What a program does next -/

section Equations

variable {s : S}

@[simp]
theorem get_bind_run (f : S → Program Q R S E β) : (get >>= f) s = f s s := rfl

@[simp]
theorem modify_bind_run (g : S → S) (f : PUnit → Program Q R S E β) :
    (modify g >>= f) s = f ⟨⟩ (g s) := rfl

variable {m : Program Q R S E α}

/-- A part that ends without asking. -/
theorem bind_run_of_ended {a : α} {s' : S} (h : m s = .ended (.ok a) s')
    (f : α → Program Q R S E β) : (m >>= f) s = f a s' := by
  have hbind : (m >>= f) s = (m s).bind f := rfl
  rw [hbind, h]
  rfl

end Equations

/-! ## What holds at the end -/

section Always

variable {G : (q : Q) → S → R q → Prop} {P : α → S → Prop} {X : E → S → Prop}
  {m : Program Q R S E α} {s : S} {P' : α → S → Prop} {X' : E → S → Prop}

theorem Dialogue.Always.mono {d : Dialogue Q R S E α} (h : d.Always G P X)
    (hP : ∀ a s, P a s → P' a s) (hX : ∀ e s, X e s → X' e s) :
    d.Always G P' X' := by
  induction d with
  | ended r s =>
    cases r with
    | ok a => exact hP a s h
    | error e => exact hX e s h
  | asks q s next ih => exact fun r hr => ih r (h r hr)

theorem always_bind {f : α → Program Q R S E β} {P' : β → S → Prop}
    (h : (m s).Always G P X) (hf : ∀ a s, P a s → (f a s).Always G P' X')
    (hX : ∀ e s, X e s → X' e s) : ((m >>= f) s).Always G P' X' := by
  have hd (d : Dialogue Q R S E α) (hd : d.Always G P X) : (d.bind f).Always G P' X' := by
    induction d with
    | ended r s =>
      cases r with
      | ok a => exact hf a s hd
      | error e => exact hX e s hd
    | asks q s next ih => exact fun r hr => ih r (hd r hr)
  exact hd (m s) h

theorem always_ask {q : Q} {f : R q → Program Q R S E α}
    (h : ∀ r, G q s r → (f r s).Always G P X) : ((Program.ask q >>= f) s).Always G P X :=
  h

theorem always_tryCatch {f : E → Program Q R S E α}
    (h : (m s).Always G P X) (hP : ∀ a s, P a s → P' a s)
    (hf : ∀ e s, X e s → (f e s).Always G P' X') :
    ((tryCatch m f : Program Q R S E α) s).Always G P' X' := by
  have hd (d : Dialogue Q R S E α) (hd : d.Always G P X) : (d.handle f).Always G P' X' := by
    induction d with
    | ended r s =>
      cases r with
      | ok a => exact hP a s hd
      | error e => exact hf e s hd
    | asks q s next ih => exact fun r hr => ih r (hd r hr)
  exact hd (m s) h

end Always

/-! ## Calls -/

/-- A call of a program, or an answer to what it asks. -/
inductive CallAction (C Q : Type) (R : Q → Type)
  | call (c : C)
  | answer (q : Q) (r : R q)

section Calls

variable {C : Type} [DecidableEq Q]

/-- The machine that takes calls one after the other. -/
def callMachine (start : C → Program Q R S E α) (init : Set (Dialogue Q R S E α)) :
    Machine (Dialogue Q R S E α) (CallAction C Q R) where
  init := init
  step
    | .ended _ s, .call c => some (start c s)
    | .asks q _ next, .answer q' r => if h : q' = q then some (next (h ▸ r)) else none
    | _, _ => none

/-- The answers meet the guard `G`. -/
def Answers (G : (q : Q) → S → R q → Prop) : Dialogue Q R S E α → CallAction C Q R → Prop
  | .asks q s _, .answer q' r => ∀ h : q' = q, G q s (h ▸ r)
  | _, _ => True

instance {G : (q : Q) → S → R q → Prop} [∀ q s r, Decidable (G q s r)] :
    DecidableRel (Answers G : Dialogue Q R S E α → CallAction C Q R → Prop)
  | .asks q s _, .answer q' r => inferInstanceAs (Decidable (∀ h : q' = q, G q s (h ▸ r)))
  | .asks _ _ _, .call _ => inferInstanceAs (Decidable True)
  | .ended _ _, .answer _ _ => inferInstanceAs (Decidable True)
  | .ended _ _, .call _ => inferInstanceAs (Decidable True)

/-- What holds after each call if it holds before holds whenever no call is being answered. -/
theorem always_of_runIf {start : C → Program Q R S E α} {init : Set (Dialogue Q R S E α)}
    {G : (q : Q) → S → R q → Prop} {P : α → S → Prop} {X : E → S → Prop}
    {as : List (CallAction C Q R)} {d : Dialogue Q R S E α}
    (h : (callMachine start init).RunIf (Answers G) as d) (hinit : ∀ d ∈ init, d.Always G P X)
    (hok : ∀ c a s, P a s → (start c s).Always G P X)
    (herror : ∀ c e s, X e s → (start c s).Always G P X) : d.Always G P X := by
  refine h.invariant hinit ?_
  intro d a d' hd hG hstep
  cases d with
  | ended r s =>
    cases a with
    | call c =>
      obtain rfl : start c s = d' := Option.some.inj hstep
      cases r with
      | ok r => exact hok c r s hd
      | error e => exact herror c e s hd
    | answer q r => cases hstep
  | asks q s next =>
    cases a with
    | call c => cases hstep
    | answer q' r =>
      by_cases hq : q' = q
      · subst hq
        obtain rfl : next r = d' := by simpa [callMachine] using hstep
        exact hd r (hG rfl)
      · simp [callMachine, hq] at hstep

end Calls

end WKOpenVR
