import WKOpenVR.Machine
import Mathlib.Data.List.Flatten

/-!
# Latest-value channels

A channel takes values and passes them on one at a time. In a *latest-value*
channel only the latest value matters: a value that still waits is superseded by
the next one. In the other kind all values wait, in their order. The value on its
way (`Flight`) may arrive several times, up to `n`, or get lost; the channel may
also be cleared, losing the values that wait. Over every run:

* the values arrive in the order in which they were put, each at most `n` times
  (`arrived_sublist`);
* when nothing waits or is on its way, and no value has been lost, the last value
  to arrive is the last one put (`getLast?_arrived`);
* if moreover all values wait, every value put has arrived (`accepted_sublist`).
-/

namespace WKOpenVR.Channel

open List

/-- A value on its way, with the number of times it has arrived. -/
structure Flight (β : Type*) where
  value : β
  arrivals : ℕ

structure State (β : Type*) where
  /-- The values that wait, the next one first. -/
  pending : List β
  flight : Option (Flight β)
  /-- The values put so far. -/
  accepted : List β
  /-- The arrivals so far. -/
  arrived : List β
  /-- The values lost so far. -/
  lost : List β

inductive Event (β : Type*)
  | put (v : β)
  /-- The next value sets off. -/
  | take
  | arrive
  /-- The value on its way is done, having arrived, or is lost. -/
  | land (ok : Bool)
  | clear

variable {β : Type*} (latest : Bool) (n : ℕ)

/-- The channel after an event; with `latest`, a value supersedes those that wait. -/
def step (c : State β) : Event β → Option (State β)
  | .put v => some { c with
      pending := if latest then [v] else c.pending ++ [v]
      accepted := c.accepted ++ [v] }
  | .take =>
    match c.flight, c.pending with
    | none, v :: vs => some { c with pending := vs, flight := some ⟨v, 0⟩ }
    | _, _ => none
  | .arrive =>
    match c.flight with
    | some f =>
      if f.arrivals < n then
        some { c with
          flight := some { f with arrivals := f.arrivals + 1 }
          arrived := c.arrived ++ [f.value] }
      else none
    | none => none
  | .land true =>
    match c.flight with
    | some f => if f.arrivals = 0 then none else some { c with flight := none }
    | none => none
  | .land false =>
    match c.flight with
    | some f => some { c with flight := none, lost := c.lost ++ [f.value] }
    | none => none
  | .clear => some { c with pending := [], lost := c.lost ++ c.pending }

/-- The channel, initially empty. -/
def machine : Machine (State β) (Event β) where
  init := {⟨[], none, [], [], []⟩}
  step := step latest n

/-! ## The invariant -/

/-- Each value `n` times. -/
def repeated (vs : List β) : List β := vs.flatMap (List.replicate n)

@[simp]
theorem repeated_append (us vs : List β) : repeated n (us ++ vs) = repeated n us ++ repeated n vs :=
  flatMap_append

@[simp]
theorem repeated_cons (v : β) (vs : List β) :
    repeated n (v :: vs) = List.replicate n v ++ repeated n vs :=
  flatMap_cons

/-- The arrivals still possible of the value on its way. -/
def remaining : Option (Flight β) → List β
  | some f => List.replicate (n - f.arrivals) f.value
  | none => []

def flying : Option (Flight β) → List β
  | some f => [f.value]
  | none => []

/-- The value on its way, if it has not arrived yet. -/
def unarrived : Option (Flight β) → List β
  | some f => if f.arrivals = 0 then [f.value] else []
  | none => []

structure Inv (latest : Bool) (n : ℕ) (c : State β) : Prop where
  /-- What has arrived and may still arrive is in the order of the values put. -/
  ordered : (c.arrived ++ remaining n c.flight ++ repeated n c.pending).Sublist
    (repeated n c.accepted)
  /-- The last value put is the last one to wait, or else the one on its way, or
      else the last to have arrived. -/
  last : c.lost = [] →
    (c.arrived ++ flying c.flight ++ c.pending).getLast? = c.accepted.getLast?
  /-- A value on its way that has arrived is the last to have arrived. -/
  arrival : ∀ f, c.flight = some f → f.arrivals ≠ 0 → c.arrived.getLast? = some f.value
  /-- Where all values wait, a value put has arrived, is on its way or waits. -/
  complete : latest = false → c.lost = [] →
    c.accepted.Sublist (c.arrived ++ unarrived c.flight ++ c.pending)

variable {latest n} {c c' : State β}

theorem inv_init (hc : c ∈ (machine latest n).init) : Inv latest n c := by
  obtain rfl : c = _ := hc
  exact ⟨List.Sublist.refl _, fun _ => rfl, fun f hf => absurd hf (Option.some_ne_none f).symm,
    fun _ _ => List.Sublist.refl _⟩

theorem Inv.put (h : Inv latest n c) {v : β} (hs : step latest n c (.put v) = some c') :
    Inv latest n c' := by
  cases hs
  refine ⟨?_, fun hlost => ?_, h.arrival, fun hall hlost => ?_⟩
  · cases latest
    · simpa [← append_assoc] using h.ordered.append (List.Sublist.refl (repeated n [v]))
    · -- The superseded values do not arrive.
      have hbefore := (sublist_append_left ..).trans h.ordered
      simpa [← append_assoc] using hbefore.append (List.Sublist.refl (repeated n [v]))
  · cases latest
    · simp [← append_assoc]
    · simp
  · subst hall
    simpa [← append_assoc] using (h.complete rfl hlost).append (List.Sublist.refl [v])

theorem Inv.take (h : Inv latest n c) (hs : step latest n c .take = some c') : Inv latest n c' := by
  simp only [step] at hs
  split at hs
  next v vs hflight hpending =>
    cases hs
    obtain ⟨hordered, hlast, -, hcomplete⟩ := h
    rw [hflight, hpending] at hordered hlast hcomplete
    -- The value that waited first is on its way: the order is what it was.
    refine ⟨?_, fun hlost => ?_, fun f hf hne => ?_, fun hall hlost => ?_⟩
    · simpa [remaining] using hordered
    · rw [← hlast hlost]
      simp only [flying, append_assoc, nil_append, singleton_append]
    · cases hf
      exact absurd rfl hne
    · simpa [unarrived] using hcomplete hall hlost
  · cases hs

theorem Inv.arrive (h : Inv latest n c) (hs : step latest n c .arrive = some c') :
    Inv latest n c' := by
  simp only [step] at hs
  split at hs
  next f hflight =>
    split_ifs at hs with hlt
    cases hs
    obtain ⟨hordered, hlast, -, hcomplete⟩ := h
    rw [hflight] at hordered hlast hcomplete
    refine ⟨?_, fun hlost => ?_, fun g hg _ => ?_, fun hall hlost => ?_⟩
    · -- One of the arrivals that were possible has come about.
      have hrem : n - f.arrivals = n - (f.arrivals + 1) + 1 := by omega
      simpa [remaining, hrem, replicate_succ] using hordered
    · rw [← hlast hlost]
      simp [flying, List.getLast?_append]
    · cases hg
      exact List.getLast?_concat
    · refine (hcomplete hall hlost).trans ?_
      simp only [unarrived, Nat.succ_ne_zero, if_false, append_nil]
      split_ifs
      · exact List.Sublist.refl _
      · exact ((List.Sublist.refl _).append (nil_sublist _)).append (List.Sublist.refl _)
  · cases hs

theorem Inv.land (h : Inv latest n c) {ok : Bool} (hs : step latest n c (.land ok) = some c') :
    Inv latest n c' := by
  obtain ⟨hordered, hlast, harrival, hcomplete⟩ := h
  have hshort : (c.arrived ++ [] ++ repeated n c.pending).Sublist (repeated n c.accepted) := by
    refine List.Sublist.trans ?_ hordered
    exact ((List.Sublist.refl _).append (nil_sublist _)).append (List.Sublist.refl _)
  cases ok with
  | true =>
    simp only [step] at hs
    split at hs
    next f hflight =>
      split_ifs at hs with hne
      cases hs
      refine ⟨hshort, fun hlost => ?_, fun g hg => absurd hg (Option.some_ne_none g).symm,
        fun hall hlost => ?_⟩
      · -- The value has arrived, last of all.
        have harrived := harrival f hflight hne
        rw [← hlast hlost, hflight, flying, flying, append_nil, List.getLast?_append,
          List.getLast?_append, List.getLast?_append, harrived]
        rfl
      · simpa [hflight, unarrived, hne] using hcomplete hall hlost
    · cases hs
  | false =>
    simp only [step] at hs
    split at hs
    · -- A value is lost: only the order remains.
      cases hs
      exact ⟨hshort, by simp, by simp, by simp⟩
    · cases hs

theorem Inv.clear (h : Inv latest n c) (hs : step latest n c .clear = some c') :
    Inv latest n c' := by
  cases hs
  refine ⟨?_, fun hlost => ?_, h.arrival, fun hall hlost => ?_⟩
  · refine List.Sublist.trans ?_ h.ordered
    exact (List.Sublist.refl _).append (nil_sublist _)
  · -- Nothing is lost: nothing waited.
    obtain ⟨hl, hp⟩ := append_eq_nil_iff.1 hlost
    rw [← h.last hl, hp]
  · obtain ⟨hl, hp⟩ := append_eq_nil_iff.1 hlost
    have := h.complete hall hl
    rwa [hp] at this

theorem inv_of_run {es : List (Event β)} (h : (machine latest n).Run es c) : Inv latest n c := by
  refine h.invariant (fun c hc => inv_init hc) fun c e c' hc _ hs => ?_
  cases e with
  | put => exact hc.put hs
  | take => exact hc.take hs
  | arrive => exact hc.arrive hs
  | land => exact hc.land hs
  | clear => exact hc.clear hs

/-! ## What arrives -/

variable {es : List (Event β)}

/-- The values arrive in the order in which they were put, each at most `n` times. -/
theorem arrived_sublist (h : (machine latest n).Run es c) :
    c.arrived.Sublist (repeated n c.accepted) := by
  refine List.Sublist.trans ?_ (inv_of_run h).ordered
  rw [append_assoc]
  exact sublist_append_left ..

/-- When nothing waits or is on its way, and nothing has been lost, the last value
    to arrive is the last one put. -/
theorem getLast?_arrived (h : (machine latest n).Run es c) (hpending : c.pending = [])
    (hflight : c.flight = none) (hlost : c.lost = []) :
    c.arrived.getLast? = c.accepted.getLast? := by
  simpa [flying, hpending, hflight] using (inv_of_run h).last hlost

/-- Where all values wait, they have then all arrived. -/
theorem accepted_sublist (h : (machine false n).Run es c) (hpending : c.pending = [])
    (hflight : c.flight = none) (hlost : c.lost = []) : c.accepted.Sublist c.arrived := by
  simpa [unarrived, hpending, hflight] using (inv_of_run h).complete rfl hlost

end WKOpenVR.Channel
