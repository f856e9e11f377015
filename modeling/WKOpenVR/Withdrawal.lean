import Mathlib.Order.BooleanAlgebra.Set

/-!
# Keys kept by messages

Someone holds keys, and is told by messages to take a key up or to give one up. Messages may
be lost. If no withdrawal of a key that is held is lost, then what is held at most is known
from the messages alone (`bound`): whatever was held before, with the keys asserted since,
without the keys withdrawn since.

* `bound_append`, `bound_mono`: the bound is computed message by message, and it is monotone
  in what was held before.
* `bound_subset`: the bound is within a set `T`, if every key that is asserted is in `T` and
  every other key held before is withdrawn.
-/

namespace WKOpenVR.Withdrawal

/-- A message about a key. -/
inductive Message (κ : Type*)
  | assert (k : κ)
  | withdraw (k : κ)

variable {κ : Type*} {S T : Set κ}

/-- What is held at most after the messages, if at most `S` was held before them. -/
def bound : Set κ → List (Message κ) → Set κ
  | S, [] => S
  | S, .assert k :: ms => bound (insert k S) ms
  | S, .withdraw k :: ms => bound (S \ {k}) ms

theorem bound_append (S : Set κ) (ms ns : List (Message κ)) :
    bound S (ms ++ ns) = bound (bound S ms) ns := by
  induction ms generalizing S with
  | nil => rfl
  | cons m ms ih =>
    cases m with
    | assert k => exact ih (insert k S)
    | withdraw k => exact ih (S \ {k})

theorem bound_mono (h : S ⊆ T) (ms : List (Message κ)) : bound S ms ⊆ bound T ms := by
  induction ms generalizing S T with
  | nil => exact h
  | cons m ms ih =>
    cases m with
    | assert k => exact ih (Set.insert_subset_insert h)
    | withdraw k => exact ih (Set.sdiff_subset_sdiff_left h)

/-- Keys of `T` may be asserted; the others must be withdrawn. -/
theorem bound_subset {ms : List (Message κ)} (hassert : ∀ k, .assert k ∈ ms → k ∈ T)
    (hwithdraw : ∀ k ∈ S, k ∈ T ∨ .withdraw k ∈ ms) : bound S ms ⊆ T := by
  induction ms generalizing S with
  | nil =>
    intro k hk
    exact (hwithdraw k hk).resolve_right List.not_mem_nil
  | cons m ms ih =>
    have hassert' (k : κ) (hk : .assert k ∈ ms) : k ∈ T := hassert k (List.mem_cons_of_mem _ hk)
    cases m with
    | assert k =>
      refine ih hassert' fun k' hk' => ?_
      rcases hk' with rfl | hk'
      · exact .inl (hassert k' List.mem_cons_self)
      · rcases hwithdraw k' hk' with hT | hmem
        · exact .inl hT
        · exact .inr ((List.mem_cons.1 hmem).resolve_left nofun)
    | withdraw k =>
      refine ih hassert' fun k' hk' => ?_
      rcases hwithdraw k' hk'.1 with hT | hmem
      · exact .inl hT
      · refine .inr ((List.mem_cons.1 hmem).resolve_left fun heq => hk'.2 ?_)
        exact Message.withdraw.inj heq

end WKOpenVR.Withdrawal
