import Mathlib.Algebra.GroupWithZero.Nat
import Mathlib.Data.Fin.Basic
import Mathlib.Data.List.Basic
import Mathlib.Tactic.Cases

/-!
# Rings

A *ring* has `N` cells, addressed by position modulo `N` (`Ring.get`,
`Ring.set`). A ring written at consecutive positions holds the last `N` values
of what was written (`Ring.Holds`, kept by `Holds.set`): the history is a list,
and the ring agrees with it on the last `N` positions.

A *ring queue* (`RingQueue`) is a ring with the positions of its first value and of the
next free cell: a queue of at most `N` values, with the list of its values in order
(`RingQueue.toList`).
-/

namespace WKOpenVR

open List

/-- A ring of `N` cells with values in `α`. -/
structure Ring (N : ℕ) (α : Type*) where
  cells : Fin N → α

namespace Ring

variable {N : ℕ} [NeZero N] {α : Type*} {i j : ℕ} (r : Ring N α) (a : α)

/-- The ring whose cells all hold `a`. -/
def const (N : ℕ) (a : α) : Ring N α := ⟨fun _ => a⟩

/-- The value at position `i`, modulo `N`. -/
def get (r : Ring N α) (i : ℕ) : α := r.cells (Fin.ofNat N i)

/-- The ring with `a` written at position `i`, modulo `N`. -/
def set (r : Ring N α) (i : ℕ) (a : α) : Ring N α :=
  ⟨Function.update r.cells (Fin.ofNat N i) a⟩

@[simp] theorem get_set_self (i : ℕ) (a : α) : (r.set i a).get i = a :=
  Function.update_self ..

theorem get_set_of_mod_ne (h : i % N ≠ j % N) : (r.set j a).get i = r.get i :=
  Function.update_of_ne (fun he => h (by simpa [Fin.ext_iff] using he)) ..

/-- Positions that agree modulo `N` are the same cell. -/
theorem get_congr (h : i % N = j % N) : r.get i = r.get j :=
  congrArg r.cells (by simpa [Fin.ext_iff] using h)

theorem set_congr (h : i % N = j % N) : r.set i a = r.set j a := by
  have hcell : Fin.ofNat N i = Fin.ofNat N j := by simpa [Fin.ext_iff] using h
  rw [set, set, hcell]

theorem get_set (i j : ℕ) (a : α) : (r.set j a).get i = if i % N = j % N then a else r.get i := by
  split_ifs with h
  · rw [get_congr _ h, get_set_self]
  · exact get_set_of_mod_ne r a h

/-- Writing at `j` keeps the `N - 1` positions before it. -/
theorem get_set_of_lt (hij : i < j) (hj : j < i + N) : (r.set j a).get i = r.get i := by
  refine get_set_of_mod_ne r a fun h => ?_
  have hmod : (j - i) % N = 0 := Nat.sub_mod_eq_zero_of_mod_eq h.symm
  rw [Nat.mod_eq_of_lt (by omega)] at hmod
  omega

/-- The ring holds the last `N` values of the history `l`. -/
def Holds (r : Ring N α) (l : List α) : Prop :=
  ∀ i (hi : i < l.length), l.length ≤ i + N → r.get i = l[i]

/-- A ring of equal cells holds a history of one value. -/
theorem holds_const : (const N a).Holds [a] := by
  intro i hi _
  obtain rfl : i = 0 := by simpa using hi
  rfl

/-- Writing at the end of the history. -/
theorem Holds.set {r : Ring N α} {l : List α} (h : r.Holds l) (a : α) :
    (r.set l.length a).Holds (l ++ [a]) := by
  intro i hi hN
  rw [length_append, length_singleton] at hi hN
  rcases Nat.lt_succ_iff_lt_or_eq.1 hi with hlt | rfl
  · rw [get_set_of_lt r a hlt (by omega), h i hlt (by omega), getElem_append_left hlt]
  · rw [get_set_self, getElem_concat_length rfl]

end Ring

/-- A queue of at most `N` values in a ring. -/
structure RingQueue (N : ℕ) (α : Type*) where
  ring : Ring N α
  head : ℕ
  tail : ℕ
  count : ℕ
  count_le : count ≤ N
  tail_eq : tail = (head + count) % N

namespace RingQueue

variable {N : ℕ} [NeZero N] {α : Type*} {q : RingQueue N α}

/-- The queue with `a` at its end, if there is room. -/
def push? (q : RingQueue N α) (a : α) : Option (RingQueue N α) :=
  if h : q.count ≥ N then none
  else some
    { ring := q.ring.set q.tail a
      head := q.head
      tail := (q.tail + 1) % N
      count := q.count + 1
      count_le := by omega
      tail_eq := by rw [q.tail_eq, Nat.mod_add_mod, Nat.add_assoc] }

/-- The first value of the queue, and the queue without it. -/
def pop? (q : RingQueue N α) : Option (α × RingQueue N α) :=
  if h : q.count = 0 then none
  else some (q.ring.get q.head,
    { ring := q.ring
      head := (q.head + 1) % N
      tail := q.tail
      count := q.count - 1
      count_le := by have := q.count_le; omega
      tail_eq := by
        rw [q.tail_eq, Nat.mod_add_mod]
        congr 1
        omega })

/-- The values of the queue, the first one first. -/
def toList (q : RingQueue N α) : List α :=
  (List.range q.count).map fun i => q.ring.get (q.head + i)

@[simp] theorem length_toList (q : RingQueue N α) : q.toList.length = q.count := by simp [toList]

theorem push?_eq_none {a : α} : q.push? a = none ↔ q.count = N := by
  have hle := q.count_le
  unfold push?
  split_ifs with h
  · simp only [true_iff]
    omega
  · simp only [false_iff]
    omega

variable {q' : RingQueue N α}

theorem toList_push {a : α} (h : q.push? a = some q') : q'.toList = q.toList ++ [a] := by
  unfold push? at h
  split_ifs at h with hroom
  cases h
  have hset : q.ring.set q.tail a = q.ring.set (q.head + q.count) a :=
    q.ring.set_congr a (by rw [q.tail_eq, Nat.mod_mod])
  simp only [toList, hset, range_succ, map_append, map_singleton, Ring.get_set_self]
  congr 1
  refine map_congr_left fun i hi => ?_
  rw [mem_range] at hi
  exact q.ring.get_set_of_lt a (by omega) (by omega)

theorem toList_pop {a : α} (h : q.pop? = some (a, q')) : q.toList = a :: q'.toList := by
  unfold pop? at h
  split_ifs at h with hempty
  cases h
  obtain ⟨n, hn⟩ := Nat.exists_eq_succ_of_ne_zero hempty
  simp only [toList, hn, range_succ_eq_map, map_cons, map_map, Nat.add_zero,
    Nat.succ_sub_one, List.cons.injEq, true_and]
  refine map_congr_left fun i _ => q.ring.get_congr ?_
  rw [Nat.mod_add_mod]
  congr 1
  omega

end RingQueue

end WKOpenVR
