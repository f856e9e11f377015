import Mathlib.Data.Fin.VecNotation
import Mathlib.Data.Fintype.Pi
import WKOpenVR.Machine
import WKOpenVR.Ring

/-!
# The face-frame ring

The face-tracking host publishes frames to the driver through a ring of slots in
shared memory (`FaceTrackingFrameShmem`). A slot is a sequence lock: the writer
makes its generation odd, copies the body, and makes the generation even again;
a reader copies the body between two loads of the generation, and succeeds if
they give the same even value.

The writer is a process that may crash between any two of its stores, and is then
restarted on the same segment. It takes its next index from the segment (the C++
`Publish`) or counts by itself from the restart on (the C# `FrameWriter`). The
writer and any number of readers interleave store by store and load by load, the
body being copied word by word (`machine`).

* A `Publish` is completed by its last store, the one of the index. In every run
  in which no crash falls between the odd store of a generation and that store,
  and no read succeeds on the slot just made even before it, a body read
  successfully is the one of a completed `Publish` (`read_whole`).
* A crash between the odd and the even store leaves the generation odd. The next
  publishing on the slot then keeps it *even* while it copies, and a reader returns
  a body mixed of several (`torn_read_after_crash`).
-/

namespace WKOpenVR.Shmem.FaceFrame

open Function

/-- `FaceTrackingFrameShmem::RING_SIZE`. -/
abbrev ringSize : ℕ := 32

/-- The number of attempts of a read, `max_retries`. -/
def maxRetries : ℕ := 8

/-- Where the writer takes the next index from. -/
inductive IndexSource
  /-- The index in the segment (`Publish`). -/
  | shared
  /-- A counter of the writer, starting at zero (`FrameWriter`). -/
  | local
  deriving DecidableEq, Repr

/-- A frame body of `W` words. -/
abbrev Body (α : Type*) (W : ℕ) := Fin W → α

/-- A slot of the ring (`FaceTrackingFrameSlot`); the 64-bit generation does not
    overflow. -/
structure Slot (α : Type*) (W : ℕ) where
  generation : ℕ
  body : Body α W

/-- The writer: what it does next in `Publish`, with its local variables. -/
inductive Writer (α : Type*) (W : ℕ)
  | idle
  | loadGeneration (next : ℕ) (body : Body α W)
  | storeOdd (next : ℕ) (body : Body α W) (prevGen : ℕ)
  /-- Copying the body, `copied` words of it being copied; then the even store. -/
  | copyBody (next : ℕ) (body : Body α W) (prevGen copied : ℕ)
  /-- The generation is even again, and the index is stored last. -/
  | storeIndex (next : ℕ) (body : Body α W)

/-- A reader: what it does next in `TryReadLatestWire`, with its local variables,
    or what it has returned. -/
inductive Reader (α : Type*) (W : ℕ)
  | idle
  | loadFirst (pos attempts : ℕ) (out : Body α W)
  /-- Copying the body, `copied` words of it being copied; then the second load. -/
  | copyBody (pos attempts : ℕ) (out : Body α W) (g1 copied : ℕ)
  | failed
  | returned (out : Body α W)

/-- The segment, with the writer and the readers. -/
structure State (α : Type*) (W : ℕ) where
  publishIndex : ℕ
  slots : Ring ringSize (Slot α W)
  writer : Writer α W
  /-- `_localPublishIndex`. -/
  localIndex : ℕ
  readers : ℕ → Reader α W
  /-- The bodies in the order in which their generation has been made even. -/
  published : List (Body α W)
  /-- The bodies of the completed calls of `Publish`: their index has been stored. -/
  completed : List (Body α W)

variable {α : Type*} {W : ℕ}

def State.fresh (zero : α) : State α W where
  publishIndex := 0
  slots := .const _ ⟨0, fun _ => zero⟩
  writer := .idle
  localIndex := 0
  readers _ := .idle
  published := []
  completed := []

inductive Action (α : Type*) (W : ℕ)
  /-- The writer starts to publish a body: it takes the next index. -/
  | publish (body : Body α W)
  /-- The next store or load of the writer. -/
  | write
  /-- The writer crashes, and is restarted. -/
  | crash
  /-- The reader `i` starts a read into the buffer `out`: it loads the index. -/
  | startRead (i : ℕ) (out : Body α W)
  /-- The next load of the reader `i`. -/
  | read (i : ℕ)

variable (s : State α W)

/-- The next store or load of the writer. -/
def State.write : Option (State α W) :=
  match s.writer with
  | .idle => none
  | .loadGeneration next body =>
    some { s with writer := .storeOdd next body (s.slots.get (next - 1)).generation }
  | .storeOdd next body prevGen =>
    some { s with
      slots := s.slots.set (next - 1) { s.slots.get (next - 1) with generation := prevGen + 1 }
      writer := .copyBody next body prevGen 0 }
  | .copyBody next body prevGen copied =>
    if h : copied < W then
      let slot := s.slots.get (next - 1)
      some { s with
        slots := s.slots.set (next - 1)
          { slot with body := Function.update slot.body ⟨copied, h⟩ (body ⟨copied, h⟩) }
        writer := .copyBody next body prevGen (copied + 1) }
    else
      some { s with
        slots := s.slots.set (next - 1) { s.slots.get (next - 1) with generation := prevGen + 2 }
        writer := .storeIndex next body
        published := s.published ++ [body] }
  | .storeIndex next body => some { s with
      publishIndex := next
      writer := .idle
      completed := s.completed ++ [body] }

/-- The next load of a reader. -/
def State.readStep : Reader α W → Option (Reader α W)
  | .loadFirst _ 0 _ => some .failed
  | .loadFirst pos (attempts + 1) out =>
    let g1 := (s.slots.get pos).generation
    -- The writer is in the slot: try again.
    if g1 % 2 = 1 then some (.loadFirst pos attempts out)
    else some (.copyBody pos attempts out g1 0)
  | .copyBody pos attempts out g1 copied =>
    if h : copied < W then
      some (.copyBody pos attempts
        (Function.update out ⟨copied, h⟩ ((s.slots.get pos).body ⟨copied, h⟩)) g1 (copied + 1))
    else if (s.slots.get pos).generation = g1 then some (.returned out)
    else some (.loadFirst pos attempts out) -- The writer was in the slot meanwhile.
  | _ => none

/-- A reader starting a read: it fails if nothing has been published. -/
def State.startRead (out : Body α W) : Reader α W :=
  if s.publishIndex = 0 then .failed else .loadFirst (s.publishIndex - 1) maxRetries out

variable (src : IndexSource)

def step (s : State α W) : Action α W → Option (State α W)
  | .publish body =>
    match s.writer, src with
    | .idle, .shared => some { s with writer := .loadGeneration (s.publishIndex + 1) body }
    | .idle, .local => some { s with
        localIndex := s.localIndex + 1
        writer := .loadGeneration (s.localIndex + 1) body }
    | _, _ => none
  | .write => s.write
  | .crash => some { s with writer := .idle, localIndex := 0 }
  | .startRead i out =>
    match s.readers i with
    | .loadFirst .. | .copyBody .. => none
    | _ => some { s with readers := Function.update s.readers i (s.startRead out) }
  | .read i => (s.readStep (s.readers i)).map fun r =>
      { s with readers := Function.update s.readers i r }

def machine (zero : α) : Machine (State α W) (Action α W) where
  init := {.fresh zero}
  step := step src

variable (pos : ℕ)

/-- The generation of the slot at a position. -/
def State.gen : ℕ := (s.slots.get pos).generation

/-- The body in the slot at a position. -/
def State.body : Body α W := (s.slots.get pos).body

/-! ## Runs without a torn crash -/

/-- The writer is in a `Publish`, past the odd store. -/
def Writer.midWrite : Writer α W → Bool
  | .copyBody .. | .storeIndex .. => true
  | _ => false

/-- The `Publish` into the slot at `pos` has its last store left. -/
def Writer.finishing : Writer α W → Bool
  | .storeIndex next _ => pos % ringSize = (next - 1) % ringSize
  | _ => false

/-- If the next load of the reader makes its read succeed, then the `Publish` into the
    slot is completed. -/
def Reader.Settled : Reader α W → Prop
  | .copyBody pos _ _ g1 copied => ¬copied < W → s.gen pos = g1 → s.writer.finishing pos = false
  | _ => True

/-- No crash between the odd store and the last store of a `Publish`, and no read that
    succeeds on its slot between the even store and the last one. -/
def NoTornCrash : Action α W → Prop
  | .crash => s.writer.midWrite = false
  | .read i => (s.readers i).Settled s
  | _ => True

instance (s : State α W) (r : Reader α W) : Decidable (r.Settled s) := by
  cases r <;> unfold Reader.Settled <;> infer_instance

instance : DecidableRel (NoTornCrash (α := α) (W := W)) := fun s a => by
  cases a <;> unfold NoTornCrash <;> infer_instance

/-! ## The invariant -/

/-- What a reader knows: the slot it reads has been published; and while the
    generation is still the one loaded first, what it has copied is in the slot. -/
def Reader.Ok : Reader α W → Prop
  | .loadFirst pos _ _ => s.gen pos ≠ 0
  | .copyBody pos _ out g1 copied => g1 % 2 = 0 ∧ g1 ≠ 0 ∧ g1 ≤ s.gen pos ∧
      (s.gen pos = g1 → ∀ i : Fin W, i < copied → out i = s.body pos i)
  | _ => True

/-- The generation of a slot is odd exactly while the writer is copying into it. -/
def Writer.Ok : Writer α W → Prop
  | .storeOdd next _ prevGen => (∀ p, s.gen p % 2 = 0) ∧ s.gen (next - 1) = prevGen
  | .copyBody next body prevGen copied =>
    (∀ p, p % ringSize ≠ (next - 1) % ringSize → s.gen p % 2 = 0) ∧ prevGen % 2 = 0 ∧
      s.gen (next - 1) = prevGen + 1 ∧ ∀ i : Fin W, i < copied → s.body (next - 1) i = body i
  | .storeIndex next body =>
    (∀ p, s.gen p % 2 = 0) ∧ s.gen (next - 1) ≠ 0 ∧ s.body (next - 1) = body
  | _ => ∀ p, s.gen p % 2 = 0

structure Consistent (s : State α W) : Prop where
  writer : s.writer.Ok s
  /-- A slot with an even generation holds the body of a completed `Publish`, unless
      that has its last store left. -/
  whole : ∀ p, s.gen p % 2 = 0 → s.gen p ≠ 0 → s.writer.finishing p = false →
    s.body p ∈ s.completed
  index : s.publishIndex ≠ 0 → s.gen (s.publishIndex - 1) ≠ 0
  readers : ∀ i, (s.readers i).Ok s

theorem consistent_fresh (zero : α) : Consistent (State.fresh zero : State α W) where
  writer _ := rfl
  whole _ _ h _ := absurd rfl h
  index h := absurd rfl h
  readers _ := trivial

/-- What a step may do to the slots: generations grow, and a body changes only
    under an odd generation or with the generation. -/
structure Evolves (s s' : State α W) : Prop where
  gen_le : ∀ p, s.gen p ≤ s'.gen p
  body_eq : ∀ p, s.gen p % 2 = 0 → s'.gen p = s.gen p → s'.body p = s.body p

variable {s} {s' : State α W} {r : Reader α W}

/-- What a reader knows stays true. -/
theorem Reader.Ok.mono (h : r.Ok s) (he : Evolves s s') : r.Ok s' := by
  cases r with
  | loadFirst pos attempts out =>
    exact fun h0 => h (Nat.le_zero.1 (h0 ▸ he.gen_le pos))
  | copyBody pos attempts out g1 copied =>
    obtain ⟨heven, h0, hle, hout⟩ := h
    refine ⟨heven, h0, hle.trans (he.gen_le pos), fun hg i hi => ?_⟩
    -- Generations only grow, so this one has not changed in between.
    have hg' : s.gen pos = g1 := le_antisymm (hg ▸ he.gen_le pos) hle
    rw [he.body_eq pos (hg' ▸ heven) (hg.trans hg'.symm)]
    exact hout hg' i hi
  | _ => trivial

theorem Writer.finishing_of_not_midWrite {w : Writer α W} (h : w.midWrite = false) (p : ℕ) :
    w.finishing p = false := by
  cases w with
  | storeIndex next body => cases h
  | _ => rfl

variable {copied : ℕ}

/-- A word copied: one more word is right. -/
theorem copy_word {out src : Body α W} (hlt : copied < W)
    (h : ∀ i : Fin W, i < copied → out i = src i) (i : Fin W) (hi : (i : ℕ) < copied + 1) :
    update out ⟨copied, hlt⟩ (src ⟨copied, hlt⟩) i = src i := by
  by_cases hic : i = ⟨copied, hlt⟩
  · rw [hic, update_self]
  · rw [update_of_ne hic]
    exact h i (lt_of_le_of_ne (Nat.lt_succ_iff.1 hi) fun hv => hic (Fin.ext hv))

theorem copy_whole {out src : Body α W} (hlt : ¬copied < W)
    (h : ∀ i : Fin W, i < copied → out i = src i) : out = src :=
  funext fun i => h i (i.2.trans_le (not_lt.1 hlt))

theorem readStep_ok {r' : Reader α W} (hr : r.Ok s) (hs : s.readStep r = some r') : r'.Ok s := by
  cases r with
  | loadFirst pos attempts out =>
    cases attempts with
    | zero =>
      cases hs
      trivial
    | succ attempts =>
      simp only [State.readStep] at hs
      split_ifs at hs with hodd
      · cases hs
        exact hr
      · cases hs
        exact ⟨Nat.mod_two_ne_one.1 hodd, hr, le_rfl, fun _ i hi => absurd hi (Nat.not_lt_zero _)⟩
  | copyBody pos attempts out g1 copied =>
    obtain ⟨heven, h0, hle, hout⟩ := hr
    simp only [State.readStep] at hs
    split_ifs at hs with hlt hg
    · cases hs
      exact ⟨heven, h0, hle, fun hg => copy_word hlt (hout hg)⟩
    · cases hs
      trivial
    · cases hs
      exact fun hz => h0 (Nat.le_zero.1 (hz ▸ hle))
  | _ => simp [State.readStep] at hs

/-- A read that succeeds returns the body of a completed `Publish`. -/
theorem mem_completed_of_readStep (h : Consistent s) {out : Body α W} (hr : r.Ok s)
    (hsettled : r.Settled s) (hs : s.readStep r = some (.returned out)) : out ∈ s.completed := by
  cases r with
  | loadFirst pos attempts out' =>
    cases attempts with
    | zero => cases hs
    | succ attempts =>
      simp only [State.readStep] at hs
      split_ifs at hs <;> cases hs
  | copyBody pos attempts out' g1 copied =>
    obtain ⟨heven, h0, -, hout⟩ := hr
    simp only [State.readStep] at hs
    split_ifs at hs with hlt hg
    · cases hs
    · cases hs
      -- The generation has not changed: the copy is the body of the slot.
      have hg : s.gen pos = g1 := hg
      rw [copy_whole hlt (hout hg)]
      exact h.whole pos (hg ▸ heven) (hg ▸ h0) (hsettled hlt hg)
    · cases hs
  | _ => simp [State.readStep] at hs

section Set

variable {q : ℕ} {slot : Slot α W}

theorem gen_of_set (h : s'.slots = s.slots.set q slot) (p : ℕ) :
    s'.gen p = if p % ringSize = q % ringSize then slot.generation else s.gen p := by
  rw [State.gen, h, Ring.get_set]
  split_ifs <;> rfl

theorem body_of_set (h : s'.slots = s.slots.set q slot) (p : ℕ) :
    s'.body p = if p % ringSize = q % ringSize then slot.body else s.body p := by
  rw [State.body, h, Ring.get_set]
  split_ifs <;> rfl

theorem gen_congr {p : ℕ} (h : p % ringSize = q % ringSize) : s.gen p = s.gen q :=
  congrArg Slot.generation (s.slots.get_congr h)

theorem body_congr {p : ℕ} (h : p % ringSize = q % ringSize) : s.body p = s.body q :=
  congrArg Slot.body (s.slots.get_congr h)

theorem evolves_of_set (h : s'.slots = s.slots.set q slot) (hg : s.gen q ≤ slot.generation)
    (hb : s.gen q % 2 = 0 → slot.generation = s.gen q → slot.body = s.body q) :
    Evolves s s' := by
  refine ⟨fun p => ?_, fun p heven hgen => ?_⟩
  · rw [gen_of_set h]
    split_ifs with hpq
    · exact gen_congr hpq ▸ hg
    · exact le_rfl
  · rw [gen_of_set h] at hgen
    rw [body_of_set h]
    split_ifs at hgen ⊢ with hpq
    · rw [gen_congr hpq] at heven hgen
      rw [hb heven hgen, body_congr hpq]
    · rfl

end Set

/-- The common part of the stores to a slot. -/
theorem Consistent.of_set (h : Consistent s) {q : ℕ} {slot : Slot α W}
    (hset : s'.slots = s.slots.set q slot) (hindex : s'.publishIndex = s.publishIndex)
    (hreaders : s'.readers = s.readers) (hcompleted : s'.completed = s.completed)
    (hfinishing : ∀ p, s.writer.finishing p = false) (hg : s.gen q ≤ slot.generation)
    (hb : s.gen q % 2 = 0 → slot.generation = s.gen q → slot.body = s.body q)
    (hslot : slot.generation % 2 = 0 →
      ∀ p, p % ringSize = q % ringSize → s'.writer.finishing p = true)
    (hw : s'.writer.Ok s') : Consistent s' := by
  have he : Evolves s s' := evolves_of_set hset hg hb
  refine ⟨hw, fun p heven h0 hfin => ?_, fun hi h0 => ?_, fun i => ?_⟩
  · rw [gen_of_set hset] at heven h0
    rw [body_of_set hset]
    split_ifs at heven h0 ⊢ with hpq
    · exact absurd (hslot heven p hpq) (Bool.eq_false_iff.1 hfin)
    · exact hcompleted ▸ h.whole p heven h0 (hfinishing p)
  · rw [hindex] at hi h0
    exact h.index hi (Nat.le_zero.1 (h0 ▸ he.gen_le _))
  · rw [hreaders]
    exact (h.readers i).mono he

section Write

variable {next prevGen : ℕ} {body : Body α W}

/-- The odd store: what readers have copied from the slot becomes void. -/
theorem Consistent.storeOdd (h : Consistent s) (hwriter : s.writer = .storeOdd next body prevGen) :
    Consistent { s with
      slots := s.slots.set (next - 1) { s.slots.get (next - 1) with generation := prevGen + 1 }
      writer := .copyBody next body prevGen 0 } := by
  have hw := h.writer
  rw [hwriter] at hw
  obtain ⟨heven, hprev⟩ := hw
  have hodd : prevGen % 2 = 0 := hprev ▸ heven (next - 1)
  refine h.of_set rfl rfl rfl rfl (hwriter ▸ fun _ => rfl) (hprev ▸ Nat.le_succ _) (fun _ hg => ?_)
    (fun hg => ?_) ⟨fun p hp => ?_, hodd, ?_, fun i hi => absurd hi (Nat.not_lt_zero _)⟩
  · have hg : prevGen + 1 = s.gen (next - 1) := hg
    omega
  · have hg : (prevGen + 1) % 2 = 0 := hg
    omega
  · rw [gen_of_set rfl, if_neg hp]
    exact heven p
  · rw [gen_of_set rfl, if_pos rfl]

/-- A word stored, under an odd generation. -/
theorem Consistent.storeWord (h : Consistent s) (hlt : copied < W)
    (hwriter : s.writer = .copyBody next body prevGen copied) :
    Consistent { s with
      slots := s.slots.set (next - 1) { s.slots.get (next - 1) with
        body := update (s.slots.get (next - 1)).body ⟨copied, hlt⟩ (body ⟨copied, hlt⟩) }
      writer := .copyBody next body prevGen (copied + 1) } := by
  have hw := h.writer
  rw [hwriter] at hw
  obtain ⟨heven, hprev, hodd, hcopied⟩ := hw
  -- The generation is odd, so the slot is neither read nor whole.
  have hslot : s.gen (next - 1) % 2 ≠ 0 := by omega
  refine h.of_set rfl rfl rfl rfl (hwriter ▸ fun _ => rfl) le_rfl (fun hg => absurd hg hslot)
    (fun hg => absurd hg hslot) ⟨fun p hp => ?_, hprev, ?_, fun i hi => ?_⟩
  · rw [gen_of_set rfl, if_neg hp]
    exact heven p hp
  · rw [gen_of_set rfl, if_pos rfl]
    exact hodd
  · rw [body_of_set rfl, if_pos rfl]
    exact copy_word hlt hcopied i hi

/-- The even store: the slot holds the whole body, and the index is left to be stored. -/
theorem Consistent.storeEven (h : Consistent s) (hlt : ¬copied < W)
    (hwriter : s.writer = .copyBody next body prevGen copied) :
    Consistent { s with
      slots := s.slots.set (next - 1) { s.slots.get (next - 1) with generation := prevGen + 2 }
      writer := .storeIndex next body
      published := s.published ++ [body] } := by
  have hw := h.writer
  rw [hwriter] at hw
  obtain ⟨heven, hprev, hodd, hcopied⟩ := hw
  -- The copy is complete, and the generation is one that no reader has seen.
  have hwhole : s.body (next - 1) = body := copy_whole hlt hcopied
  refine h.of_set rfl rfl rfl rfl (hwriter ▸ fun _ => rfl) (hodd ▸ Nat.le_succ _) (fun hg => ?_)
    (fun _ p hp => decide_eq_true hp) ⟨fun p => ?_, ?_, ?_⟩
  · omega
  · rw [gen_of_set rfl]
    split_ifs with hp
    · exact (Nat.add_mod_right prevGen 2).trans hprev
    · exact heven p hp
  · rw [gen_of_set rfl, if_pos rfl]
    exact Nat.succ_ne_zero _
  · rw [body_of_set rfl, if_pos rfl]
    exact hwhole

/-- The last store: the body in the slot is the one of a completed `Publish`. -/
theorem Consistent.storeIndex (h : Consistent s) (hwriter : s.writer = .storeIndex next body) :
    Consistent { s with
      publishIndex := next
      writer := .idle
      completed := s.completed ++ [body] } := by
  have hw := h.writer
  rw [hwriter] at hw
  obtain ⟨heven, h0, hbody⟩ := hw
  refine ⟨heven, fun p hp hp0 _ => ?_, fun _ => h0, h.readers⟩
  cases hfin : s.writer.finishing p with
  | true =>
    rw [hwriter] at hfin
    have hslot : s.body p = body := (body_congr (of_decide_eq_true hfin)).trans hbody
    exact List.mem_append_right _ (List.mem_singleton.2 hslot)
  | false => exact List.mem_append_left _ (h.whole p hp hp0 hfin)

end Write

theorem Consistent.write (h : Consistent s) (hs : s.write = some s') : Consistent s' := by
  have hw := h.writer
  rw [State.write] at hs
  cases hwriter : s.writer with
  | idle => simp [hwriter] at hs
  | loadGeneration next body =>
    have hwhole := h.whole
    rw [hwriter] at hs hw hwhole
    cases hs
    exact ⟨⟨hw, rfl⟩, hwhole, h.index, h.readers⟩
  | storeOdd next body prevGen =>
    rw [hwriter] at hs
    exact Option.some.inj hs ▸ h.storeOdd hwriter
  | copyBody next body prevGen copied =>
    rw [hwriter] at hs
    dsimp only at hs
    split_ifs at hs with hlt
    · exact Option.some.inj hs ▸ h.storeWord hlt hwriter
    · exact Option.some.inj hs ▸ h.storeEven hlt hwriter
  | storeIndex next body =>
    rw [hwriter] at hs
    exact Option.some.inj hs ▸ h.storeIndex hwriter

/-- The writer leaves the readers as they are, and forgets no body. -/
theorem write_frame (hs : s.write = some s') :
    s'.readers = s.readers ∧ s.published <+: s'.published ∧ s.completed ⊆ s'.completed := by
  rw [State.write] at hs
  cases hwriter : s.writer with
  | idle => simp [hwriter] at hs
  | copyBody next body prevGen copied =>
    rw [hwriter] at hs
    dsimp only at hs
    split_ifs at hs
    · cases hs
      exact ⟨rfl, List.prefix_rfl, List.Subset.refl _⟩
    · cases hs
      exact ⟨rfl, List.prefix_append _ _, List.Subset.refl _⟩
  | storeIndex next body =>
    rw [hwriter] at hs
    cases hs
    exact ⟨rfl, List.prefix_rfl, List.subset_append_left ..⟩
  | _ =>
    rw [hwriter] at hs
    cases hs
    exact ⟨rfl, List.prefix_rfl, List.Subset.refl _⟩

theorem Consistent.update_readers {i : ℕ} (h : Consistent s) (hr : r.Ok s)
    (j : ℕ) : (update s.readers i r j).Ok s := by
  by_cases hj : j = i
  · rw [hj, update_self]
    exact hr
  · rw [update_of_ne hj]
    exact h.readers j

/-- Every step that is not a crash in the middle of a `Publish` keeps the invariant. -/
theorem Consistent.step {src : IndexSource} {a : Action α W} (h : Consistent s)
    (ha : a = .crash → s.writer.midWrite = false) (hs : step src s a = some s') :
    Consistent s' := by
  have hwhole (hmid : s.writer.midWrite = false) (p : ℕ) (heven : s.gen p % 2 = 0)
      (h0 : s.gen p ≠ 0) : s.body p ∈ s.completed :=
    h.whole p heven h0 (Writer.finishing_of_not_midWrite hmid p)
  have hw := h.writer
  cases a with
  | publish body =>
    cases hwriter : s.writer <;> cases src <;> simp only [FaceFrame.step, hwriter] at hs hw
    all_goals cases hs
    · exact ⟨hw, fun p heven h0 _ => hwhole (hwriter ▸ rfl) p heven h0, h.index, h.readers⟩
    · exact ⟨hw, fun p heven h0 _ => hwhole (hwriter ▸ rfl) p heven h0, h.index, h.readers⟩
  | write => exact h.write hs
  | crash =>
    cases hs
    refine ⟨?_, fun p heven h0 _ => hwhole (ha rfl) p heven h0, h.index, h.readers⟩
    -- Outside of a write, all generations are even.
    have hmid := ha rfl
    cases hwriter : s.writer <;> simp only [hwriter, Writer.midWrite] at hw hmid
    · exact hw
    · exact hw
    · exact hw.1
    · cases hmid
    · cases hmid
  | startRead i out =>
    have hok : (s.startRead out).Ok s := by
      rw [State.startRead]
      split_ifs with h0
      · trivial
      · exact h.index h0
    simp only [FaceFrame.step] at hs
    split at hs <;> cases hs
    exact ⟨hw, h.whole, h.index, h.update_readers hok⟩
  | read i =>
    obtain ⟨r, hr, rfl⟩ := Option.map_eq_some_iff.1 hs
    exact ⟨hw, h.whole, h.index, h.update_readers (readStep_ok (h.readers i) hr)⟩

/-- What the readers have returned are bodies of completed calls of `Publish`. -/
def Delivered (s : State α W) : Prop :=
  ∀ i out, s.readers i = .returned out → out ∈ s.completed

theorem Delivered.update {i : ℕ} (hd : Delivered s)
    (hr : ∀ out, r = .returned out → out ∈ s.completed) :
    Delivered { s with readers := update s.readers i r } := by
  intro j out hj
  by_cases hji : j = i
  · rw [hji] at hj
    exact hr out ((update_self i r s.readers).symm.trans hj)
  · exact hd j out ((update_of_ne hji r s.readers).symm.trans hj)

theorem Delivered.step {src : IndexSource} {a : Action α W} (hd : Delivered s)
    (h : Consistent s) (ha : NoTornCrash s a) (hs : step src s a = some s') : Delivered s' := by
  cases a with
  | publish body =>
    simp only [FaceFrame.step] at hs
    split at hs <;> cases hs <;> exact hd
  | write =>
    obtain ⟨hreaders, -, hcompleted⟩ := write_frame hs
    exact fun i out hout => hcompleted (hd i out (hreaders ▸ hout))
  | crash =>
    cases hs
    exact hd
  | startRead i out =>
    simp only [FaceFrame.step] at hs
    split at hs <;> cases hs
    refine hd.update fun out' hout => ?_
    -- A read that starts has returned nothing yet.
    rw [State.startRead] at hout
    split_ifs at hout
  | read i =>
    obtain ⟨r, hr, rfl⟩ := Option.map_eq_some_iff.1 hs
    exact hd.update fun out hout =>
      mem_completed_of_readStep h (h.readers i) ha (hout ▸ hr)

/-- Whole reads: in every run without a crash between the odd store and the last store
    of a `Publish`, in which no read succeeds on a slot between the even store and the
    last one, a body that a reader has returned is the body of a completed `Publish`. -/
theorem read_whole (src : IndexSource) (zero : α) (as : List (Action α W)) (s : State α W)
    (h : (machine src zero).RunIf NoTornCrash as s) (i : ℕ) (out : Body α W)
    (hout : s.readers i = .returned out) : out ∈ s.completed := by
  have hinit (s : State α W) (hs : s ∈ (machine src zero).init) : Consistent s ∧ Delivered s := by
    obtain rfl : s = _ := hs
    exact ⟨consistent_fresh zero, fun _ _ hr => nomatch hr⟩
  have hinv : Consistent s ∧ Delivered s := h.invariant hinit fun _ a _ hi ha hs =>
    ⟨hi.1.step (fun hcrash => by subst hcrash; exact ha) hs, hi.2.step hi.1 ha hs⟩
  exact hinv.2 i out hout

/-! ## A crash in the middle of a write -/

/-- A whole publishing of a body of two words. -/
def publishActions (body : Body ℕ 2) : List (Action ℕ 2) :=
  .publish body :: List.replicate 6 .write

/-- A whole read of the reader `0`. -/
def readActions : List (Action ℕ 2) :=
  .startRead 0 ![0, 0] :: List.replicate 4 (.read 0)

/-- The reader `0` has returned a body with the property `p`. -/
def State.returnedWith (s : State ℕ 2) (p : Body ℕ 2 → Bool) : Bool :=
  match s.readers 0 with
  | .returned out => p out
  | _ => false

theorem State.exists_of_returnedWith {s : State ℕ 2} {p : Body ℕ 2 → Bool}
    (h : s.returnedWith p) : ∃ out, s.readers 0 = .returned out ∧ p out := by
  cases hr : s.readers 0 <;> simp_all [State.returnedWith]

/-- `read_whole` on a run with a crash after the first publishing: the writer starts
    over at the first slot, and the reader returns the second body. -/
theorem read_whole_after_crash : ∃ s : State ℕ 2,
    (machine .local 0).RunIf NoTornCrash
      (publishActions ![7, 7] ++ .crash :: publishActions ![8, 8] ++ readActions) s ∧
    s.readers 0 = .returned ![8, 8] ∧ ![8, 8] ∈ s.completed := by
  refine Machine.exists_runIf_of _
    (P := (·.returnedWith (fun out => decide (out = ![8, 8])) = true))
    (.fresh 0) (by rfl) (by decide) fun s hrun hs => ?_
  obtain ⟨out, hout, hp⟩ := State.exists_of_returnedWith hs
  obtain rfl := of_decide_eq_true hp
  exact ⟨hout, read_whole _ _ _ s hrun 0 _ hout⟩

/-- Three publishings on the first slot, with a crash before each further one: the
    second writer crashes after the first word. The third makes the odd generation
    even, and a read completes when its first word is copied. -/
def tornActions : List (Action ℕ 2) :=
  publishActions ![7, 7] ++ Action.crash ::
    .publish ![8, 8] :: List.replicate 3 Action.write ++ Action.crash ::
    .publish ![9, 9] :: List.replicate 3 Action.write ++ readActions

/-- A read may return a body of which each word comes from another publishing, and which
    is not the body of any. -/
theorem torn_read_after_crash : ∃ s : State ℕ 2,
    (machine .local 0).Run tornActions s ∧
    s.readers 0 = .returned ![9, 7] ∧ ![9, 7] ∉ s.completed := by
  obtain ⟨s, hrun, hs⟩ : ∃ s : State ℕ 2, (machine .local 0).Run tornActions s ∧
      s.returnedWith (fun out => decide (out = ![9, 7] ∧ out ∉ s.completed)) = true :=
    Machine.exists_runIf _ (.fresh 0) (by rfl) (by decide)
  obtain ⟨out, hout, hp⟩ := State.exists_of_returnedWith hs
  obtain ⟨rfl, hnot⟩ := of_decide_eq_true hp
  exact ⟨s, hrun, hout, hnot⟩

end WKOpenVR.Shmem.FaceFrame
