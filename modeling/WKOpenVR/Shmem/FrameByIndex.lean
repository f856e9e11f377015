import WKOpenVR.Shmem.FaceFrame

/-!
# Face frames by index

A reader may also ask for a frame by its number (`TryReadWireByIndex`). It checks against the
index of the segment, once and before it reads, that the frame has been published and is still in
the ring. Then it reads the slot of the frame like any other, with two loads of the generation.

The generations tell it whether the slot has changed between the two loads, but not whether it
was written since the index was loaded. A frame that is published in the meantime, as many as
there are slots after the one asked for, is returned in its place (`overwritten_frame_returned`).
In every run in which that frame has not been published when a read succeeds, the body returned
is the one that was published as the frame asked for (`read_by_index`).

There are no crashes here, and the writer takes the next index from the segment: the frames are
numbered as they were published.
-/

namespace WKOpenVR.Shmem.FaceFrame

open Option Function

variable {α : Type*} {W : ℕ}

/-- The segment, with the number of the frame that each reader asks for. -/
structure Indexed (α : Type*) (W : ℕ) where
  ring : State α W
  targets : ℕ → ℕ

/-- A reader starting to read the frame `target`. -/
def State.startReadByIndex (s : State α W) (target maxRetries : ℕ) (out : Body α W) :
    Reader α W :=
  if target = 0 then .failed
  else if s.publishIndex < target then .failed
  else if ringSize ≤ s.publishIndex - target then .failed
  else .loadFirst (target - 1) maxRetries out

namespace Indexed

inductive Action (α : Type*) (W : ℕ)
  /-- The writer starts to publish a body. -/
  | publish (body : Body α W)
  /-- The next store or load of the writer. -/
  | write
  /-- The reader `i` asks for the frame `target`, into the buffer `out`. -/
  | startRead (i target maxRetries : ℕ) (out : Body α W)
  /-- The next load of the reader `i`. -/
  | read (i : ℕ)

def step (s : Indexed α W) : Action α W → Option (Indexed α W)
  | .publish body => (FaceFrame.step .shared s.ring (.publish body)).map ({ s with ring := · })
  | .write => (FaceFrame.step .shared s.ring .write).map ({ s with ring := · })
  | .startRead i target maxRetries out =>
    match s.ring.readers i with
    | .loadFirst .. | .copyBody .. => none
    | _ => some
        { ring := { s.ring with
            readers := Function.update s.ring.readers i
              (s.ring.startReadByIndex target maxRetries out) }
          targets := Function.update s.targets i target }
  | .read i => (FaceFrame.step .shared s.ring (.read i)).map ({ s with ring := · })

def machine (zero : α) : Machine (Indexed α W) (Action α W) where
  init := {⟨.fresh zero, fun _ => 0⟩}
  step := step

end Indexed

variable (s : State α W)

/-- The next load of the reader is the second one of the generation, which gives the same. -/
def Reader.Succeeds : Reader α W → Prop
  | .copyBody pos _ _ g1 copied => ¬copied < W ∧ s.gen pos = g1
  | .idle | .loadFirst .. | .failed | .returned _ => False

instance (s : State α W) (r : Reader α W) : Decidable (r.Succeeds s) :=
  match r with
  | .copyBody .. => inferInstanceAs (Decidable (_ ∧ _))
  | .idle | .loadFirst .. | .failed | .returned _ => inferInstanceAs (Decidable False)

/-- When a read succeeds, the frame that takes the slot of the one asked for has not been
published. -/
def NotOverwritten (s : Indexed α W) : Indexed.Action α W → Prop
  | .read i => (s.ring.readers i).Succeeds s.ring →
      s.ring.published.length < s.targets i + ringSize
  | _ => True

instance : DecidableRel (NotOverwritten (α := α) (W := W)) := fun s a => by
  cases a <;> unfold NotOverwritten <;> infer_instance

/-! ## The numbers of the frames -/

/-- The number of the frame that the writer publishes. -/
def Writer.Numbered : Writer α W → Prop
  | .idle => s.publishIndex = s.published.length
  | .loadGeneration next _ | .storeOdd next _ _ | .copyBody next _ _ _ =>
    s.publishIndex = s.published.length ∧ next = s.published.length + 1
  | .storeIndex next _ => s.publishIndex + 1 = s.published.length ∧ next = s.published.length

/-- The slots hold the last frames published, except for the one being written. -/
structure Numbered (s : State α W) : Prop where
  writer : s.writer.Numbered s
  written : ∀ p < s.published.length, s.gen p ≠ 0
  last : ∀ p b, s.published[p]? = some b → s.published.length ≤ p + ringSize →
    s.gen p % 2 = 0 → s.body p = b

/-- The reader reads the slot of the frame it asks for, or has returned that frame. -/
def Reader.Aims (target : ℕ) : Reader α W → Prop
  | .loadFirst pos _ _ | .copyBody pos _ _ _ _ => pos + 1 = target ∧ target ≤ s.published.length
  | .returned out => 0 < target ∧ s.published[target - 1]? = some out
  | _ => True

variable {s} {s' : State α W} {target : ℕ}

theorem numbered_fresh (zero : α) : Numbered (State.fresh zero : State α W) where
  writer := rfl
  written p hp := absurd hp (Nat.not_lt_zero p)
  last p b hb := by simp [State.fresh] at hb

theorem Numbered.publishIndex_le (h : Numbered s) : s.publishIndex ≤ s.published.length := by
  have hw := h.writer
  cases hwriter : s.writer <;> simp only [hwriter, Writer.Numbered] at hw <;> omega

/-- A store to the slot of the frame being written, under an odd generation. -/
theorem Numbered.of_odd_set (h : Numbered s) {q : ℕ} {slot : Slot α W}
    (hset : s'.slots = s.slots.set q slot) (hpublished : s'.published = s.published)
    (hodd : slot.generation % 2 = 1) (hw : s'.writer.Numbered s') : Numbered s' := by
  refine ⟨hw, fun p hp => ?_, fun p b hb hlast heven => ?_⟩
  · rw [gen_of_set hset]
    split_ifs
    · omega
    · exact h.written p (hpublished ▸ hp)
  · rw [hpublished] at hb hlast
    rw [gen_of_set hset] at heven
    rw [body_of_set hset]
    split_ifs at heven ⊢
    · omega
    · exact h.last p b hb hlast heven

/-- The even store: the slot holds the next frame. -/
theorem Numbered.storeEven (h : Numbered s) (hc : Consistent s) {next prevGen copied : ℕ}
    {body : Body α W} (hwriter : s.writer = .copyBody next body prevGen copied)
    (hlt : ¬copied < W) :
    Numbered { s with
      slots := s.slots.set (next - 1) { s.slots.get (next - 1) with generation := prevGen + 2 }
      writer := .storeIndex next body
      published := s.published ++ [body] } := by
  have hw := h.writer
  have hok := hc.writer
  rw [hwriter] at hw hok
  obtain ⟨hindex, hnext⟩ := hw
  obtain ⟨-, -, -, hcopied⟩ := hok
  have hwhole : s.body (next - 1) = body := copy_whole hlt hcopied
  have hlength : (s.published ++ [body]).length = s.published.length + 1 := List.length_append
  refine ⟨⟨?_, ?_⟩, fun p hp => ?_, fun p b hb hlast heven => ?_⟩
  · rw [hlength, hindex]
  · rw [hlength, hnext]
  · rw [gen_of_set rfl]
    split_ifs with hslot
    · exact Nat.succ_ne_zero _
    · refine h.written p ?_
      rw [hlength] at hp
      rw [hnext, Nat.add_sub_cancel] at hslot
      exact lt_of_le_of_ne (Nat.lt_succ_iff.1 hp) fun heq => hslot (heq ▸ rfl)
  · have hp : p < s.published.length + 1 := hlength ▸ (List.getElem?_eq_some_iff.1 hb).1
    rw [hlength] at hlast
    rw [gen_of_set rfl] at heven
    rw [body_of_set rfl]
    rw [hnext, Nat.add_sub_cancel] at hwhole heven ⊢
    split_ifs at heven ⊢ with hslot
    · -- The last frames are in different slots.
      obtain rfl : p = s.published.length := by
        have hslot' : p % 32 = s.published.length % 32 := hslot
        have hlast' : s.published.length + 1 ≤ p + 32 := hlast
        omega
      rw [List.getElem?_concat_length] at hb
      exact hwhole.trans (some.inj hb)
    · have hne : p ≠ s.published.length := fun heq => hslot (heq ▸ rfl)
      have hold : p < s.published.length := lt_of_le_of_ne (Nat.lt_succ_iff.1 hp) hne
      rw [List.getElem?_append_left hold] at hb
      exact h.last p b hb (by omega) heven

theorem Numbered.write (h : Numbered s) (hc : Consistent s) (hs : s.write = some s') :
    Numbered s' := by
  have hw := h.writer
  have hok := hc.writer
  rw [State.write] at hs
  cases hwriter : s.writer with
  | idle => simp [hwriter] at hs
  | loadGeneration next body =>
    rw [hwriter] at hs hw
    cases hs
    exact ⟨hw, h.written, h.last⟩
  | storeOdd next body prevGen =>
    rw [hwriter] at hs hw hok
    cases hs
    refine h.of_odd_set rfl rfl ?_ hw
    have heven : prevGen % 2 = 0 := hok.2 ▸ hok.1 (next - 1)
    change (prevGen + 1) % 2 = 1
    omega
  | copyBody next body prevGen copied =>
    rw [hwriter] at hs hw hok
    dsimp only at hs
    split_ifs at hs with hlt
    · cases hs
      obtain ⟨-, heven, hodd, -⟩ := hok
      refine h.of_odd_set rfl rfl ?_ hw
      change s.gen (next - 1) % 2 = 1
      omega
    · exact some.inj hs ▸ h.storeEven hc hwriter hlt
  | storeIndex next body =>
    rw [hwriter] at hs hw
    cases hs
    exact ⟨hw.2, h.written, h.last⟩

/-! ## Readers -/

theorem Reader.Aims.mono {r : Reader α W} (h : r.Aims s target)
    (hpublished : s.published <+: s'.published) : r.Aims s' target := by
  cases r with
  | loadFirst _ _ _ | copyBody _ _ _ _ _ => exact ⟨h.1, h.2.trans hpublished.length_le⟩
  | returned out =>
    obtain ⟨later, hlater⟩ := hpublished
    refine ⟨h.1, ?_⟩
    rw [← hlater, List.getElem?_append_left (List.getElem?_eq_some_iff.1 h.2).1]
    exact h.2
  | _ => trivial

theorem aims_startReadByIndex (h : Numbered s) (target maxRetries : ℕ) (out : Body α W) :
    (s.startReadByIndex target maxRetries out).Aims s target := by
  have hindex := h.publishIndex_le
  rw [State.startReadByIndex]
  split_ifs with hzero hindex' hring
  · trivial
  · trivial
  · trivial
  · exact ⟨by omega, by omega⟩

theorem ok_startReadByIndex (h : Numbered s) (target maxRetries : ℕ) (out : Body α W) :
    (s.startReadByIndex target maxRetries out).Ok s := by
  have hindex := h.publishIndex_le
  rw [State.startReadByIndex]
  split_ifs with hzero hindex' hring
  · trivial
  · trivial
  · trivial
  · exact h.written (target - 1) (by omega)

/-- A load of a reader: if it returns what it has copied, then that is the frame it asked for,
unless a later one took its slot. -/
theorem aims_readStep (h : Numbered s) {r r' : Reader α W} (hok : r.Ok s) (hr : r.Aims s target)
    (hover : r.Succeeds s → s.published.length < target + ringSize)
    (hs : s.readStep r = some r') : r'.Aims s target := by
  cases r with
  | loadFirst pos attempts out =>
    cases attempts with
    | zero =>
      cases hs
      trivial
    | succ attempts =>
      simp only [State.readStep] at hs
      split_ifs at hs
      · cases hs
        exact hr
      · cases hs
        exact hr
  | copyBody pos attempts out g1 copied =>
    obtain ⟨heven, -, -, hout⟩ := hok
    simp only [State.readStep] at hs
    split_ifs at hs with hlt hg
    · cases hs
      exact hr
    · cases hs
      obtain ⟨rfl, hle⟩ := hr
      have hring : s.published.length ≤ pos + ringSize := by
        have hlast := hover ⟨hlt, hg⟩
        omega
      -- The slot has not changed since the first load, and holds the last frame it can hold.
      have hg : s.gen pos = g1 := hg
      have hframe := List.getElem?_eq_getElem (Nat.lt_of_succ_le hle)
      refine ⟨Nat.succ_pos pos, ?_⟩
      rw [Nat.add_sub_cancel, hframe, copy_whole hlt (hout hg),
        h.last pos _ hframe hring (hg ▸ heven)]
    · cases hs
      exact hr
  | _ => simp [State.readStep] at hs

/-! ## Whole runs -/

namespace Indexed

structure Inv (s : Indexed α W) : Prop where
  consistent : Consistent s.ring
  numbered : Numbered s.ring
  readers : ∀ i, (s.ring.readers i).Aims s.ring (s.targets i)

theorem Inv.update_readers {s : Indexed α W} (h : Inv s) {i target : ℕ} {r : Reader α W}
    (hr : r.Aims s.ring target) (j : ℕ) :
    (update s.ring.readers i r j).Aims s.ring (update s.targets i target j) := by
  by_cases hj : j = i
  · rw [hj, update_self, update_self]
    exact hr
  · rw [update_of_ne hj, update_of_ne hj]
    exact h.readers j

theorem Inv.step {s s' : Indexed α W} {a : Action α W} (h : Inv s) (ha : NotOverwritten s a)
    (hs : s.step a = some s') : Inv s' := by
  cases a with
  | publish body =>
    obtain ⟨ring, hring, rfl⟩ := map_eq_some_iff.1 hs
    have hc := h.consistent.step (a := .publish body) (by simp) hring
    have hw := h.numbered.writer
    cases hwriter : s.ring.writer with
    | idle =>
      simp only [FaceFrame.step, hwriter] at hring
      rw [hwriter] at hw
      cases hring
      exact ⟨hc, ⟨⟨hw, congrArg (· + 1) hw⟩, h.numbered.written, h.numbered.last⟩, h.readers⟩
    | _ => simp [FaceFrame.step, hwriter] at hring
  | write =>
    obtain ⟨ring, hring, rfl⟩ := map_eq_some_iff.1 hs
    obtain ⟨hreaders, hpublished, -⟩ := write_frame hring
    refine ⟨h.consistent.write hring, h.numbered.write h.consistent hring, fun i => ?_⟩
    change (ring.readers i).Aims ring (s.targets i)
    rw [hreaders]
    exact (h.readers i).mono hpublished
  | startRead i target maxRetries out =>
    simp only [Indexed.step] at hs
    split at hs
    · cases hs
    · cases hs
    · cases hs
      have hok := ok_startReadByIndex h.numbered target maxRetries out
      have hc := h.consistent
      exact ⟨⟨hc.writer, hc.whole, hc.index, hc.update_readers hok⟩,
        ⟨h.numbered.writer, h.numbered.written, h.numbered.last⟩,
        h.update_readers (aims_startReadByIndex h.numbered target maxRetries out)⟩
  -- A read that succeeds finds the frame asked for, which is not overwritten yet.
  | read i =>
    obtain ⟨ring, hring, rfl⟩ := map_eq_some_iff.1 hs
    have hc := h.consistent.step (a := .read i) (by simp) hring
    obtain ⟨r, hr, rfl⟩ := map_eq_some_iff.1 hring
    have haims := aims_readStep h.numbered (h.consistent.readers i) (h.readers i) ha hr
    refine ⟨hc, ⟨h.numbered.writer, h.numbered.written, h.numbered.last⟩, fun j => ?_⟩
    have hj := h.update_readers (i := i) haims j
    rw [update_eq_self] at hj
    exact hj

theorem inv_init (zero : α) (s : Indexed α W) (hs : s ∈ (machine zero).init) : Inv s := by
  obtain rfl : s = _ := hs
  exact ⟨consistent_fresh zero, numbered_fresh zero, fun _ => trivial⟩

end Indexed

/-- In every run in which no read succeeds after a later frame has taken the slot of the one
asked for, a body that a reader has returned is the one published as the frame it asked for. -/
theorem read_by_index (zero : α) (as : List (Indexed.Action α W)) (s : Indexed α W)
    (h : (Indexed.machine zero).RunIf NotOverwritten as s) (i : ℕ) (out : Body α W)
    (hout : s.ring.readers i = .returned out) :
    0 < s.targets i ∧ s.ring.published[s.targets i - 1]? = some out := by
  have hinv : s.Inv := h.invariant (Indexed.inv_init zero) fun _ _ _ hi ha hs => hi.step ha hs
  have haims := hinv.readers i
  rw [hout] at haims
  exact haims

/-! ## Frames that were overwritten -/

/-- The publishing of a body of one word. -/
def publishFrame (n : ℕ) : List (Indexed.Action ℕ 1) :=
  Indexed.Action.publish ![n] :: List.replicate 5 Indexed.Action.write

/-- The loads of the reader `0`. -/
def loads : List (Indexed.Action ℕ 1) := List.replicate 3 (Indexed.Action.read 0)

/-- The reader `0` has returned the word `n`, and the frame it asked for is the word `frame`. -/
def Indexed.returned (s : Indexed ℕ 1) (n frame : ℕ) : Bool :=
  match s.ring.readers 0 with
  | .returned out => decide (out = ![n] ∧ s.ring.published[s.targets 0 - 1]? = some ![frame])
  | _ => false

theorem Indexed.of_returned {s : Indexed ℕ 1} {n frame : ℕ} (h : s.returned n frame = true) :
    s.ring.readers 0 = .returned ![n] ∧
      s.ring.published[s.targets 0 - 1]? = some ![frame] := by
  cases hr : s.ring.readers 0 with
  | returned out =>
    simp only [Indexed.returned, hr, decide_eq_true_eq] at h
    exact ⟨h.1 ▸ rfl, h.2⟩
  | _ => simp [Indexed.returned, hr] at h

/-- The first frame is read while the second one is published. -/
theorem read_by_index_first : ∃ s : Indexed ℕ 1,
    (Indexed.machine 0).RunIf NotOverwritten
      (publishFrame 7 ++ [Indexed.Action.startRead 0 1 8 ![0]] ++ publishFrame 8 ++ loads) s ∧
    s.ring.readers 0 = .returned ![7] ∧
    0 < s.targets 0 ∧ s.ring.published[s.targets 0 - 1]? = some ![7] := by
  refine Machine.exists_runIf_of _ (P := (·.returned 7 7 = true)) ⟨.fresh 0, fun _ => 0⟩ (by rfl)
    (by decide +kernel) fun s hrun hs => ?_
  have hout := (Indexed.of_returned hs).1
  exact ⟨hout, read_by_index 0 _ s hrun 0 ![7] hout⟩

/-- The reader asks for the first frame while the ring holds it, and reads its slot after the
frame 33 was published. -/
def overwritingActions : List (Indexed.Action ℕ 1) :=
  (List.range 32).flatMap (fun n => publishFrame (n + 1)) ++
    [Indexed.Action.startRead 0 1 8 ![0]] ++ publishFrame 33 ++ loads

theorem overwritten_frame_returned : ∃ s : Indexed ℕ 1,
    (Indexed.machine 0).Run overwritingActions s ∧
    s.ring.readers 0 = .returned ![33] ∧
    s.ring.published[s.targets 0 - 1]? = some ![1] := by
  exact Machine.exists_runIf_of _ (P := (·.returned 33 1 = true)) ⟨.fresh 0, fun _ => 0⟩ (by rfl)
    (by decide +kernel) fun s _ hs => Indexed.of_returned hs

end WKOpenVR.Shmem.FaceFrame
