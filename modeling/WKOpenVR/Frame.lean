import Mathlib.Data.List.Basic
import Mathlib.Tactic.Linarith

/-!
# Length-prefixed frames

A *frame* is the length of its payload, as four bytes in little-endian order, and the
payload. A stream arrives in chunks, cut anywhere. A reader reads exactly as many bytes as
it asks for, over as many chunks as it takes (`readExact`). It reads the frames of a stream
one by one, and stops at the end of the stream or at a length that is zero or over a limit
(`readFrames`).

What it reads does not depend on the chunks. Frames whose length is within the limit are
read in order, up to the first point where the stream cannot be read on (`frames_eq`): its
end (`stuck_nil`), a frame that is cut off (`stuck_take`) or one that is too long
(`stuck_frame`).
-/

namespace WKOpenVR.Frame

open List

/-- A number of 32 bits, least significant byte first. -/
def le32 (n : ℕ) : List UInt8 :=
  [UInt8.ofNat n, UInt8.ofNat (n / 2 ^ 8), UInt8.ofNat (n / 2 ^ 16), UInt8.ofNat (n / 2 ^ 24)]

/-- The number that these bytes are, least significant first. -/
def ofLe : List UInt8 → ℕ
  | [] => 0
  | b :: bs => b.toNat + 2 ^ 8 * ofLe bs

variable (payload : List UInt8)

def frame : List UInt8 := le32 payload.length ++ payload

/-- A loop that reads `n` bytes: each read returns what is left of a chunk, at most as much
    as is asked for. It gives what was read, fewer bytes at the end of the stream, and the
    chunks that are left. -/
def readExact : ℕ → List (List UInt8) → List UInt8 × List (List UInt8)
  | _, [] => ([], [])
  | n, c :: cs =>
    if n ≤ c.length then (c.take n, c.drop n :: cs)
    else (c ++ (readExact (n - c.length) cs).1, (readExact (n - c.length) cs).2)

variable (limit : ℕ) (cs : List (List UInt8))

/-- Reads a frame with a length from `1` to `limit`. -/
def readFrame : Option (List UInt8 × List (List UInt8)) :=
  let (len, cs) := readExact 4 cs
  if len.length < 4 then none
  else if ofLe len = 0 ∨ limit < ofLe len then none
  else
    let (payload, cs) := readExact (ofLe len) cs
    if payload.length < ofLe len then none else some (payload, cs)

/-- Reads at most `fuel` frames, until one cannot be read. -/
def readFrames (limit : ℕ) : ℕ → List (List UInt8) → List (List UInt8)
  | 0, _ => []
  | fuel + 1, cs =>
    match readFrame limit cs with
    | none => []
    | some (payload, cs) => payload :: readFrames limit fuel cs

/-- The payloads of the frames of a stream, until one cannot be read. There are no more
    than the stream has bytes. -/
def frames : List (List UInt8) :=
  readFrames limit cs.flatten.length cs

@[simp]
theorem length_le32 (n : ℕ) : (le32 n).length = 4 := rfl

@[simp]
theorem length_frame : (frame payload).length = 4 + payload.length := by
  simp [frame]

theorem ofLe_le32 {n : ℕ} (h : n < 2 ^ 32) : ofLe (le32 n) = n := by
  simp only [le32, ofLe, UInt8.toNat_ofNat']
  omega

/-! ## Reading -/

variable {limit} {n : ℕ} {cs payload} {rest : List UInt8}

/-- What is read and what is left do not depend on the chunks. -/
theorem readExact_eq (n : ℕ) (cs : List (List UInt8)) :
    (readExact n cs).1 = cs.flatten.take n ∧ (readExact n cs).2.flatten = cs.flatten.drop n := by
  induction cs generalizing n with
  | nil => simp [readExact]
  | cons c cs ih =>
    rw [readExact]
    split_ifs with h
    · simp [take_append_of_le_length h, drop_append_of_le_length h]
    · obtain ⟨hread, hleft⟩ := ih (n - c.length)
      have hlt : c.length ≤ n := (Nat.lt_of_not_le h).le
      simp [hread, hleft, take_append, drop_append, take_of_length_le hlt, drop_of_length_le hlt]

/-- The bytes `bs` at the head of the stream are read. -/
theorem readExact_append {bs : List UInt8} (h : cs.flatten = bs ++ rest) :
    ∃ cs', readExact bs.length cs = (bs, cs') ∧ cs'.flatten = rest := by
  obtain ⟨hread, hleft⟩ := readExact_eq bs.length cs
  refine ⟨(readExact bs.length cs).2, Prod.ext ?_ rfl, ?_⟩
  · rw [hread, h, take_left]
  · rw [hleft, h, drop_left]

theorem readFrame_frame (hlimit : limit < 2 ^ 32) (hne : payload ≠ [])
    (hle : payload.length ≤ limit) (h : cs.flatten = frame payload ++ rest) :
    ∃ cs', readFrame limit cs = some (payload, cs') ∧ cs'.flatten = rest := by
  rw [frame, append_assoc] at h
  obtain ⟨cs₁, hlen, hcs₁⟩ := readExact_append h
  obtain ⟨cs₂, hpayload, hcs₂⟩ := readExact_append hcs₁
  have hofLe := ofLe_le32 (hle.trans_lt hlimit)
  refine ⟨cs₂, ?_, hcs₂⟩
  rw [length_le32] at hlen
  have hpos : payload.length ≠ 0 := by simpa using hne
  simp [readFrame, hlen, hofLe, hpayload, hpos, hle]

/-- No frame can be read from a stream of these bytes. -/
def Stuck (limit : ℕ) (rest : List UInt8) : Prop :=
  ∀ cs : List (List UInt8), cs.flatten = rest → readFrame limit cs = none

theorem stuck_nil : Stuck limit [] := by
  intro cs h
  have hread := (readExact_eq 4 cs).1
  rw [h] at hread
  simp [readFrame, hread]

/-- A frame that is too long is not read, nor is anything after it. -/
theorem stuck_frame (hlt : limit < payload.length) (hpayload : payload.length < 2 ^ 32) :
    Stuck limit (frame payload ++ rest) := by
  intro cs h
  rw [frame, append_assoc] at h
  obtain ⟨cs', hlen, -⟩ := readExact_append h
  rw [length_le32] at hlen
  simp [readFrame, hlen, ofLe_le32 hpayload, hlt]

/-- A frame that is cut off is not read. -/
theorem stuck_take (hpayload : payload.length < 2 ^ 32) (hn : n < (frame payload).length) :
    Stuck limit ((frame payload).take n) := by
  intro cs h
  obtain ⟨hlen, hrest⟩ := readExact_eq 4 cs
  rw [length_frame] at hn
  by_cases h4 : n < 4
  · have hshort : (readExact 4 cs).1.length < 4 := by
      rw [hlen, h]
      simp [h4]
    simp [readFrame, hshort]
  · -- The length is read, and the payload is not all there.
    have hflatten : cs.flatten = le32 payload.length ++ payload.take (n - 4) := by
      rw [h, frame, take_append, length_le32, take_of_length_le (by simp; omega)]
    obtain ⟨cs', hlen', hcs'⟩ := readExact_append hflatten
    rw [length_le32] at hlen'
    have hread := (readExact_eq payload.length cs').1
    have hshort : (readExact payload.length cs').1.length < payload.length := by
      rw [hread, hcs']
      simp
      omega
    simp [readFrame, hlen', ofLe_le32 hpayload, hshort]

theorem readFrames_eq (hlimit : limit < 2 ^ 32) {ps : List (List UInt8)}
    (hps : ∀ p ∈ ps, p ≠ [] ∧ p.length ≤ limit) (hrest : Stuck limit rest) {fuel : ℕ}
    (hfuel : ps.length ≤ fuel) (h : cs.flatten = ps.flatMap frame ++ rest) :
    readFrames limit fuel cs = ps := by
  induction ps generalizing cs fuel with
  | nil =>
    cases fuel with
    | zero => rfl
    | succ fuel => rw [readFrames, hrest cs (by simpa using h)]
  | cons p ps ih =>
    obtain ⟨fuel, rfl⟩ := Nat.exists_eq_add_one.2 (Nat.zero_lt_of_lt hfuel)
    obtain ⟨⟨hne, hle⟩, hps⟩ := forall_mem_cons.1 hps
    rw [flatMap_cons, append_assoc] at h
    obtain ⟨cs', hframe, hcs'⟩ := readFrame_frame hlimit hne hle h
    rw [readFrames, hframe]
    exact congrArg (p :: ·) (ih hps (Nat.le_of_succ_le_succ hfuel) hcs')

/-- The frames `ps` are read in order, up to a point where the stream cannot be read on. -/
theorem frames_eq (hlimit : limit < 2 ^ 32) (ps : List (List UInt8)) (rest : List UInt8)
    (hps : ∀ p ∈ ps, p ≠ [] ∧ p.length ≤ limit) (hrest : Stuck limit rest)
    (h : cs.flatten = ps.flatMap frame ++ rest) : frames limit cs = ps := by
  have hlength (ps : List (List UInt8)) : ps.length ≤ (ps.flatMap frame).length := by
    induction ps with
    | nil => rfl
    | cons p ps ih =>
      simp only [flatMap_cons, length_append, length_frame, length_cons]
      omega
  refine readFrames_eq hlimit hps hrest ?_ h
  rw [h, length_append]
  exact (hlength ps).trans (Nat.le_add_right _ _)

end WKOpenVR.Frame
