import WKOpenVR.Machine
import WKOpenVR.Pose
import WKOpenVR.Ring
import Mathlib.Data.List.Infix

/-!
# The pose ring

The driver hands the poses of the devices to the overlay through a ring in
shared memory (`DriverPoseShmem`): the driver writes samples (`setPose`), and
the overlay reads the samples from its cursor on (`readNewPoses`), jumping
forward when it is more than half a ring behind.

The writer increments the index *before* it writes, and publishes the position
of the sample it wrote; the reader stops *before* the published index. So the
positions of the history are those of a never-written first sample followed by
the samples written, and a read that keeps up delivers all of the history but
the last sample (`delivered_eq`): the zeroed sample first, and every sample one
read late. The samples delivered are the samples written exactly when they are
all zeroed samples themselves (`delivered_eq_written_iff`).
-/

namespace WKOpenVR.Shmem

open List

variable {K : Type*}

/-- `vr::k_unMaxTrackedDeviceCount`. -/
def maxTrackedDeviceCount : ℤ := 64

/-- `DriverPoseShmem::BUFFERED_SAMPLES`. -/
abbrev bufferedSamples : ℕ := 64 * 1024

/-- A sample of the ring (`AugmentedPose`). -/
structure AugmentedPose (K : Type*) where
  sampleTime : ℤ
  deviceId : ℤ
  pose : DriverPose K
  deriving DecidableEq, Repr

/-- The zeroed sample, `AugmentedPose{0}`. -/
instance [Inhabited K] : Inhabited (AugmentedPose K) := ⟨⟨0, 0, default⟩⟩

/-- The shared segment (`ShmemData`), with the 64-bit index as a number: it
    counts samples, and does not overflow. -/
structure ShmemData (K : Type*) where
  index : ℕ
  poses : Ring bufferedSamples (AugmentedPose K)

/-- A fresh segment, zeroed by the system. -/
def ShmemData.fresh [Inhabited K] : ShmemData K := ⟨0, .const _ default⟩

/-- The check of a device index: the comparison is unsigned, so that negative
    ones are out of range as well. -/
def indexOutOfRange (index : ℤ) : Bool := decide (maxTrackedDeviceCount ≤ index % 2 ^ 32)

variable (data : ShmemData K)

/-- `SetPose`, with the reading `sampleTime` of the counter. -/
def setPose (index : ℤ) (pose : DriverPose K) (sampleTime : ℤ) : ShmemData K :=
  if indexOutOfRange index then data
  else
    let augPose : AugmentedPose K := ⟨sampleTime, index, pose⟩
    let curIndex := data.index + 1
    ⟨curIndex, data.poses.set curIndex augPose⟩

/-- The loop of `ReadNewPoses`: the samples handed to the callback from
    `cursor` up to `curIndex`, and the cursor after them. -/
def readLoop (data : ShmemData K) (curIndex cursor : ℕ) : List (AugmentedPose K) × ℕ :=
  if cursor < curIndex then
    let (samples, cursor') := readLoop data curIndex (cursor + 1)
    (data.poses.get cursor :: samples, cursor')
  else ([], cursor)
  termination_by curIndex - cursor

/-- The cursor a read starts from: a reader ahead of the index, or more than
    half a ring behind it, jumps. -/
def resync (curIndex cursor : ℕ) : ℕ :=
  if curIndex < cursor ∨ bufferedSamples / 2 < curIndex - cursor then
    if curIndex < bufferedSamples / 2 then curIndex else curIndex - bufferedSamples / 2
  else cursor

/-- `ReadNewPoses`: the samples handed to the callback, and the next cursor. -/
def readNewPoses (cursor : ℕ) : List (AugmentedPose K) × ℕ :=
  readLoop data data.index (resync data.index cursor)

/-! ## Reads -/

/-- The loop delivers the positions from the cursor up to the index. -/
theorem readLoop_eq {curIndex cursor : ℕ} (h : cursor ≤ curIndex) : readLoop data curIndex cursor =
      ((List.range' cursor (curIndex - cursor)).map data.poses.get, curIndex) := by
  induction hn : curIndex - cursor generalizing cursor with
  | zero =>
    obtain rfl : cursor = curIndex := by omega
    rw [readLoop, if_neg (lt_irrefl _)]
    rfl
  | succ n ih =>
    rw [readLoop, if_pos (by omega), ih (by omega) (by omega), range'_succ]
    rfl

/-- A read of a ring that holds the history `l`, with the index at its last
    sample: a reader at most half a ring behind is handed the history from its
    cursor on, up to but not including the last sample. -/
theorem readNewPoses_eq {data : ShmemData K} {l : List (AugmentedPose K)} {cursor : ℕ}
    (hl : data.poses.Holds l) (hindex : l.length = data.index + 1) (hc : cursor ≤ data.index)
    (hgap : data.index - cursor ≤ bufferedSamples / 2) :
    readNewPoses data cursor = ((l.take data.index).drop cursor, data.index) := by
  have hresync : resync data.index cursor = cursor := by
    rw [resync, if_neg (by omega)]
  rw [readNewPoses, hresync, readLoop_eq data hc]
  congr 1
  refine ext_getElem (by simp; omega) fun i hi hi' => ?_
  simp only [length_map, length_range'] at hi
  simp only [getElem_map, getElem_range', getElem_drop, getElem_take, one_mul]
  exact hl _ (by omega) (by omega)

/-- A reader more than half a ring behind is handed half a ring. -/
theorem length_readNewPoses_of_lt {cursor : ℕ} (hc : cursor ≤ data.index)
    (hgap : bufferedSamples / 2 < data.index - cursor) :
    (readNewPoses data cursor).1.length = bufferedSamples / 2 := by
  have hresync : resync data.index cursor = data.index - bufferedSamples / 2 := by
    rw [resync, if_pos (.inr hgap), if_neg (by omega)]
  rw [readNewPoses, hresync, readLoop_eq data (by omega)]
  simp only [length_map, length_range']
  omega

/-! ## Runs -/

/-- An access to the ring, each taken as one atomic step. -/
inductive Access (K : Type*)
  | setPose (index : ℤ) (pose : DriverPose K) (sampleTime : ℤ)
  | readNewPoses

/-- The sample an access writes, if any. -/
def Access.sample? : Access K → Option (AugmentedPose K)
  | .setPose index pose sampleTime =>
    if indexOutOfRange index then none else some ⟨sampleTime, index, pose⟩
  | .readNewPoses => none

/-- The segment with the overlay's cursor, and the samples delivered so far. -/
structure PoseChannel (K : Type*) where
  data : ShmemData K
  cursor : ℕ
  delivered : List (AugmentedPose K)

/-- A fresh segment, and a reader at its start. -/
def PoseChannel.fresh [Inhabited K] : PoseChannel K := ⟨.fresh, 0, []⟩

def PoseChannel.access (c : PoseChannel K) : Access K → PoseChannel K
  | .setPose index pose sampleTime => { c with data := setPose c.data index pose sampleTime }
  | .readNewPoses =>
    let (samples, cursor) := readNewPoses c.data c.cursor
    { c with cursor := cursor, delivered := c.delivered ++ samples }

def channel [Inhabited K] (as : List (Access K)) : PoseChannel K :=
  as.foldl PoseChannel.access .fresh

def written (as : List (Access K)) : List (AugmentedPose K) := as.filterMap Access.sample?

/-- The number of samples written since the last read, given the number before
    an access. -/
def Access.sinceRead (n : ℕ) : Access K → ℕ
  | .readNewPoses => 0
  | a => if a.sample?.isSome then n + 1 else n

/-- The number of samples written by the accesses `as` since their last read. -/
def sinceRead (as : List (Access K)) : ℕ := as.foldl Access.sinceRead 0

open PoseChannel

/-- What an access does: read, write a sample after the index, or nothing. -/
theorem access_cases (a : Access K) :
    a = .readNewPoses ∨
    (∃ x, a.sample? = some x ∧ (∀ n, a.sinceRead n = n + 1) ∧ ∀ c : PoseChannel K,
      c.access a = { c with data := ⟨c.data.index + 1, c.data.poses.set (c.data.index + 1) x⟩ }) ∨
    (a.sample? = none ∧ (∀ n, a.sinceRead n = n) ∧ ∀ c : PoseChannel K, c.access a = c) := by
  cases a with
  | readNewPoses => exact .inl rfl
  | setPose index pose sampleTime =>
    by_cases h : indexOutOfRange index
    · refine .inr (.inr ⟨if_pos h, fun n => ?_, fun c => ?_⟩)
      · simp [Access.sinceRead, Access.sample?, h]
      · rw [access, setPose, if_pos h]
    · refine .inr (.inl ⟨_, if_neg h, fun n => ?_, fun c => ?_⟩)
      · simp [Access.sinceRead, Access.sample?, h]
      · rw [access, setPose, if_neg h]

variable {as : List (Access K)} {a : Access K}

@[simp] theorem sinceRead_append_singleton :
    sinceRead (as ++ [a]) = a.sinceRead (sinceRead as) := by
  rw [sinceRead, foldl_append]; rfl

theorem written_append_singleton : written (as ++ [a]) = written as ++ a.sample?.toList := by
  rw [written, filterMap_append]
  cases h : a.sample? <;> simp [h, written]

/-- A run in which every read keeps up: at most half a ring of samples has been
    written since the read before it (or the start). -/
def KeepsUp (as : List (Access K)) : Prop :=
  ∀ pre, pre ++ [.readNewPoses] <+: as → sinceRead pre ≤ bufferedSamples / 2

theorem KeepsUp.of_append (h : KeepsUp (as ++ [a])) : KeepsUp as :=
  fun pre hpre => h pre (hpre.trans (prefix_append as [a]))

variable [Inhabited K]

@[simp] theorem channel_append_singleton : channel (as ++ [a]) = (channel as).access a := by
  rw [channel, foldl_append]; rfl

/-- The history of the positions of the ring: the first is never written. -/
def history (as : List (Access K)) : List (AugmentedPose K) := default :: written as

theorem history_append_singleton : history (as ++ [a]) = history as ++ a.sample?.toList := by
  rw [history, written_append_singleton]; rfl

/-- The ring holds the history, and the index is at its last sample. -/
theorem channel_holds (as : List (Access K)) :
    (channel as).data.poses.Holds (history as) ∧
      (history as).length = (channel as).data.index + 1 := by
  induction as using List.reverseRecOn with
  | nil => exact ⟨Ring.holds_const _, rfl⟩
  | append_singleton as a ih =>
    obtain ⟨hholds, hlen⟩ := ih
    rw [channel_append_singleton, history_append_singleton]
    rcases access_cases a with rfl | ⟨x, hx, -, hc⟩ | ⟨hx, -, hc⟩
    · simpa [Access.sample?, access] using ⟨hholds, hlen⟩
    · rw [hx, hc, Option.toList_some]
      exact ⟨hlen ▸ hholds.set x, by simp [hlen]⟩
    · simpa [hx, hc] using ⟨hholds, hlen⟩

/-- Along a run in which every read keeps up, the samples delivered are the
    history up to the cursor, and the samples written since the last read are
    those from the cursor on. -/
theorem channel_delivered (h : KeepsUp as) :
    (channel as).delivered = (history as).take (channel as).cursor ∧
      (channel as).cursor + sinceRead as = (channel as).data.index := by
  induction as using List.reverseRecOn with
  | nil => exact ⟨rfl, rfl⟩
  | append_singleton as a ih =>
    obtain ⟨hdel, hcur⟩ := ih h.of_append
    obtain ⟨hholds, hlen⟩ := channel_holds as
    rw [channel_append_singleton, history_append_singleton, sinceRead_append_singleton]
    rcases access_cases a with rfl | ⟨x, hx, hn, hc⟩ | ⟨hx, hn, hc⟩
    · have hgap : sinceRead as ≤ bufferedSamples / 2 := h as (prefix_refl _)
      have hread := readNewPoses_eq hholds hlen (Nat.le.intro hcur) (by omega)
      simp only [access, hread, Access.sample?, Option.toList_none, append_nil]
      refine ⟨?_, rfl⟩
      have htake : (channel as).delivered =
          ((history as).take (channel as).data.index).take (channel as).cursor := by
        rw [hdel, take_take, min_eq_left (by omega)]
      rw [htake, take_append_drop]
    · rw [hx, hn, hc]
      refine ⟨?_, by simp only; omega⟩
      simp only [hdel]
      rw [take_append_of_le_length (by omega)]
    · rw [hx, hn, hc, Option.toList_none, append_nil]
      exact ⟨hdel, hcur⟩

/-- A read that keeps up delivers the whole history but its last sample. -/
theorem delivered_eq (h : KeepsUp (as ++ [.readNewPoses])) :
    (channel (as ++ [.readNewPoses])).delivered = (history as).take (written as).length := by
  obtain ⟨hdel, hcur⟩ := channel_delivered h
  have hlen := (channel_holds (as ++ [.readNewPoses])).2
  rw [history_append_singleton] at hdel hlen
  simp only [Access.sample?, Option.toList_none, append_nil] at hdel hlen
  rw [hdel]
  congr 1
  rw [sinceRead_append_singleton, Access.sinceRead] at hcur
  simp only [history, length_cons] at hlen
  omega

/-- Before the first read, the cursor is at the start. -/
theorem channel_of_no_read (h : .readNewPoses ∉ as) :
    (channel as).cursor = 0 ∧ (channel as).delivered = [] ∧
      sinceRead as = (channel as).data.index := by
  induction as using List.reverseRecOn with
  | nil => exact ⟨rfl, rfl, rfl⟩
  | append_singleton as a ih =>
    rw [mem_append, mem_singleton, not_or] at h
    obtain ⟨hcur, hdel, hn⟩ := ih h.1
    rw [channel_append_singleton, sinceRead_append_singleton]
    rcases access_cases a with rfl | ⟨x, -, hs, hc⟩ | ⟨-, hs, hc⟩
    · exact absurd rfl h.2
    · rw [hc, hs]
      exact ⟨hcur, hdel, by rw [hn]⟩
    · rw [hc, hs]
      exact ⟨hcur, hdel, hn⟩

/-- A list shifted by one value is the same list exactly when all its values are
    that one. -/
theorem take_cons_eq_iff {α : Type*} {x : α} {l : List α} :
    (x :: l).take l.length = l ↔ ∀ y ∈ l, y = x := by
  induction l generalizing x with
  | nil => simp
  | cons y l ih =>
    rw [length_cons, take_succ_cons, List.cons.injEq, ih, forall_mem_cons]
    constructor
    · rintro ⟨rfl, h⟩
      exact ⟨rfl, h⟩
    · rintro ⟨rfl, h⟩
      exact ⟨rfl, h⟩

/-- In a run whose reads all deliver what has been written, the first read keeps
    up as well. -/
theorem keepsUp_of_delivered
    (hgap : ∀ pre, pre ++ [.readNewPoses] <+: as → .readNewPoses ∈ pre →
      sinceRead pre ≤ bufferedSamples / 2) (h : ∀ pre, pre ++ [.readNewPoses] <+: as →
      (channel (pre ++ [.readNewPoses])).delivered = written pre) : KeepsUp as := by
  intro pre hpre
  by_cases hread : .readNewPoses ∈ pre
  · exact hgap pre hpre hread
  · by_contra hlt
    obtain ⟨hcur, hdel, hn⟩ := channel_of_no_read hread
    have hlen := (channel_holds pre).2
    have hall := congrArg List.length (h pre hpre)
    simp only [channel_append_singleton, access, hcur, hdel, nil_append] at hall
    rw [length_readNewPoses_of_lt _ (Nat.zero_le _) (by omega)] at hall
    rw [history, length_cons] at hlen
    omega

/-- Delivery: consider a run with at most half a ring of samples written between
    two consecutive reads. Every read delivers exactly the samples written so
    far if and only if, up to every read, all samples written are zeroed ones
    (and at most half a ring of them before the first read). -/
theorem delivered_eq_written_iff (as : List (Access K))
    (hgap : ∀ pre, pre ++ [.readNewPoses] <+: as → .readNewPoses ∈ pre →
      sinceRead pre ≤ bufferedSamples / 2) :
    (∀ pre, pre ++ [.readNewPoses] <+: as →
      (channel (pre ++ [.readNewPoses])).delivered = written pre) ↔
    ∀ pre, pre ++ [.readNewPoses] <+: as →
      sinceRead pre ≤ bufferedSamples / 2 ∧ ∀ x ∈ written pre, x = default := by
  -- Once the reads keep up, the samples delivered are the history but its last one.
  have hdel (hup : KeepsUp as) {pre : List (Access K)} (hpre : pre ++ [.readNewPoses] <+: as) :
      (channel (pre ++ [.readNewPoses])).delivered = written pre ↔
        ∀ x ∈ written pre, x = default := by
    rw [delivered_eq fun p hp => hup p (hp.trans hpre), history, take_cons_eq_iff]
  constructor
  · intro h pre hpre
    have hup := keepsUp_of_delivered hgap h
    exact ⟨hup pre hpre, (hdel hup hpre).1 (h pre hpre)⟩
  · intro h pre hpre
    exact (hdel (fun p hp => (h p hp).1) hpre).2 (h pre hpre).2

/-- A zeroed sample, delivered by the read. -/
theorem delivered_eq_written_iff_zeroed :
    written [.setPose 0 (default : DriverPose Unit) 0] = [default] ∧
      ∀ pre, pre ++ [.readNewPoses] <+: [.setPose 0 (default : DriverPose Unit) 0, .readNewPoses] →
        (channel (pre ++ [.readNewPoses])).delivered = written pre := by
  have hpre (pre : List (Access Unit))
      (h : pre ++ [.readNewPoses] <+: [.setPose 0 default 0, .readNewPoses]) :
      pre = [.setPose 0 default 0] := by
    simpa [concat_prefix_cons, not_concat_prefix_nil] using h
  refine ⟨rfl, (delivered_eq_written_iff _ fun pre h _ => ?_).2 fun pre h => ?_⟩
  · rw [hpre pre h]
    decide
  · rw [hpre pre h]
    decide

/-- One pose and a read: the sample delivered is the zeroed one, not the sample
    written. -/
theorem first_read_delivers_zeroed :
    let pre := [Access.setPose 1 (.healthy ()) 7]
    written pre = [⟨7, 1, .healthy ()⟩] ∧
      (channel (pre ++ [.readNewPoses])).delivered = [default] := by
  refine ⟨rfl, delivered_eq fun pre h => ?_⟩
  obtain rfl : pre = [.setPose 1 (.healthy ()) 7] := by
    simpa [concat_prefix_cons, not_concat_prefix_nil] using h
  decide

end WKOpenVR.Shmem
