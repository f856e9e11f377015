import Mathlib.Data.List.Basic

/-!
# The output of adb

`AdbController::Run` starts a process whose output goes to two pipes, waits for it to exit, and
reads the pipes then. Pipes are bounded: a process that writes more than one holds blocks, and is
terminated when the time is up. The pipes are read until their write ends are closed, which a
descendant of the process may never do. So the output is returned if and only if it fits in the
pipes and nothing else holds them (`run_eq_iff`).

The time is longer than the process needs if it does not block.
-/

namespace WKOpenVR.Quest.AdbRun

open Function

inductive Stream
  | out
  | err
  deriving DecidableEq

/-- A process: the bytes it writes before it exits. -/
structure Child where
  writes : List (Stream × UInt8)
  exitCode : Int
  /-- A descendant keeps the write ends of the pipes open. -/
  held : Bool

/-- What a process writes to a pipe. -/
def written (ws : List (Stream × UInt8)) (s : Stream) : List UInt8 :=
  (ws.filter (·.1 = s)).map (·.2)

structure Result where
  exitCode : Int := -1
  out : List UInt8 := []
  err : List UInt8 := []
  timedOut : Bool := false
  deriving DecidableEq

/-- The pipes, each of capacity `cap`, after the writes that are made while nobody reads, and
    whether these are all. -/
def writeLoop (cap : ℕ) (pipes : Stream → List UInt8) :
    List (Stream × UInt8) → (Stream → List UInt8) × Bool
  | [] => (pipes, true)
  | (s, b) :: ws =>
    if (pipes s).length < cap then writeLoop cap (update pipes s (pipes s ++ [b])) ws
    else (pipes, false)

/-- `DrainPipeFull`, which waits for ever at an empty pipe whose write end is held. -/
def drainPipeFull (held : Bool) (pipe : List UInt8) : Option (List UInt8) :=
  if _h : pipe = [] then if held then none else some []
  else (drainPipeFull held (pipe.drop 4096)).map (pipe.take 4096 ++ ·)
termination_by pipe.length
decreasing_by
  have := List.length_pos_iff.2 _h
  rw [List.length_drop]
  omega

/-- `Run`, from the start of the process on: nothing if it does not return. -/
def run (cap : ℕ) (c : Child) : Option Result := do
  let (pipes, exited) := writeLoop cap (fun _ => []) c.writes
  let out ← drainPipeFull c.held (pipes .out)
  let err ← drainPipeFull c.held (pipes .err)
  return ⟨if exited then c.exitCode else 1, out, err, !exited⟩

theorem drainPipeFull_eq (held : Bool) (pipe : List UInt8) :
    drainPipeFull held pipe = if held then none else some pipe := by
  fun_induction drainPipeFull held pipe with
  | case1 h => rw [if_pos h]
  | case2 h => rw [if_neg h]
  | case3 pipe h ih => cases held <;> simp [ih]

/-- All writes are made if and only if they fit in the pipes. -/
theorem writeLoop_spec {cap : ℕ} (pipes : Stream → List UInt8) (ws : List (Stream × UInt8))
    (h : ∀ s, (pipes s).length ≤ cap) :
    ((writeLoop cap pipes ws).2 = true ↔ ∀ s, (pipes s ++ written ws s).length ≤ cap) ∧
      ((writeLoop cap pipes ws).2 = true →
        (writeLoop cap pipes ws).1 = fun s => pipes s ++ written ws s) := by
  induction ws generalizing pipes with
  | nil => simpa [writeLoop, written] using h
  | cons w ws ih =>
    obtain ⟨s, b⟩ := w
    have happend (s') : update pipes s (pipes s ++ [b]) s' ++ written ws s' =
        pipes s' ++ written ((s, b) :: ws) s' := by
      rcases eq_or_ne s' s with rfl | hs
      · simp [written]
      · simp [written, hs, hs.symm]
    rw [writeLoop]
    split_ifs with hroom
    · have hfits (s') : (update pipes s (pipes s ++ [b]) s').length ≤ cap := by
        rcases eq_or_ne s' s with rfl | hs
        · simpa using Nat.succ_le_of_lt hroom
        · simpa [hs] using h s'
      simpa only [happend] using ih _ hfits
    · refine ⟨⟨nofun, fun hall => ?_⟩, nofun⟩
      have := hall s
      simp [written] at this
      omega

/-- The output is returned if and only if it fits in the pipes and nothing else holds them, and
    there is a result at all if and only if nothing holds them. -/
theorem run_eq_iff (cap : ℕ) (c : Child) :
    (run cap c = some ⟨c.exitCode, written c.writes .out, written c.writes .err, false⟩ ↔
      (∀ s, (written c.writes s).length ≤ cap) ∧ c.held = false) ∧
    ((run cap c).isSome = true ↔ c.held = false) := by
  obtain ⟨hiff, hpipes⟩ := writeLoop_spec (fun _ => []) c.writes fun _ => Nat.zero_le cap
  simp only [List.nil_append] at hiff hpipes
  cases hheld : c.held with
  | true => simp [run, drainPipeFull_eq, hheld]
  | false =>
    refine ⟨?_, by simp [run, drainPipeFull_eq, hheld]⟩
    rw [← hiff, and_iff_left rfl]
    constructor
    · intro heq
      simpa [run, drainPipeFull_eq, hheld] using congrArg (Option.map Result.timedOut) heq
    · intro hall
      simp [run, drainPipeFull_eq, hheld, hall, hpipes hall]

/-- Three bytes for a pipe of two, and a pipe that is held. -/
theorem run_blocks : run 2 ⟨List.replicate 3 (.out, 65), 0, false⟩ = some ⟨1, [65, 65], [], true⟩ ∧
    run 2 ⟨[], 0, true⟩ = none := by
  simp [run, writeLoop, drainPipeFull_eq]

end WKOpenVR.Quest.AdbRun
