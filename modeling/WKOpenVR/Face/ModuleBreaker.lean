import WKOpenVR.Face.SubprocessManager

/-!
# The circuit breaker of the modules

The length of a run is measured at its end, after the teardown. That a process has exited is
not noticed while the manager waits for the handshake or a reply, which it does for up to 30
seconds each: such a run is not a short one, however early the process exited, and resets the
breaker (`early_exits_not_counted`).

If the runs whose processes exit on their own within 5 seconds also end within that time
(`EndsInTime`), then the breaker counts them (`CountsRuns`), and three such runs in a row are the
last ones until a module is selected again (`not_spawned_after_three`).
-/

namespace WKOpenVR.Face

open Text

/-! ## What the breaker goes by -/

inductive RunEvent
  /-- A run has ended, in which the process exited early or not. -/
  | ran (uuid : List UInt8) (early : Bool)
  /-- A call of `SelectActive` resets the breaker. -/
  | reset
  deriving DecidableEq

variable (s : SubprocessManager)

def runEvents : ManagerEvent → List RunEvent
  | .finish => s.stage.ended?.toList.map fun r => .ran r.target.uuid r.exitedEarly
  | .selectActive uuid loaded => if (s.selectActive uuid loaded).2 then [.reset] else []
  | _ => []

/-- A run in which the process exits early ends in less than 5 seconds. -/
def EndsInTime : ManagerEvent → Prop
  | .finish =>
    ∀ r ∈ s.stage.ended?, r.exitedEarly = true → s.now - r.spawnTime < fastExitThreshold
  | _ => True

instance (s : SubprocessManager) (e : ManagerEvent) : Decidable (EndsInTime s e) :=
  match e with
  | .finish => inferInstanceAs (Decidable (∀ r ∈ s.stage.ended?, _))
  | .wait _ | .selectActive _ _ | .cancel | .check | .spawn _ | .processExit | .markExited
  | .reply | .timeout | .leave | .uninstalled | .abort | .beginTeardown | .gone => .isTrue trivial

/-- The number of last runs, in a row, of a module whose process exited early. -/
def streak (uuid : List UInt8) (es : List RunEvent) : ℕ :=
  (es.rtakeWhile (· = .ran uuid true)).length

section Streak

variable {u v : List UInt8} {es : List RunEvent}

theorem streak_ran : streak u (es ++ [.ran u true]) = streak u es + 1 := by
  simp [streak]

theorem streak_of_ne {e : RunEvent} (he : e ≠ .ran u true) : streak u (es ++ [e]) = 0 := by
  simp [streak, he]

end Streak

namespace SubprocessManager

variable {s} {s' : SubprocessManager} {u : List UInt8}

/-! ## The breaker in a run -/

/-- The breaker counts the last runs of a module that were short. -/
def CountsRuns (es : List RunEvent) (s : SubprocessManager) : Prop :=
  ∀ u, 0 < streak u es → s.breakerUuid = some u ∧ streak u es ≤ s.breakerCount

/-- Once the check is passed, neither the module that is run nor the active one has had its
runs. -/
def Checked (s : SubprocessManager) : Prop :=
  ∀ m, s.stage.target? = some m →
    ¬s.Tripped m.uuid ∧ ∀ a, s.active = some a → ¬s.Tripped a.uuid

theorem Quiet.tripped_iff (h : Quiet s s') : s'.Tripped u ↔ s.Tripped u := by
  rw [Tripped, Tripped, h.breakerUuid, h.breakerCount]

theorem Quiet.active_eq (h : Quiet s s') {a : DiscoveredModule} (ha : s'.active = some a) :
    s.active = some a := by
  rcases h.active with hactive | hactive
  · rw [← hactive, ha]
  · rw [hactive] at ha
    cases ha

theorem Quiet.target_eq (h : Quiet s s') {m : DiscoveredModule} (hm : s'.stage.target? = some m) :
    s.stage.target? = some m := by
  rcases h.target with htarget | htarget
  · rw [← htarget, hm]
  · rw [htarget] at hm
    cases hm

theorem Checked.quiet (h : Checked s) (hquiet : Quiet s s') : Checked s' := by
  intro m hm
  obtain ⟨htarget, hactive⟩ := h m (hquiet.target_eq hm)
  refine ⟨fun htrip => htarget (hquiet.tripped_iff.1 htrip), ?_⟩
  intro a ha htrip
  exact hactive a (hquiet.active_eq ha) (hquiet.tripped_iff.1 htrip)

theorem not_tripped_resetBreaker (s : SubprocessManager) (u : List UInt8) :
    ¬s.resetBreaker.Tripped u := by
  rintro ⟨huuid, -⟩
  cases huuid

/-- A selection resets the breaker, or makes at most a module active that has no runs. -/
theorem selectActive_cases (s : SubprocessManager) (uuid : List UInt8)
    (loaded : List DiscoveredModule) :
    (∃ active, s.selectActive uuid loaded = ({ s with active }.resetBreaker, true)) ∨
      ∃ active, s.selectActive uuid loaded = ({ s with active }, false) ∧
        (active = s.active ∨ ∀ a, active = some a → s.breakerUuid ≠ some a.uuid) := by
  unfold SubprocessManager.selectActive
  by_cases hblank : uuid.all isSpace = true
  · rw [if_pos hblank]
    exact .inl ⟨none, rfl⟩
  rw [if_neg hblank]
  cases hfind : loaded.find? fun m => m.uuid == uuid with
  | none =>
    refine .inr ?_
    dsimp only
    split_ifs
    · exact ⟨none, rfl, .inr fun a ha => by cases ha⟩
    · exact ⟨s.active, rfl, .inl rfl⟩
  | some m =>
    have huuid : m.uuid = uuid := by simpa using List.find?_some hfind
    dsimp only
    split_ifs with hsame hbreaker
    · exact .inr ⟨s.active, rfl, .inl rfl⟩
    · exact .inl ⟨some m, rfl⟩
    · refine .inr ⟨some m, rfl, .inr ?_⟩
      rintro a ⟨⟩
      rw [huuid]
      exact hbreaker

theorem Checked.selectActive (h : Checked s) (uuid : List UInt8) (loaded : List DiscoveredModule) :
    Checked (s.selectActive uuid loaded).1 := by
  rcases selectActive_cases s uuid loaded with ⟨active, heq⟩ | ⟨active, heq, hactive⟩
  · rw [heq]
    intro m _
    exact ⟨not_tripped_resetBreaker _ _, fun _ _ => not_tripped_resetBreaker _ _⟩
  · rw [heq]
    intro m hm
    refine ⟨(h m hm).1, ?_⟩
    intro a ha htrip
    rcases hactive with hsame | hother
    · exact (h m hm).2 a (hsame ▸ ha) htrip
    · exact hother a ha htrip.1

theorem checked_of_head (h : s.stage = .head) : Checked s := by
  intro m hm
  rw [h] at hm
  cases hm

theorem finish_cases (hs : s.step .finish = some s') :
    ∃ r, s.stage.ended? = some r ∧ s' = { s.updateBreaker r with stage := .head } := by
  obtain ⟨r, hr, rfl⟩ := Option.map_eq_some_iff.1 hs
  exact ⟨r, hr, rfl⟩

/-- At the head of the loop, there is no module, or it has had its runs, or it is started. -/
theorem check_cases (hs : s.step .check = some s') : s.stage = .head ∧
    (s' = s ∧ s.active = none ∨
      ∃ m, s.active = some m ∧ (s.Tripped m.uuid ∧ s' = { s with active := none } ∨
        ¬s.Tripped m.uuid ∧ s' = { s with stage := .starting m })) := by
  simp only [SubprocessManager.step] at hs
  split_ifs at hs with hhead
  refine ⟨hhead.1, ?_⟩
  cases hactive : s.active with
  | none =>
    rw [hactive] at hs
    cases hs
    exact .inl ⟨rfl, rfl⟩
  | some m =>
    simp only [hactive] at hs
    refine .inr ⟨m, rfl, ?_⟩
    split_ifs at hs with htrip
    · cases hs
      exact .inl ⟨htrip, rfl⟩
    · cases hs
      exact .inr ⟨htrip, rfl⟩

variable {e : ManagerEvent}

theorem Checked.step (h : Checked s) (hs : s.step e = some s') : Checked s' := by
  cases e with
  | selectActive uuid loaded =>
    cases hs
    exact h.selectActive uuid loaded
  | check =>
    obtain ⟨hhead, ⟨rfl, -⟩ | ⟨m, hactive, ⟨-, rfl⟩ | ⟨htrip, rfl⟩⟩⟩ := check_cases hs
    · exact h
    · exact checked_of_head hhead
    · rintro n ⟨⟩
      refine ⟨htrip, ?_⟩
      intro a ha
      obtain rfl : m = a := Option.some.inj (hactive.symm.trans ha)
      exact htrip
  | finish =>
    obtain ⟨r, -, rfl⟩ := finish_cases hs
    exact checked_of_head rfl
  | _ => exact h.quiet (quiet_of_step (by simp) (by simp) (by simp) hs)

variable {es : List RunEvent}

theorem CountsRuns.quiet (h : CountsRuns es s) (hquiet : Quiet s s') : CountsRuns es s' := by
  intro u hu
  rw [hquiet.breakerUuid, hquiet.breakerCount]
  exact h u hu

/-- The end of a run, which is short if the process exited early. -/
theorem CountsRuns.updateBreaker (h : CountsRuns es s) {r : ModuleRun}
    (htime : r.exitedEarly = true → s.now - r.spawnTime < fastExitThreshold) :
    CountsRuns (es ++ [.ran r.target.uuid r.exitedEarly]) (s.updateBreaker r) := by
  intro u hu
  by_cases hran : RunEvent.ran r.target.uuid r.exitedEarly = .ran u true
  · obtain ⟨rfl, hearly⟩ := RunEvent.ran.inj hran
    rw [hran, streak_ran]
    unfold SubprocessManager.updateBreaker
    rw [if_pos (htime hearly)]
    split_ifs with hbreaker
    · -- The breaker counts this module already.
      refine ⟨hbreaker, ?_⟩
      by_cases hstreak : 0 < streak r.target.uuid es
      · exact Nat.succ_le_succ (h _ hstreak).2
      · dsimp only
        omega
    · -- It counted another module, so the streak of this one starts.
      refine ⟨rfl, ?_⟩
      by_cases hstreak : 0 < streak r.target.uuid es
      · exact absurd (h _ hstreak).1 hbreaker
      · dsimp only
        omega
  · rw [streak_of_ne hran] at hu
    exact absurd hu (Nat.lt_irrefl 0)

theorem CountsRuns.step (h : CountsRuns es s)
    (htime : EndsInTime s e) (hs : s.step e = some s') : CountsRuns (es ++ runEvents s e) s' := by
  cases e with
  | selectActive uuid loaded =>
    cases hs
    rcases selectActive_cases s uuid loaded with ⟨active, heq⟩ | ⟨active, heq, -⟩
    · intro u hu
      simp [runEvents, heq, streak] at hu
    · simp only [runEvents, heq, Bool.false_eq_true, if_false, List.append_nil]
      exact h
  | check =>
    obtain ⟨-, ⟨rfl, -⟩ | ⟨m, -, ⟨-, rfl⟩ | ⟨-, rfl⟩⟩⟩ := check_cases hs
    all_goals
      simp only [runEvents, List.append_nil]
      exact h
  | finish =>
    obtain ⟨r, hr, rfl⟩ := finish_cases hs
    simp only [runEvents, hr]
    exact h.updateBreaker (htime r hr)
  | _ =>
    simp only [runEvents, List.append_nil]
    exact h.quiet (quiet_of_step (by simp) (by simp) (by simp) hs)

/-- The module is not spawned unless one is selected: its runs are over at the head of the loop,
or another module is active and run. -/
def Barred (u : List UInt8) (s : SubprocessManager) : Prop :=
  s.stage = .head ∧ s.Tripped u ∨
    (∀ a, s.active = some a → a.uuid ≠ u) ∧ ∀ m, s.stage.target? = some m → m.uuid ≠ u

theorem Checked.barred (h : Checked s) (htrip : s.Tripped u) : Barred u s := by
  cases htarget : s.stage.target? with
  | none => exact .inl ⟨target?_eq_none.1 htarget, htrip⟩
  | some m =>
    obtain ⟨hm, hactive⟩ := h m htarget
    refine .inr ⟨?_, ?_⟩
    · rintro a ha rfl
      exact hactive a ha htrip
    · rintro n hn rfl
      obtain rfl : m = n := Option.some.inj (htarget.symm.trans hn)
      exact hm htrip

theorem Barred.quiet (h : Barred u s) (hquiet : Quiet s s') : Barred u s' := by
  rcases h with ⟨hhead, htrip⟩ | ⟨hactive, htarget⟩
  · refine .inl ⟨?_, hquiet.tripped_iff.2 htrip⟩
    have hnone := target?_eq_none.2 hhead
    refine target?_eq_none.1 ?_
    rcases hquiet.target with heq | heq
    · rw [heq, hnone]
    · exact heq
  · exact .inr ⟨fun a ha => hactive a (hquiet.active_eq ha),
      fun m hm => htarget m (hquiet.target_eq hm)⟩

theorem active_updateBreaker (s : SubprocessManager) (r : ModuleRun) :
    (s.updateBreaker r).active = s.active := by
  unfold SubprocessManager.updateBreaker
  split_ifs <;> rfl

theorem Barred.step (h : Barred u s)
    (hselect : ∀ uuid loaded, e ≠ .selectActive uuid loaded) (hs : s.step e = some s') :
    Barred u s' := by
  cases e with
  | selectActive uuid loaded => exact absurd rfl (hselect uuid loaded)
  | check =>
    obtain ⟨hhead, ⟨rfl, -⟩ | ⟨m, hactive, ⟨htrip, rfl⟩ | ⟨htrip, rfl⟩⟩⟩ := check_cases hs
    · exact h
    · refine h.quiet ⟨rfl, rfl, .inr rfl, .inl rfl⟩
    · -- What is started has not had its runs, or is the active module, which is another one.
      have hm : m.uuid ≠ u := by
        rcases h with ⟨-, hu⟩ | ⟨hother, -⟩
        · rintro rfl
          exact htrip hu
        · exact hother m hactive
      refine .inr ⟨?_, ?_⟩
      · intro a ha
        obtain rfl : m = a := Option.some.inj (hactive.symm.trans ha)
        exact hm
      · rintro n ⟨⟩
        exact hm
  | finish =>
    obtain ⟨r, hr, rfl⟩ := finish_cases hs
    rcases h with ⟨hhead, -⟩ | ⟨hactive, -⟩
    · -- No run ends at the head of the loop.
      rw [hhead] at hr
      cases hr
    · refine .inr ⟨?_, fun m hm => by cases hm⟩
      intro a ha
      refine hactive a ?_
      rw [← ha]
      exact (active_updateBreaker s r).symm
  | _ => exact h.quiet (quiet_of_step (by simp) (by simp) (by simp) hs)

end SubprocessManager

open SubprocessManager

/-- The module whose process is spawned. -/
def spawned : ManagerEvent → Option DiscoveredModule
  | .spawn true =>
    match s.stage with
    | .starting m => some m
    | _ => none
  | _ => none

theorem stage_of_spawned {s : SubprocessManager} {e : ManagerEvent} {m : DiscoveredModule}
    (h : spawned s e = some m) : s.stage = .starting m := by
  unfold spawned at h
  split at h
  · split at h
    · cases h
      assumption
    · cases h
  · cases h

variable {es : List ManagerEvent}

/-- In runs in which the manager ends a run in time when its process exits early, the breaker
counts the runs in which it did. -/
theorem counts_of_run {s : SubprocessManager} {runs : List RunEvent}
    (h : (managerMachine.recording runEvents).RunIf (fun p => EndsInTime p.1) es (s, runs)) :
    Checked s ∧ CountsRuns runs s := by
  refine Machine.RunIf.invariant (I := fun p => Checked p.1 ∧ CountsRuns p.2 p.1) h ?_ ?_
  · rintro ⟨s, runs⟩ ⟨⟨now, rfl⟩, rfl⟩
    exact ⟨checked_of_head rfl, fun u hu => by simp [streak] at hu⟩
  · rintro ⟨s, runs⟩ e ⟨s', runs'⟩ ⟨hchecked, hcounts⟩ htime hs
    obtain ⟨hstep, rfl⟩ := Machine.recording_step hs
    exact ⟨hchecked.step hstep, hcounts.step htime hstep⟩

/-- After three runs of a module, one after another, in which its process exited on its own
within 5 seconds, and with no reset of the breaker between them, no process is spawned for it
before the next call of `SelectActive`. -/
theorem not_spawned_after_three {es' : List ManagerEvent} {s s' : SubprocessManager}
    {runs : List RunEvent} {u : List UInt8}
    (h : (managerMachine.recording runEvents).RunIf (fun p => EndsInTime p.1) es
      (s, runs ++ [.ran u true, .ran u true, .ran u true]))
    (h' : (managerMachine.startingAt s).Run es' s')
    (hselect : ∀ e ∈ es', ∀ uuid loaded, e ≠ .selectActive uuid loaded)
    (e : ManagerEvent) (m : DiscoveredModule) (hspawn : spawned s' e = some m) : m.uuid ≠ u := by
  obtain ⟨hchecked, hcounts⟩ := counts_of_run h
  have hstreak : crashHaltThreshold ≤
      streak u (runs ++ [.ran u true, .ran u true, .ran u true]) := by
    have hconcat : runs ++ [.ran u true, .ran u true, .ran u true] =
        runs ++ [.ran u true] ++ [.ran u true] ++ [.ran u true] := by simp
    rw [hconcat, streak_ran, streak_ran, streak_ran, crashHaltThreshold]
    omega
  have htrip : s.Tripped u := by
    obtain ⟨huuid, hcount⟩ := hcounts u (lt_of_lt_of_le (by decide) hstreak)
    exact ⟨huuid, hstreak.trans hcount⟩
  -- Only a selection could let the module run again.
  have hbarred : Barred u s' := by
    revert hselect
    refine Machine.RunIf.history_invariant
      (I := fun es s => (∀ e ∈ es, ∀ uuid loaded, e ≠ .selectActive uuid loaded) → Barred u s)
      h' ?_ ?_
    · rintro s ⟨⟩ -
      exact hchecked.barred htrip
    · intro es s e s' ih _ hs hselect
      have hbarred := ih fun e he => hselect e (List.mem_append_left _ he)
      exact hbarred.step (hselect e (by simp)) hs
  have hstarting := stage_of_spawned hspawn
  rcases hbarred with ⟨hhead, -⟩ | ⟨-, htarget⟩
  · rw [hstarting] at hhead
    cases hhead
  · refine htarget m ?_
    rw [hstarting]
    rfl

section Example

def crashingModule : DiscoveredModule := { uuid := [117], object := 0 }

def otherModule : DiscoveredModule := { uuid := [118], object := 1 }

/-- A run whose process exits after one second, while frames are pulled and something else
happens. -/
def crashWhilePulling (e : ManagerEvent) : List ManagerEvent :=
  [.check, .spawn true, .reply, .reply, .reply, .wait (seconds 1), e, .processExit, .markExited,
    .leave, .beginTeardown, .finish]

/-- Three runs, in the last of which another module is selected. -/
def threeCrashes : List ManagerEvent :=
  .selectActive [117] [crashingModule] :: (crashWhilePulling (.wait 0) ++
    crashWhilePulling (.wait 0) ++ crashWhilePulling (.selectActive [118] [otherModule]))

def crashedManager : SubprocessManager :=
  { now := seconds 3, active := some otherModule, breakerUuid := some [117], breakerCount := 3 }

theorem not_spawned_after_three_crashes :
    spawned { crashedManager with stage := .starting otherModule } (.spawn true) =
      some otherModule ∧ otherModule.uuid ≠ crashingModule.uuid := by
  have hinit : (managerMachine.recording runEvents).RunIf (fun p => EndsInTime p.1) []
      (({ } : SubprocessManager), []) := .init ⟨⟨0, rfl⟩, rfl⟩
  have hthree : (managerMachine.recording runEvents).exec (fun p => EndsInTime p.1)
      (({ } : SubprocessManager), []) threeCrashes =
      some (crashedManager, [] ++ [.ran [117] true, .ran [117] true, .ran [117] true]) := by
    decide +kernel
  have hcheck : (managerMachine.startingAt crashedManager).Run [.check]
      { crashedManager with stage := .starting otherModule } :=
    @Machine.RunIf.step _ _ _ _ [] _ _ _ (.init rfl) trivial rfl
  exact ⟨rfl, not_spawned_after_three (hinit.append_exec hthree) hcheck (by simp) (.spawn true)
    otherModule rfl⟩

/-- A run whose process exits after one second, before the handshake, which is waited for. -/
def crashBeforeHandshake : List ManagerEvent :=
  [.check, .spawn true, .wait (seconds 1), .processExit, .markExited, .wait (seconds 29), .timeout,
    .beginTeardown, .finish]

/-- Three runs whose processes exit early, of one module that was selected once, and the next
process is spawned. -/
theorem early_exits_not_counted : ∃ es s es' s',
    (managerMachine.recording runEvents).Run (.selectActive [117] [crashingModule] :: es)
      (s, [.ran [117] true, .ran [117] true, .ran [117] true]) ∧
    (managerMachine.startingAt s).Run es' s' ∧
    (∀ e ∈ es ++ es', ∀ uuid loaded, e ≠ .selectActive uuid loaded) ∧
    spawned s' (.spawn true) = some crashingModule := by
  have hinit : (managerMachine.recording runEvents).Run [] (({ } : SubprocessManager), []) :=
    .init ⟨⟨0, rfl⟩, rfl⟩
  have hthree : (managerMachine.recording runEvents).exec (fun _ _ => True)
      (({ } : SubprocessManager), []) (.selectActive [117] [crashingModule] ::
        (crashBeforeHandshake ++ crashBeforeHandshake ++ crashBeforeHandshake)) =
      some ({ now := seconds 90, active := some crashingModule },
        [.ran [117] true, .ran [117] true, .ran [117] true]) := by
    decide +kernel
  refine ⟨_, _, [.check], _, hinit.append_exec hthree,
    @Machine.RunIf.step _ _ _ _ [] _ _ _ (.init rfl) trivial rfl, ?_, rfl⟩
  simp [crashBeforeHandshake]

end Example

end WKOpenVR.Face
