import Mathlib.Data.List.Chain
import Mathlib.Tactic.NormNum

/-!
# The pacing of the chatbox

VRChat limits the rate of chatbox messages. The captions host queues its messages in a
pacer (`ChatboxPacer`), which releases the next one once a minimum gap has passed since
the last. The queue has room for 16; the oldest message makes room for a new one.

`Clear` empties the queue, and forgets the last message released: the next one is
released at once. Over every sequence of calls, messages with no `Clear` between them
are at least the gap apart that is in force at the later one, and the queue holds the
newest of the messages, the others having been released, evicted or cleared in order
(`paced`).

Time points are integers, in the unit of the steady clock. The durations in seconds, and
the gaps, are in any linear order; `seconds` is the conversion of the source.
-/

namespace WKOpenVR.Captions

open List

structure ChatboxEntry where
  text : String
  sendImmediate : Bool
  notify : Bool
  deriving DecidableEq, Repr

def queueCap : ℕ := 16

structure ChatboxPacer (K : Type*) where
  minGapSec : K
  queue : List ChatboxEntry
  lastSend : ℤ
  firstSend : Bool

inductive PacerCall (K : Type*)
  | enqueue (e : ChatboxEntry)
  | clear
  | setMinGapSec (gap : K)
  | dequeueAt (now : ℤ)

/-- What is observed of a call: `released` is a message dequeued at a time, with the gap
    in force. -/
inductive PacerEvent (K : Type*)
  | enqueued (e : ChatboxEntry)
  | evicted (e : ChatboxEntry)
  | cleared (es : List ChatboxEntry)
  | released (now : ℤ) (gap : K) (e : ChatboxEntry)
  deriving DecidableEq

variable {K : Type*} (es : List (PacerEvent K))

def enqueued : List ChatboxEntry :=
  es.flatMap fun | .enqueued e => [e] | _ => []

def released : List ChatboxEntry :=
  es.flatMap fun | .released _ _ e => [e] | _ => []

/-- The messages that have left the queue. -/
def taken : List ChatboxEntry :=
  es.flatMap fun
    | .enqueued _ => []
    | .evicted e => [e]
    | .cleared es => es
    | .released _ _ e => [e]

theorem released_sublist : (released es).Sublist (taken es) := by
  induction es with
  | nil => exact .refl _
  | cons e es ih =>
    rw [released, taken, flatMap_cons, flatMap_cons]
    refine List.Sublist.append ?_ ih
    cases e <;> simp

variable [LinearOrder K] [Zero K] (seconds : ℤ → K)

namespace ChatboxPacer

variable (p : ChatboxPacer K)

def setMinGapSec (gap : K) : ChatboxPacer K := { p with minGapSec := if gap < 0 then 0 else gap }

def new (gap : K) : ChatboxPacer K :=
  setMinGapSec { minGapSec := 0, queue := [], lastSend := 0, firstSend := true } gap

def enqueue (e : ChatboxEntry) : ChatboxPacer K :=
  { p with queue := (if p.queue.length ≥ queueCap then p.queue.tail else p.queue) ++ [e] }

def clear : ChatboxPacer K := { p with queue := [], lastSend := 0, firstSend := true }

/-- `DequeueAt`: the message released, if any. -/
def dequeueAt (now : ℤ) : Option ChatboxEntry × ChatboxPacer K :=
  match p.queue with
  | [] => (none, p)
  | e :: queue =>
    if !p.firstSend && decide (seconds (now - p.lastSend) < p.minGapSec) then (none, p)
    else (some e, { p with queue := queue, lastSend := now, firstSend := false })

def step : PacerCall K → ChatboxPacer K
  | .enqueue e => p.enqueue e
  | .clear => p.clear
  | .setMinGapSec gap => p.setMinGapSec gap
  | .dequeueAt now => (p.dequeueAt seconds now).2

def observed : PacerCall K → List (PacerEvent K)
  | .enqueue e =>
    (if p.queue.length ≥ queueCap then p.queue.head?.toList.map .evicted else []) ++ [.enqueued e]
  | .clear => [.cleared p.queue]
  | .setMinGapSec _ => []
  | .dequeueAt now => (p.dequeueAt seconds now).1.toList.map (.released now p.minGapSec)

end ChatboxPacer

/-- The pacer after the calls, and what has been observed of them. -/
def pacerRun (gap : K) (cs : List (PacerCall K)) : ChatboxPacer K × List (PacerEvent K) :=
  cs.foldl (fun (p, es) c => (p.step seconds c, es ++ p.observed seconds c)) (.new gap, [])

theorem pacerRun_concat (gap : K) (cs : List (PacerCall K)) (c : PacerCall K) :
    pacerRun seconds gap (cs ++ [c]) =
      ((pacerRun seconds gap cs).1.step seconds c,
        (pacerRun seconds gap cs).2 ++ (pacerRun seconds gap cs).1.observed seconds c) := by
  rw [pacerRun, foldl_append]
  rfl

/-! ## What a call does -/

variable {seconds} {p : ChatboxPacer K} {es}

omit [Zero K] in
/-- A message is released once the gap has passed, if one has been released before. -/
theorem dequeueAt_cases (seconds : ℤ → K) (p : ChatboxPacer K) (now : ℤ) :
    p.dequeueAt seconds now = (none, p) ∨
      ∃ e queue, p.queue = e :: queue ∧
        (p.firstSend = false → p.minGapSec ≤ seconds (now - p.lastSend)) ∧
        p.dequeueAt seconds now =
          (some e, { p with queue := queue, lastSend := now, firstSend := false }) := by
  unfold ChatboxPacer.dequeueAt
  split
  · exact .inl rfl
  · rename_i e queue hqueue
    split_ifs with hwait
    · exact .inl rfl
    · refine .inr ⟨e, queue, hqueue, fun hfirst => ?_, rfl⟩
      simpa [hfirst] using hwait

/-- The messages have left the queue in order, and those that have not are in it. -/
structure InOrder (p : ChatboxPacer K) (es : List (PacerEvent K)) : Prop where
  order : enqueued es = taken es ++ p.queue
  bounded : p.queue.length ≤ queueCap

theorem InOrder.step (h : InOrder p es) (c : PacerCall K) :
    InOrder (p.step seconds c) (es ++ p.observed seconds c) := by
  obtain ⟨horder, hbounded⟩ := h
  simp only [enqueued, taken] at horder
  cases c with
  | enqueue e =>
    simp only [ChatboxPacer.step, ChatboxPacer.enqueue, ChatboxPacer.observed]
    split_ifs with hfull
    -- A full queue drops its oldest entry, which counts as taken.
    · cases hqueue : p.queue with
      | nil => simp [hqueue, queueCap] at hfull
      | cons e' queue =>
        rw [hqueue] at hbounded
        exact ⟨by simp [enqueued, taken, horder, hqueue], by simpa using hbounded⟩
    · refine ⟨by simp [enqueued, taken, horder], ?_⟩
      rw [length_append, length_singleton]
      omega
  | clear =>
    refine ⟨?_, Nat.zero_le _⟩
    simp [enqueued, taken, horder, ChatboxPacer.observed, ChatboxPacer.step, ChatboxPacer.clear]
  | setMinGapSec gap =>
    refine ⟨?_, hbounded⟩
    simpa [enqueued, taken, ChatboxPacer.observed, ChatboxPacer.step,
      ChatboxPacer.setMinGapSec] using horder
  | dequeueAt now =>
    simp only [ChatboxPacer.step, ChatboxPacer.observed]
    obtain hnone | ⟨e, queue, hqueue, -, hsome⟩ := dequeueAt_cases seconds p now
    · rw [hnone]
      exact ⟨by simpa [enqueued, taken] using horder, hbounded⟩
    · rw [hsome]
      rw [hqueue] at hbounded
      refine ⟨by simp [enqueued, taken, horder, hqueue], ?_⟩
      exact (Nat.le_succ _).trans hbounded

/-- The releases, and the calls of `Clear`. -/
def pauses (es : List (PacerEvent K)) : List (PacerEvent K) :=
  es.filter fun | .released .. | .cleared _ => true | _ => false

/-- Two releases are at least the gap apart that is in force at the second. -/
def Spaced (seconds : ℤ → K) : PacerEvent K → PacerEvent K → Prop
  | .released t₁ _ _, .released t₂ gap _ => gap ≤ seconds (t₂ - t₁)
  | _, _ => True

/-- The releases are spaced, and the pacer remembers the last one, if it has not been
    cleared since. -/
structure Timed (seconds : ℤ → K) (p : ChatboxPacer K) (es : List (PacerEvent K)) : Prop where
  chain : (pauses es).IsChain (Spaced seconds)
  last : ∀ t gap e, (pauses es).getLast? = some (.released t gap e) →
    p.firstSend = false ∧ p.lastSend = t

omit [LinearOrder K] [Zero K] in
theorem pauses_append (es es' : List (PacerEvent K)) :
    pauses (es ++ es') = pauses es ++ pauses es' :=
  filter_append ..

variable {q : ChatboxPacer K}

omit [Zero K] in
/-- Events other than releases and clears do not concern the pacing. -/
theorem Timed.append_of_pauses {es' : List (PacerEvent K)}
    (h : Timed seconds p es) (hes' : pauses es' = []) (hfirst : q.firstSend = p.firstSend)
    (hlast : q.lastSend = p.lastSend) : Timed seconds q (es ++ es') := by
  have heq : pauses (es ++ es') = pauses es := by rw [pauses_append, hes', append_nil]
  refine ⟨heq ▸ h.chain, fun t gap e ht => ?_⟩
  rw [hfirst, hlast]
  exact h.last t gap e (heq ▸ ht)

omit [Zero K] in
/-- A message is released once the gap has passed since the last release, which the pacer
    remembers. -/
theorem Timed.release {now : ℤ} {e : ChatboxEntry} (h : Timed seconds p es)
    (hgap : p.firstSend = false → p.minGapSec ≤ seconds (now - p.lastSend))
    (hfirst : q.firstSend = false) (hlast : q.lastSend = now) :
    Timed seconds q (es ++ [.released now p.minGapSec e]) := by
  have heq : pauses (es ++ [.released now p.minGapSec e]) =
      pauses es ++ [.released now p.minGapSec e] := pauses_append es _
  constructor
  · rw [heq]
    refine h.chain.append (.singleton _) fun x hx y hy => ?_
    obtain rfl : _ = y := by simpa using hy
    cases x with
    | released t gap e' =>
      obtain ⟨hfirst, rfl⟩ := h.last t gap e' hx
      exact hgap hfirst
    | enqueued | evicted | cleared => trivial
  · intro t gap e' ht
    rw [heq, getLast?_concat, Option.some.injEq, PacerEvent.released.injEq] at ht
    exact ⟨hfirst, hlast.trans ht.1⟩

theorem Timed.step (h : Timed seconds p es) (c : PacerCall K) :
    Timed seconds (p.step seconds c) (es ++ p.observed seconds c) := by
  cases c with
  | enqueue e =>
    refine h.append_of_pauses ?_ rfl rfl
    simp only [pauses, ChatboxPacer.observed]
    split_ifs
    · cases p.queue <;> rfl
    · rfl
  | clear =>
    have heq : pauses (es ++ p.observed seconds .clear) = pauses es ++ [.cleared p.queue] :=
      pauses_append es _
    refine ⟨?_, by simp [heq]⟩
    rw [heq]
    exact h.chain.append (.singleton _) (by simp [Spaced])
  | setMinGapSec gap => exact h.append_of_pauses rfl rfl rfl
  | dequeueAt now =>
    simp only [ChatboxPacer.step, ChatboxPacer.observed]
    obtain hnone | ⟨e, queue, -, hgap, hsome⟩ := dequeueAt_cases seconds p now
    · rw [hnone]
      exact h.append_of_pauses rfl rfl rfl
    · rw [hsome]
      exact h.release hgap rfl rfl

/-- Over every sequence of calls, releases without a `Clear` between them are at least
    the gap apart that is in force at the later one; messages leave the queue in the
    order in which they were enqueued, and those released are a subsequence of them; and
    the queue has at most 16 messages, the last ones enqueued. -/
theorem paced (seconds : ℤ → K) (gap : K) (cs : List (PacerCall K)) :
    (pauses (pacerRun seconds gap cs).2).IsChain (Spaced seconds) ∧
      (released (pacerRun seconds gap cs).2).Sublist (enqueued (pacerRun seconds gap cs).2) ∧
      enqueued (pacerRun seconds gap cs).2 =
        taken (pacerRun seconds gap cs).2 ++ (pacerRun seconds gap cs).1.queue ∧
      (pacerRun seconds gap cs).1.queue.length ≤ queueCap := by
  have hinv : InOrder (pacerRun seconds gap cs).1 (pacerRun seconds gap cs).2 ∧
      Timed seconds (pacerRun seconds gap cs).1 (pacerRun seconds gap cs).2 := by
    induction cs using List.reverseRecOn with
    | nil => exact ⟨⟨rfl, Nat.zero_le _⟩, .nil, fun t gap e h => by cases h⟩
    | append_singleton cs c ih =>
      rw [pacerRun_concat]
      exact ⟨ih.1.step c, ih.2.step c⟩
  obtain ⟨⟨horder, hbounded⟩, htimed⟩ := hinv
  refine ⟨htimed.chain, ?_, horder, hbounded⟩
  rw [horder]
  exact (released_sublist _).trans (List.sublist_append_left _ _)

def times (cs : List (PacerCall K)) : List ℤ :=
  cs.flatMap fun | .dequeueAt now => [now] | _ => []

def releases (es : List (PacerEvent K)) : List (PacerEvent K) :=
  es.filter fun | .released .. => true | _ => false

/-- A clock that ticks in nanoseconds. -/
def nanoseconds (t : ℤ) : ℚ := t / 10 ^ 9

/-- Two messages are asked for at the same time, with a `Clear` in between. -/
def clearInBetween : List (PacerCall ℚ) :=
  [.enqueue ⟨"first", true, false⟩, .dequeueAt (10 ^ 10), .clear,
    .enqueue ⟨"fresh", true, false⟩, .dequeueAt (10 ^ 10)]

/-- After a `Clear` a message is released at once, although one has just been. -/
theorem released_after_clear : (times clearInBetween).IsChain (· ≤ ·) ∧
    ¬(releases (pacerRun nanoseconds (6 / 5) clearInBetween).2).IsChain (Spaced nanoseconds) := by
  have hreleases : releases (pacerRun nanoseconds (6 / 5) clearInBetween).2 =
      [.released (10 ^ 10) (6 / 5) ⟨"first", true, false⟩,
        .released (10 ^ 10) (6 / 5) ⟨"fresh", true, false⟩] := by decide +kernel
  refine ⟨by decide, fun hchain => ?_⟩
  rw [hreleases] at hchain
  simp only [List.isChain_cons_cons, Spaced, nanoseconds] at hchain
  norm_num at hchain

end WKOpenVR.Captions
