import WKOpenVR.Machine
import WKOpenVR.LastWriter
import WKOpenVR.Face.AvatarConfig

/-!
# The allow list of the avatar

`OscQueryAdvertiser` receives OSC messages in a loop. A change of the avatar starts a task that
writes the addresses of its parameters to a file (`refresh`). Other parameters are collected,
and from time to time a task is started that infers from them which avatar it is (`inference`).
The tasks run beside the loop and one another, in any order.

Each task writes the file once at most. If they do so in the order in which they were started
(`InOrder`), then once all have finished, the file has the addresses of the avatar of the last
change, or of one inferred from parameters that were received after it
(`allowList_follows_avatar`). The tasks do not do so by themselves: a task that was started for
an avatar before may write later (`earlier_refresh_overwrites`).
-/

namespace WKOpenVR.Face

open Text Json List

def avatarChange : List UInt8 := ascii "/avatar/change"

/-- A message, with its first argument if that is a string. -/
structure OscCallback where
  address : List UInt8
  argument : List UInt8 := []

/-! ## The loop and its tasks -/

/-- Where the loop is with a message. -/
inductive Receiver
  | idle
  /-- A change of the avatar, before the observed parameters are cleared. -/
  | clearing (avatarId : List UInt8)
  | resolving (avatarId : List UInt8)
  | launching (avatarId : List UInt8)
  /-- `MaybeScheduleAllowListInference`. -/
  | parameter (address : List UInt8)
  | observing (address : List UInt8)
  | claiming (snapshot : List (List UInt8))

inductive TaskKind
  /-- `RefreshForAvatarAsync`. -/
  | refresh (avatarId : List UInt8)
  /-- `RefreshFromObservedParametersAsync`. -/
  | inference (snapshot : List (List UInt8))

inductive TaskPhase
  | started
  /-- The file is written, if there is something to write. -/
  | wrote
  | cached
  /-- The inference is known to have succeeded or not. -/
  | settled
  | done
  deriving DecidableEq

structure AllowListTask where
  kind : TaskKind
  phase : TaskPhase := .started

structure Advertiser where
  /-- The allow list on the disk. -/
  file : List UInt8
  cache : List UInt8 → Option (List UInt8) := fun _ => none
  observedAvatarParameters : List (List UInt8) := []
  lastInferenceObservedCount : ℕ := 0
  allowListInferenceInFlight : Bool := false
  allowListInferenceResolved : Bool := false
  receiver : Receiver := .idle
  /-- The tasks, in the order in which they were started. -/
  tasks : List AllowListTask := []

inductive AdvertiserEvent
  | receive (message : OscCallback)
  /-- The loop goes on with the message. -/
  | advance
  /-- A task goes on. -/
  | task (i : ℕ)

namespace Advertiser

variable (files : List Value) (s : Advertiser)

/-- The message is another parameter, in the lock. -/
def observe (address : List UInt8) : Advertiser :=
  if s.observedAvatarParameters.contains address then { s with receiver := .idle }
  else
    let observed := s.observedAvatarParameters ++ [address]
    if observed.length < 16 ∨ observed.length < s.lastInferenceObservedCount + 16 then
      { s with observedAvatarParameters := observed, receiver := .idle }
    else { s with
      observedAvatarParameters := observed
      lastInferenceObservedCount := observed.length
      receiver := .claiming observed }

def advance : Option Advertiser :=
  match s.receiver with
  | .idle => none
  | .clearing avatarId => some { s with
      observedAvatarParameters := []
      lastInferenceObservedCount := 0
      receiver := .resolving avatarId }
  | .resolving avatarId =>
    some { s with allowListInferenceResolved := false, receiver := .launching avatarId }
  | .launching avatarId =>
    some { s with tasks := s.tasks ++ [{ kind := .refresh avatarId }], receiver := .idle }
  | .parameter address =>
    if s.allowListInferenceResolved || !isAvatarParameterAddress address then
      some { s with receiver := .idle }
    else some { s with receiver := .observing address }
  | .observing address => some (s.observe address)
  | .claiming snapshot =>
    -- No inference is started beside another one, though the snapshot counts as one.
    if s.allowListInferenceInFlight then some { s with receiver := .idle }
    else some { s with
      allowListInferenceInFlight := true
      tasks := s.tasks ++ [{ kind := .inference snapshot }]
      receiver := .idle }

def toPhase (i : ℕ) (kind : TaskKind) (phase : TaskPhase) : Advertiser :=
  { s with tasks := s.tasks.set i { kind, phase } }

def runTask (i : ℕ) : Option Advertiser :=
  match s.tasks[i]? with
  | none => none
  | some ⟨.refresh avatarId, phase⟩ =>
    match phase with
    | .started =>
      some { s.toPhase i (.refresh avatarId) .wrote with
        file := refreshBody files s.cache avatarId }
    | .wrote =>
      match avatarConfig? files avatarId with
      | none => some (s.toPhase i (.refresh avatarId) .done)
      | some config => some { s.toPhase i (.refresh avatarId) .done with
          cache := writeCache s.cache avatarId config.addresses }
    | _ => none
  | some ⟨.inference snapshot, phase⟩ =>
    match phase, findBestAvatarConfigForObservedAddresses files snapshot with
    | .started, none => some (s.toPhase i (.inference snapshot) .settled)
    | .started, some config => some { s.toPhase i (.inference snapshot) .wrote with
        file := buildAllowListBody config.addresses }
    | .wrote, some config => some { s.toPhase i (.inference snapshot) .cached with
        cache := writeCache s.cache config.avatarId config.addresses }
    | .cached, _ =>
      some { s.toPhase i (.inference snapshot) .settled with allowListInferenceResolved := true }
    | .settled, _ =>
      some { s.toPhase i (.inference snapshot) .done with allowListInferenceInFlight := false }
    | _, _ => none

def step : AdvertiserEvent → Option Advertiser
  | .receive message =>
    match s.receiver with
    | .idle =>
      if message.address = avatarChange then some { s with receiver := .clearing message.argument }
      else some { s with receiver := .parameter message.address }
    | _ => none
  | .advance => s.advance
  | .task i => s.runTask files i

end Advertiser

variable (files : List Value)

def advertiserMachine : Machine Advertiser AdvertiserEvent where
  init := {s | ∃ file cache, s = { file, cache }}
  step := Advertiser.step files

/-! ## What the tasks write -/

variable (avatarId : List UInt8)

/-- The addresses of an avatar, by its configuration. -/
def avatarBody : List UInt8 :=
  if isNullOrWhiteSpace avatarId then []
  else buildAllowListBody ((avatarConfig? files avatarId).elim [] AvatarConfig.addresses)

/-- The configuration of the avatar is there and can be read, if it is an avatar. -/
def Readable : Prop :=
  isNullOrWhiteSpace avatarId = true ∨ (avatarConfig? files avatarId).isSome = true

/-- What a task writes to the file, if it writes. -/
def taskOutput : TaskKind → Option (List UInt8)
  | .refresh avatarId => some (avatarBody files avatarId)
  | .inference snapshot =>
    (findBestAvatarConfigForObservedAddresses files snapshot).map fun config =>
      buildAllowListBody config.addresses

/-- What a task has written to the file. -/
def written (t : AllowListTask) : Option (List UInt8) :=
  if t.phase = .started then none else taskOutput files t.kind

theorem refreshBody_of_readable {files : List Value} {avatarId : List UInt8}
    (h : Readable files avatarId) (cache : List UInt8 → Option (List UInt8)) :
    refreshBody files cache avatarId = avatarBody files avatarId := by
  unfold refreshBody avatarBody
  split_ifs with hblank
  · rfl
  · rcases h with hblank' | hconfig
    · exact absurd hblank' hblank
    · obtain ⟨config, hconfig⟩ := Option.isSome_iff_exists.1 hconfig
      rw [hconfig]
      rfl

/-! ## Messages -/

def AdvertiserEvent.message? : AdvertiserEvent → Option OscCallback
  | .receive message => some message
  | _ => none

/-- The avatar that a message tells. -/
def OscCallback.change? (message : OscCallback) : Option (List UInt8) :=
  if message.address = avatarChange then some message.argument else none

variable (es : List AdvertiserEvent)

def messages : List OscCallback :=
  es.filterMap AdvertiserEvent.message?

def changes : List (List UInt8) :=
  (messages es).filterMap OscCallback.change?

def lastChange : Option (List UInt8) := (changes es).getLast?

/-- The addresses received after the last change of the avatar. -/
def addressesSince : List (List UInt8) :=
  ((messages es).rtakeWhile fun message => message.address ≠ avatarChange).map OscCallback.address

/-- The configurations of the avatars that are changed to can be read. -/
def ConfigsReadable : AdvertiserEvent → Prop
  | .receive message => ∀ avatarId ∈ message.change?, Readable files avatarId
  | _ => True

/-- A task writes only while no task that was started later has written. -/
def InOrder (s : Advertiser) : AdvertiserEvent → Prop
  | .task i => ∀ t ∈ s.tasks[i]?, t.phase = .started → (taskOutput files t.kind).isSome = true →
      ∀ later ∈ s.tasks.drop (i + 1), written files later = none
  | _ => True

instance (files : List Value) (avatarId : List UInt8) : Decidable (Readable files avatarId) :=
  inferInstanceAs (Decidable (_ ∨ _))

instance (files : List Value) (e : AdvertiserEvent) : Decidable (ConfigsReadable files e) :=
  match e with
  | .receive message => inferInstanceAs (Decidable (∀ avatarId ∈ message.change?, _))
  | .advance | .task _ => .isTrue trivial

instance (files : List Value) (s : Advertiser) (e : AdvertiserEvent) :
    Decidable (InOrder files s e) :=
  match e with
  | .task i => inferInstanceAs (Decidable (∀ t ∈ s.tasks[i]?, _))
  | .receive _ | .advance => .isTrue trivial

section Messages

variable {es} {message : OscCallback}

theorem messages_concat_of_none {e : AdvertiserEvent} (h : e.message? = none) :
    messages (es ++ [e]) = messages es := by
  simp [messages, h]

theorem messages_receive : messages (es ++ [.receive message]) = messages es ++ [message] := by
  simp [messages, AdvertiserEvent.message?]

theorem changes_receive (h : message.address = avatarChange) :
    changes (es ++ [.receive message]) = changes es ++ [message.argument] := by
  simp [changes, messages_receive, OscCallback.change?, h]

theorem changes_receive_of_ne (h : message.address ≠ avatarChange) :
    changes (es ++ [.receive message]) = changes es := by
  simp [changes, messages_receive, OscCallback.change?, h]

theorem addressesSince_receive_of_ne (h : message.address ≠ avatarChange) :
    addressesSince (es ++ [.receive message]) = addressesSince es ++ [message.address] := by
  simp [addressesSince, messages_receive, h]

end Messages

/-! ## Runs -/

namespace Receiver

/-- The avatar whose refresh is not started yet. -/
def change? : Receiver → Option (List UInt8)
  | clearing avatarId | resolving avatarId | launching avatarId => some avatarId
  | _ => none

/-- The parameters that the loop is occupied with. -/
def addresses : Receiver → List (List UInt8)
  | parameter address | observing address => [address]
  | claiming snapshot => snapshot
  | _ => []

end Receiver

namespace TaskKind

def refresh? : TaskKind → Option (List UInt8)
  | refresh avatarId => some avatarId
  | inference _ => none

def snapshot : TaskKind → List (List UInt8)
  | refresh _ => []
  | inference snapshot => snapshot

/-- The inferences that were started after the last refresh. -/
def inferences (kinds : List TaskKind) : List TaskKind := kinds.rtakeWhile (·.refresh?.isNone)

end TaskKind

/-- How the state of the advertiser is related to the messages. -/
structure Tracks (files : List Value) (es : List AdvertiserEvent) (s : Advertiser) : Prop where
  readable : ∀ avatarId ∈ changes es, Readable files avatarId
  /-- Each change starts a refresh. -/
  launched : (s.tasks.map AllowListTask.kind).filterMap TaskKind.refresh? ++
    s.receiver.change?.toList = changes es
  cleared : ∀ avatarId, s.receiver = .resolving avatarId ∨ s.receiver = .launching avatarId →
    s.observedAvatarParameters = []
  observed : s.receiver.change? = none →
    ∀ a ∈ s.observedAvatarParameters ++ s.receiver.addresses, a ∈ addressesSince es
  inferred : s.receiver.change? = none →
    ∀ kind ∈ TaskKind.inferences (s.tasks.map AllowListTask.kind), ∀ a ∈ kind.snapshot,
      a ∈ addressesSince es
  file : ∀ body, lastWritten (written files) s.tasks = some body → s.file = body

variable {files es} {s s' : Advertiser} {avatarId}

theorem tracks_init {s : Advertiser} (h : s ∈ (advertiserMachine files).init) :
    Tracks files [] s := by
  obtain ⟨file, cache, rfl⟩ := h
  refine ⟨?_, rfl, ?_, ?_, ?_, ?_⟩
  · intro avatarId hmem
    cases hmem
  · intro avatarId _
    rfl
  · intro _ a ha
    cases ha
  · intro _ kind hkind
    cases hkind
  · intro body hbody
    cases hbody

open TaskKind

/-- While the refresh of a change is not started yet, nothing is known of the parameters. -/
theorem tracks_of_change (hreceiver : s.receiver.change? = some avatarId)
    (hreadable : ∀ avatarId ∈ changes es, Readable files avatarId)
    (hlaunched : (s.tasks.map AllowListTask.kind).filterMap refresh? ++ [avatarId] = changes es)
    (hcleared : ∀ avatarId, s.receiver = .resolving avatarId ∨ s.receiver = .launching avatarId →
      s.observedAvatarParameters = [])
    (hfile : ∀ body, lastWritten (written files) s.tasks = some body → s.file = body) :
    Tracks files es s := by
  have hsome (hnone : s.receiver.change? = none) : False := by
    rw [hreceiver] at hnone
    cases hnone
  refine ⟨hreadable, ?_, hcleared, fun hnone => (hsome hnone).elim,
    fun hnone => (hsome hnone).elim, hfile⟩
  rw [hreceiver]
  exact hlaunched

theorem Tracks.receive (h : Tracks files es s) {message : OscCallback}
    (hreadable : ConfigsReadable files (.receive message))
    (hs : s.step files (.receive message) = some s') :
    Tracks files (es ++ [.receive message]) s' := by
  simp only [Advertiser.step] at hs
  cases hreceiver : s.receiver with
  | idle =>
    have hlaunched := h.launched
    have hobserved := h.observed
    have hinferred := h.inferred
    rw [hreceiver] at hlaunched hobserved hinferred
    simp only [hreceiver] at hs
    split_ifs at hs with haddress
    · cases hs
      refine tracks_of_change rfl ?_ ?_ ?_ h.file
      · rw [changes_receive haddress]
        refine forall_mem_append.2 ⟨h.readable, forall_mem_singleton.2 (hreadable _ ?_)⟩
        rw [OscCallback.change?, if_pos haddress]
        rfl
      · -- The change is the one whose refresh is not started yet.
        rw [changes_receive haddress, ← hlaunched]
        simp [Receiver.change?]
      · rintro avatarId (heq | heq) <;> cases heq
    · cases hs
      refine ⟨?_, ?_, ?_, ?_, ?_, h.file⟩
      · rw [changes_receive_of_ne haddress]
        exact h.readable
      · rw [changes_receive_of_ne haddress]
        exact hlaunched
      · rintro avatarId (heq | heq) <;> cases heq
      · intro _ a ha
        rw [addressesSince_receive_of_ne haddress]
        rcases mem_append.1 ha with ha | ha
        · exact mem_append_left _ (hobserved rfl a (mem_append_left _ ha))
        · exact mem_append_right _ ha
      · intro _ kind hkind a ha
        rw [addressesSince_receive_of_ne haddress]
        exact mem_append_left _ (hinferred rfl kind hkind a ha)
  | _ =>
    rw [hreceiver] at hs
    cases hs

/-- The tracking does not depend on what is not a message. -/
theorem Tracks.of_messages {es' : List AdvertiserEvent} (h : Tracks files es s)
    (hmessages : messages es' = messages es) : Tracks files es' s := by
  have hchanges : changes es' = changes es := by rw [changes, changes, hmessages]
  have hsince : addressesSince es' = addressesSince es := by
    rw [addressesSince, addressesSince, hmessages]
  refine ⟨?_, ?_, h.cleared, ?_, ?_, h.file⟩
  · rw [hchanges]
    exact h.readable
  · rw [hchanges]
    exact h.launched
  · rw [hsince]
    exact h.observed
  · rw [hsince]
    exact h.inferred

theorem written_started (files : List Value) (kind : TaskKind) :
    written files { kind } = none := rfl

/-- The loop goes on with a message that is no change, and starts no task. -/
theorem Tracks.listen (h : Tracks files es s) (hreceiver : s.receiver.change? = none)
    (hreceiver' : s'.receiver.change? = none) (htasks : s'.tasks = s.tasks)
    (hfile : s'.file = s.file)
    (hobserved : ∀ a ∈ s'.observedAvatarParameters ++ s'.receiver.addresses,
      a ∈ s.observedAvatarParameters ++ s.receiver.addresses) : Tracks files es s' := by
  refine ⟨h.readable, ?_, ?_, ?_, ?_, ?_⟩
  · rw [htasks, hreceiver', ← hreceiver]
    exact h.launched
  · intro avatarId hpending
    rcases hpending with heq | heq <;>
    · rw [heq] at hreceiver'
      cases hreceiver'
  · intro _ a ha
    exact h.observed hreceiver a (hobserved a ha)
  · intro _
    rw [htasks]
    exact h.inferred hreceiver
  · rw [htasks, hfile]
    exact h.file

theorem Tracks.idle (h : Tracks files es s) (hreceiver : s.receiver.change? = none) :
    Tracks files es { s with receiver := .idle } := by
  refine h.listen hreceiver rfl rfl rfl fun a ha => ?_
  exact mem_append_left _ (by simpa [Receiver.addresses] using ha)

theorem Tracks.observe (h : Tracks files es s) {address : List UInt8}
    (hreceiver : s.receiver = .observing address) : Tracks files es (s.observe address) := by
  have hnone : s.receiver.change? = none := by rw [hreceiver]; rfl
  have haddresses : s.receiver.addresses = [address] := by rw [hreceiver]; rfl
  unfold Advertiser.observe
  dsimp only
  split_ifs
  · exact h.idle hnone
  · refine h.listen hnone rfl rfl rfl fun a ha => ?_
    rw [haddresses]
    simpa [Receiver.addresses] using ha
  · refine h.listen hnone rfl rfl rfl fun a ha => ?_
    rw [haddresses]
    rcases mem_append.1 ha with ha | ha
    · exact ha
    · exact ha

theorem Tracks.startInference (h : Tracks files es { s with receiver := .idle })
    {snapshot : List (List UInt8)} (hsnapshot : ∀ a ∈ snapshot, a ∈ addressesSince es) :
    Tracks files es { s with
      allowListInferenceInFlight := true
      tasks := s.tasks ++ [{ kind := .inference snapshot }]
      receiver := .idle } := by
  refine ⟨h.readable, ?_, h.cleared, h.observed, ?_, ?_⟩
  · rw [← h.launched]
    simp [refresh?]
  · intro hnone kind hkind a ha
    simp only [inferences, map_append, map_cons, map_nil] at hkind
    rw [rtakeWhile_concat_pos _ _ _ rfl] at hkind
    rcases mem_append.1 hkind with hkind | hkind
    · exact h.inferred hnone kind hkind a ha
    · obtain rfl := mem_singleton.1 hkind
      exact hsnapshot a ha
  · rw [lastWritten_concat (written_started files _)]
    exact h.file

/-- A refresh is started for a change, and the parameters from before it are not observed any
more. -/
theorem Tracks.startRefresh (h : Tracks files es s) (hreceiver : s.receiver = .launching avatarId) :
    Tracks files es
      { s with tasks := s.tasks ++ [{ kind := .refresh avatarId }], receiver := .idle } := by
  have hcleared := h.cleared avatarId (.inr hreceiver)
  have hlaunched := h.launched
  rw [hreceiver] at hlaunched
  refine ⟨h.readable, ?_, ?_, ?_, ?_, ?_⟩
  · rw [← hlaunched]
    simp [Receiver.change?, refresh?]
  · rintro avatarId (heq | heq) <;> cases heq
  · intro _ a ha
    simp [hcleared, Receiver.addresses] at ha
  · intro _ kind hkind
    simp [inferences, refresh?] at hkind
  · rw [lastWritten_concat (written_started files _)]
    exact h.file

theorem Tracks.advance (h : Tracks files es s) (hs : s.advance = some s') : Tracks files es s' := by
  have hlaunched := h.launched
  unfold Advertiser.advance at hs
  cases hreceiver : s.receiver with
  | idle =>
    rw [hreceiver] at hs
    cases hs
  -- A change of avatar is in hand until its task is launched.
  | clearing avatarId =>
    rw [hreceiver] at hs hlaunched
    cases hs
    exact tracks_of_change rfl h.readable hlaunched (fun _ _ => rfl) h.file
  | resolving avatarId =>
    have hcleared := h.cleared avatarId (.inl hreceiver)
    rw [hreceiver] at hs hlaunched
    cases hs
    exact tracks_of_change rfl h.readable hlaunched (fun _ _ => hcleared) h.file
  | launching avatarId =>
    rw [hreceiver] at hs
    cases hs
    exact h.startRefresh hreceiver
  | parameter address =>
    have hnone : s.receiver.change? = none := by rw [hreceiver]; rfl
    rw [hreceiver] at hs
    dsimp only at hs
    split_ifs at hs
    · cases hs
      exact h.idle hnone
    · cases hs
      refine h.listen hnone rfl rfl rfl fun a ha => ?_
      rw [hreceiver]
      exact ha
  | observing address =>
    rw [hreceiver] at hs
    cases hs
    exact h.observe hreceiver
  | claiming snapshot =>
    have hnone : s.receiver.change? = none := by rw [hreceiver]; rfl
    -- The snapshot is of addresses heard since the last change.
    have hsnapshot : ∀ a ∈ snapshot, a ∈ addressesSince es := by
      intro a ha
      refine h.observed hnone a (mem_append_right _ ?_)
      rw [hreceiver]
      exact ha
    rw [hreceiver] at hs
    dsimp only at hs
    split_ifs at hs
    · cases hs
      exact h.idle hnone
    · cases hs
      exact (h.idle hnone).startInference hsnapshot

/-- What a task does to the file in a step. -/
def fileAfter (files : List Value) (s : Advertiser) : TaskKind → TaskPhase → List UInt8
  | .refresh avatarId, .started => refreshBody files s.cache avatarId
  | .inference snapshot, .started => (taskOutput files (.inference snapshot)).getD s.file
  | _, _ => s.file

/-- A task goes on to another phase, and writes the file only in its first step. -/
theorem runTask_cases {i : ℕ} (hs : s.runTask files i = some s') :
    ∃ kind phase phase', s.tasks[i]? = some ⟨kind, phase⟩ ∧ phase' ≠ .started ∧
      s'.tasks = s.tasks.set i ⟨kind, phase'⟩ ∧ s'.receiver = s.receiver ∧
      s'.observedAvatarParameters = s.observedAvatarParameters ∧
      s'.file = fileAfter files s kind phase := by
  unfold Advertiser.runTask at hs
  cases htask : s.tasks[i]? with
  | none =>
    rw [htask] at hs
    cases hs
  | some t =>
    obtain ⟨kind, phase⟩ := t
    rw [htask] at hs
    cases kind with
    | refresh avatarId =>
      cases phase with
      | started =>
        cases hs
        exact ⟨_, _, .wrote, rfl, by decide, rfl, rfl, rfl, rfl⟩
      | wrote =>
        dsimp only at hs
        split at hs <;> cases hs <;>
          exact ⟨_, _, .done, rfl, by decide, rfl, rfl, rfl, rfl⟩
      | _ => cases hs
    | inference snapshot =>
      dsimp only at hs
      cases hbest : findBestAvatarConfigForObservedAddresses files snapshot with
      | none =>
        rw [hbest] at hs
        cases phase with
        | started =>
          cases hs
          refine ⟨_, _, .settled, rfl, by decide, rfl, rfl, rfl, ?_⟩
          simp [fileAfter, taskOutput, hbest, Advertiser.toPhase]
        | _ => cases hs <;> refine ⟨_, _, _, rfl, ?_, rfl, rfl, rfl, rfl⟩ <;> decide
      | some config =>
        rw [hbest] at hs
        cases phase with
        | started =>
          cases hs
          refine ⟨_, _, .wrote, rfl, by decide, rfl, rfl, rfl, ?_⟩
          simp [fileAfter, taskOutput, hbest]
        | _ => cases hs <;> refine ⟨_, _, _, rfl, ?_, rfl, rfl, rfl, rfl⟩ <;> decide

theorem Tracks.runTask {i : ℕ} (h : Tracks files es s) (horder : InOrder files s (.task i))
    (hs : s.runTask files i = some s') : Tracks files es s' := by
  obtain ⟨kind, phase, phase', htask, hphase', htasks, hreceiver, hobserved, hfile⟩ :=
    runTask_cases hs
  have hkinds : s'.tasks.map AllowListTask.kind = s.tasks.map AllowListTask.kind := by
    obtain ⟨hsplit, hset⟩ := eq_take_append_cons_drop htask
    rw [htasks, hset]
    conv_rhs => rw [hsplit]
    simp only [map_append, map_cons]
  have hreadable : ∀ avatarId, kind = .refresh avatarId → Readable files avatarId := by
    rintro avatarId rfl
    refine h.readable avatarId ?_
    rw [← h.launched]
    refine mem_append_left _ (mem_filterMap.2 ⟨.refresh avatarId, ?_, rfl⟩)
    exact mem_map.2 ⟨_, mem_of_getElem? htask, rfl⟩
  refine ⟨h.readable, ?_, ?_, ?_, ?_, ?_⟩
  · rw [hkinds, hreceiver]
    exact h.launched
  · rw [hreceiver, hobserved]
    exact h.cleared
  · rw [hreceiver, hobserved]
    exact h.observed
  · rw [hreceiver, hkinds]
    exact h.inferred
  · intro body hbody
    have hwritten : written files ⟨kind, phase'⟩ = taskOutput files kind := if_neg hphase'
    rw [htasks] at hbody
    rw [hfile]
    by_cases hstarted : phase = .started
    · subst hstarted
      cases houtput : taskOutput files kind with
      | none =>
        -- An inference that finds no avatar.
        rw [lastWritten_set_of_eq htask (hwritten.trans houtput)] at hbody
        cases kind with
        | refresh avatarId => cases houtput
        | inference snapshot =>
          rw [fileAfter, houtput]
          exact h.file body hbody
      | some output =>
        -- No later task has written, so this one is the last to have done so.
        have hlater := horder _ htask rfl (by rw [houtput]; rfl)
        rw [lastWritten_set htask (hwritten.trans houtput) hlater] at hbody
        cases hbody
        cases kind with
        | refresh avatarId =>
          rw [fileAfter, refreshBody_of_readable (hreadable avatarId rfl)]
          exact Option.some.inj houtput
        | inference snapshot =>
          rw [fileAfter, houtput]
          rfl
    · -- Past its first step, a task leaves the file alone.
      have hsame : written files ⟨kind, phase'⟩ = written files ⟨kind, phase⟩ :=
        hwritten.trans (if_neg hstarted).symm
      rw [lastWritten_set_of_eq htask hsame] at hbody
      have hkeep : fileAfter files s kind phase = s.file := by
        cases phase with
        | started => exact absurd rfl hstarted
        | _ => cases kind <;> rfl
      rw [hkeep]
      exact h.file body hbody

theorem Tracks.step {e : AdvertiserEvent} (h : Tracks files es s)
    (hreadable : ConfigsReadable files e) (horder : InOrder files s e)
    (hs : s.step files e = some s') : Tracks files (es ++ [e]) s' := by
  cases e with
  | receive message => exact h.receive hreadable hs
  | advance => exact (h.advance hs).of_messages (messages_concat_of_none rfl)
  | task i => exact (h.runTask horder hs).of_messages (messages_concat_of_none rfl)

theorem tracks_of_run (h : (advertiserMachine files).RunIf
    (fun s e => ConfigsReadable files e ∧ InOrder files s e) es s) : Tracks files es s := by
  refine Machine.RunIf.history_invariant (I := Tracks files) h ?_ ?_
  · intro s hs
    exact tracks_init hs
  · intro es s e s' ih hguard hs
    exact ih.step hguard.1 hguard.2 hs

/-- The last refresh, and the inferences after it. -/
theorem exists_last_refresh {kinds : List TaskKind}
    (h : (kinds.filterMap refresh?).getLast? = some avatarId) :
    ∃ before, kinds = before ++ .refresh avatarId :: inferences kinds := by
  induction kinds using List.reverseRecOn with
  | nil => cases h
  | append_singleton kinds kind ih =>
    cases kind with
    | refresh id =>
      obtain rfl : id = avatarId := by simpa [refresh?] using h
      exact ⟨kinds, by simp [inferences, refresh?]⟩
    | inference snapshot =>
      -- The last refresh is among the tasks before, and this inference comes after it.
      obtain ⟨before, hkinds⟩ := ih (by simpa [refresh?] using h)
      have hlast : inferences (kinds ++ [.inference snapshot]) =
          inferences kinds ++ [.inference snapshot] :=
        rtakeWhile_concat_pos _ _ _ rfl
      refine ⟨before, ?_⟩
      rw [hlast]
      conv_lhs => rw [hkinds]
      simp

/-- Once the loop is idle and all tasks have finished, the allow list has the addresses of the
avatar of the last change, or those of one that a task inferred from addresses received after
it, if the tasks write in the order in which they were started. -/
theorem allowList_follows_avatar (h : (advertiserMachine files).RunIf
      (fun s e => ConfigsReadable files e ∧ InOrder files s e) es s)
    (hidle : s.receiver = .idle) (hdone : ∀ t ∈ s.tasks, t.phase = .done) {avatarId : List UInt8}
    (hlast : lastChange es = some avatarId) :
    s.file = avatarBody files avatarId ∨
      ∃ t ∈ s.tasks, ∃ snapshot config, t.kind = .inference snapshot ∧
        (∀ a ∈ snapshot, a ∈ addressesSince es) ∧
        findBestAvatarConfigForObservedAddresses files snapshot = some config ∧
        s.file = buildAllowListBody config.addresses := by
  have htracks := tracks_of_run h
  have hlaunched := htracks.launched
  have hinferred := htracks.inferred
  rw [hidle] at hlaunched hinferred
  simp only [Receiver.change?, Option.toList_none, append_nil] at hlaunched
  rw [lastChange, ← hlaunched] at hlast
  obtain ⟨before, hkinds⟩ := exists_last_refresh hlast
  obtain ⟨tasks, rest, htasks, -, hrest⟩ := map_eq_append_iff.1 hkinds
  obtain ⟨t, later, rfl, hkind, hlater⟩ := map_eq_cons_iff.1 hrest
  have hwritten (k : AllowListTask) (hk : k ∈ s.tasks) :
      written files k = taskOutput files k.kind :=
    if_neg (by rw [hdone k hk]; decide)
  have ht : written files t = some (avatarBody files avatarId) := by
    rw [hwritten t (by simp [htasks]), hkind]
    rfl
  have hfile := htracks.file
  rw [htasks] at hfile
  rcases lastWritten_append_cons ht with heq | ⟨k, hk, body, hbody, heq⟩
  · exact .inl (hfile _ heq)
  · -- The last task that has written was started after the refresh of the last change.
    have hkind' : k.kind ∈ TaskKind.inferences (s.tasks.map AllowListTask.kind) := by
      rw [← hlater]
      exact mem_map_of_mem hk
    have hmem : k ∈ s.tasks := by simp [htasks, hk]
    rw [hwritten k hmem] at hbody
    have hsnapshot := hinferred rfl k.kind hkind'
    have hinference := mem_rtakeWhile_imp hkind'
    cases hk' : k.kind with
    | refresh id =>
      rw [hk'] at hinference
      cases hinference
    | inference snapshot =>
      rw [hk'] at hbody hsnapshot
      obtain ⟨config, hconfig, rfl⟩ := Option.map_eq_some_iff.1 hbody
      exact .inr ⟨k, hmem, snapshot, config, hk', hsnapshot, hconfig, hfile _ heq⟩

section Example

variable (name : String)

/-- The configuration of an avatar with one parameter. -/
def avatarFile : Value :=
  .object [(ascii "id", .string (ascii name)),
    (ascii "parameters", .array [.object [(ascii "input", .object
      [(ascii "address", .string (avatarAddressPrefix ++ ascii name)),
        (ascii "type", .string (ascii "Float"))])]])]

def avatarFiles : List Value := [avatarFile "a", avatarFile "b"]

/-- A change of the avatar, up to the start of its refresh. -/
def changeTo : List AdvertiserEvent :=
  [.receive ⟨avatarChange, ascii name⟩, .advance, .advance, .advance]

/-- The avatar is changed twice, then the tasks that this has started go on in some order. -/
def twoChanges (order : List ℕ) : List AdvertiserEvent :=
  changeTo "a" ++ changeTo "b" ++ order.map .task

/-- The loop is idle, all tasks have finished, and the file is the list of an avatar. -/
def finishedWith (s : Advertiser) : Bool :=
  (match s.receiver with | .idle => true | _ => false) && s.tasks.all (·.phase == .done) &&
    s.file == avatarBody avatarFiles (ascii name)

theorem finishedWith_iff {name : String} {s : Advertiser} :
    finishedWith name s = true ↔ s.receiver = .idle ∧ (∀ t ∈ s.tasks, t.phase = .done) ∧
      s.file = avatarBody avatarFiles (ascii name) := by
  have hidle : (match s.receiver with | .idle => true | _ => false) = true ↔
      s.receiver = .idle := by
    cases s.receiver <;> simp
  simp [finishedWith, hidle, and_assoc]

theorem allowList_follows_avatar_b :
    ∃ s, (advertiserMachine avatarFiles).RunIf
        (fun s e => ConfigsReadable avatarFiles e ∧ InOrder avatarFiles s e)
        (twoChanges [0, 0, 1, 1]) s ∧
      (s.file = avatarBody avatarFiles (ascii "b") ∨
        ∃ t ∈ s.tasks, ∃ snapshot config, t.kind = .inference snapshot ∧
          (∀ a ∈ snapshot, a ∈ addressesSince (twoChanges [0, 0, 1, 1])) ∧
          findBestAvatarConfigForObservedAddresses avatarFiles snapshot = some config ∧
          s.file = buildAllowListBody config.addresses) := by
  refine Machine.exists_runIf_of _ (P := (finishedWith "b" · = true)) _ ⟨[], fun _ => none, rfl⟩
    (by decide +kernel) fun s hrun hs => ?_
  obtain ⟨hidle, hdone, -⟩ := finishedWith_iff.1 hs
  exact allowList_follows_avatar hrun hidle hdone (by decide +kernel)

/-- The refresh of the first avatar writes after that of the second: the file keeps the list of
an avatar that is no longer worn, and no address has come from which another could be inferred. -/
theorem earlier_refresh_overwrites :
    ∃ s, (advertiserMachine avatarFiles).RunIf (fun _ e => ConfigsReadable avatarFiles e)
        (twoChanges [1, 1, 0, 0]) s ∧
      s.receiver = .idle ∧ (∀ t ∈ s.tasks, t.phase = .done) ∧
      lastChange (twoChanges [1, 1, 0, 0]) = some (ascii "b") ∧
      addressesSince (twoChanges [1, 1, 0, 0]) = [] ∧
      s.file = avatarBody avatarFiles (ascii "a") ∧
      s.file ≠ avatarBody avatarFiles (ascii "b") := by
  refine Machine.exists_runIf_of _ (P := (finishedWith "a" · = true)) _ ⟨[], fun _ => none, rfl⟩
    (by decide +kernel) fun s _ hs => ?_
  obtain ⟨hidle, hdone, hfile⟩ := finishedWith_iff.1 hs
  refine ⟨hidle, hdone, by decide +kernel, by decide +kernel, hfile, ?_⟩
  rw [hfile]
  decide +kernel

end Example

end WKOpenVR.Face
