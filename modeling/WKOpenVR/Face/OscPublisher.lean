import WKOpenVR.Face.OscParameters

/-!
# Publishing a face frame

The parameters of a frame are published one after the other (`FaceOscPublisher.cpp`). If
an allowlist is known, a parameter is sent to the line that its address stands for, once
for each line (`oscPublishFloat`). How each parameter ended is counted.

The lines are compared as strings, and the address that is sent is the line up to its
first NUL byte. So a frame is published as it should be, to addresses of the allowlist and
to each of them once, if and only if the lines it goes to are also distinct lines of the
list when they are cut there (`delivered_iff`); it is if no line has a NUL byte
(`AddressFilter.unambiguous_of_nul_free`).

A line that is not the first one with its key is not sent to, even if it is itself the address
that is published (`sends_listed_iff`).
-/

namespace WKOpenVR.Face

open Text FloatArith List

/-- The bytes of a string up to the first NUL (`c_str`). -/
def cStr (s : List UInt8) : List UInt8 := s.takeWhile (· != 0)

structure Counts where
  attempted : ℕ := 0
  sent : ℕ := 0
  dropped : ℕ := 0
  filtered : ℕ := 0
  deduped : ℕ := 0
  remapped : ℕ := 0

namespace Counts

variable (counts : Counts)

def add (other : Counts) : Counts where
  attempted := counts.attempted + other.attempted
  sent := counts.sent + other.sent
  dropped := counts.dropped + other.dropped
  filtered := counts.filtered + other.filtered
  deduped := counts.deduped + other.deduped
  remapped := counts.remapped + other.remapped

/-- Every attempt is counted by how it ended. -/
def Accounted : Prop :=
  counts.attempted = counts.sent + counts.dropped + counts.filtered + counts.deduped

instance (counts : Counts) : Decidable counts.Accounted :=
  inferInstanceAs (Decidable (_ = _))

theorem Accounted.add {counts other : Counts} (h : counts.Accounted) (h' : other.Accounted) :
    (counts.add other).Accounted := by
  simp only [Accounted, Counts.add] at *
  omega

end Counts

/-- What is kept while a frame is published. -/
structure Publisher (K : Type*) where
  /-- The lines that something was sent to. -/
  filteredDestinations : List Address := []
  /-- What was handed to the socket. -/
  sends : List (Address × K) := []

section

variable {K : Type*}

/-- A message is handed to the socket. The socket takes the `n`th message of a frame if
    `outcome n`. -/
def sendOsc (outcome : ℕ → Bool) (counts : Counts) (p : Publisher K) (address : Address)
    (value : K) : Counts × Publisher K :=
  (if outcome p.sends.length then { counts with sent := counts.sent + 1 }
    else { counts with dropped := counts.dropped + 1 },
   { p with sends := p.sends ++ [(address, value)] })

variable (filter : Option AddressFilter)

def oscPublishFloat (outcome : ℕ → Bool)
    (s : Counts × Publisher K) (call : Address × K) : Counts × Publisher K :=
  let (address, value) := call
  let counts := { s.1 with attempted := s.1.attempted + 1 }
  match filter.filter AddressFilter.active with
  | none => sendOsc outcome counts s.2 address value
  | some filter =>
    match filter.compatibleAddress address with
    | none => ({ counts with filtered := counts.filtered + 1 }, s.2)
    | some line =>
      if s.2.filteredDestinations.contains line then
        ({ counts with deduped := counts.deduped + 1 }, s.2)
      else
        sendOsc outcome
          { counts with remapped := counts.remapped + if line = address then 0 else 1 }
          { s.2 with filteredDestinations := s.2.filteredDestinations ++ [line] }
          (cStr line) value

/-- A group of parameters is published, with counts of its own. -/
def publish (outcome : ℕ → Bool) (calls : List (Address × K))
    (p : Publisher K) : Counts × Publisher K :=
  calls.foldl (oscPublishFloat filter outcome) ({}, p)

/-- The groups of parameters of a frame. With an allowlist, the computed parameters go
    first. -/
def groups [FloatArith K] (filter : Option AddressFilter) (frame : Frame K) :
    List (List (Address × K)) :=
  (if frame.flags &&& 1 ≠ 0 then [publishEye frame] else []) ++
    if frame.flags &&& 2 ≠ 0 then
      if filter.any AddressFilter.active then [publishCurrentVrcft frame, publishExpressions frame]
      else [publishExpressions frame, publishCurrentVrcft frame]
    else []

/-- The counts of a group are added to those of the frame. -/
def addGroup (outcome : ℕ → Bool) (s : Counts × Publisher K)
    (calls : List (Address × K)) : Counts × Publisher K :=
  let (counts, p) := publish filter outcome calls s.2
  (s.1.add counts, p)

def publishFaceFrameOsc [FloatArith K] (filter : Option AddressFilter) (outcome : ℕ → Bool)
    (frame : Frame K) : Counts × Publisher K :=
  (groups filter frame).foldl (addGroup filter outcome) ({}, {})

end

/-! ## What is published -/

section

variable {K : Type*} {filter : AddressFilter}

/-- A frame was published as it should be: to addresses of the allowlist, to each of them
    at most once, and with every parameter accounted for. -/
structure Delivered (filter : AddressFilter) (s : Counts × Publisher K) : Prop where
  once : (s.2.sends.map Prod.fst).Nodup
  allowed : ∀ address ∈ s.2.sends.map Prod.fst, address ∈ filter.allowed
  accounted : s.1.Accounted

/-- The lines that the addresses stand for are distinct lines of the allowlist up to their
    first NUL byte. -/
structure AddressFilter.Unambiguous (filter : AddressFilter) (addresses : List Address) :
    Prop where
  mem_allowed : ∀ a ∈ addresses, ∀ line, filter.compatibleAddress a = some line →
    cStr line ∈ filter.allowed
  eq_of_cStr : ∀ a ∈ addresses, ∀ b ∈ addresses, ∀ line line',
    filter.compatibleAddress a = some line → filter.compatibleAddress b = some line' →
    cStr line = cStr line' → line = line'

/-- The addresses of the parameters of a frame. -/
def Frame.addresses [FloatArith K] (filter : AddressFilter) (frame : Frame K) : List Address :=
  (groups (some filter) frame).flatMap fun calls => calls.map Prod.fst

/-- The addresses went to the lines that they stand for, to each line once. -/
structure Reached (filter : AddressFilter) (addresses : List Address) (p : Publisher K) :
    Prop where
  sends : p.sends.map Prod.fst = p.filteredDestinations.map cStr
  nodup : p.filteredDestinations.Nodup
  mem_iff : ∀ line, line ∈ p.filteredDestinations ↔
    ∃ a ∈ addresses, filter.compatibleAddress a = some line

/-- The parameters with these addresses were published: they are accounted for, and went to
    the lines that they stand for. -/
structure Progress (filter : AddressFilter) (addresses : List Address)
    (s : Counts × Publisher K) : Prop where
  accounted : s.1.Accounted
  reached : Reached filter addresses s.2

/-- Lines without a NUL byte are sent as they are. -/
theorem AddressFilter.unambiguous_of_nul_free (h : ∀ line ∈ filter.allowed, 0 ∉ line)
    (addresses : List Address) : filter.Unambiguous addresses := by
  have hcut {a line : Address} (hline : filter.compatibleAddress a = some line) :
      cStr line = line := by
    refine takeWhile_eq_self_iff.2 fun c hc => bne_iff_ne.2 ?_
    rintro rfl
    exact h line (mem_allowed_of_compatibleAddress hline) hc
  constructor
  · intro a _ line hline
    rw [hcut hline]
    exact mem_allowed_of_compatibleAddress hline
  · intro a _ b _ line line' hline hline' heq
    rwa [hcut hline, hcut hline'] at heq

theorem Reached.init : Reached filter [] ({} : Publisher K) where
  sends := rfl
  nodup := nodup_nil
  mem_iff line := by simp

variable {addresses : List Address} {p : Publisher K} {a line : Address}

/-- An address that stands for no line, or for one that something went to, changes nothing. -/
theorem Reached.skip (h : Reached filter addresses p)
    (hskip : ∀ line, filter.compatibleAddress a = some line → line ∈ p.filteredDestinations) :
    Reached filter (addresses ++ [a]) p where
  sends := h.sends
  nodup := h.nodup
  mem_iff line := by
    constructor
    · intro hline
      obtain ⟨b, hb, hline⟩ := (h.mem_iff line).1 hline
      exact ⟨b, mem_append_left _ hb, hline⟩
    · rintro ⟨b, hb, hline⟩
      rcases mem_append.1 hb with hb | hb
      · exact (h.mem_iff line).2 ⟨b, hb, hline⟩
      · obtain rfl := mem_singleton.1 hb
        exact hskip line hline

/-- An address goes to a line that nothing went to. -/
theorem Reached.send (h : Reached filter addresses p)
    (hline : filter.compatibleAddress a = some line) (hnew : line ∉ p.filteredDestinations)
    (value : K) :
    Reached filter (addresses ++ [a])
      { filteredDestinations := p.filteredDestinations ++ [line]
        sends := p.sends ++ [(cStr line, value)] } where
  sends := by simp [h.sends]
  nodup := by
    rw [nodup_append]
    refine ⟨h.nodup, nodup_singleton line, ?_⟩
    rintro line' hline' _ hmem rfl
    rw [mem_singleton] at hmem
    exact hnew (hmem ▸ hline')
  mem_iff line' := by
    rw [mem_append, mem_singleton, h.mem_iff]
    constructor
    · rintro (⟨b, hb, hline'⟩ | rfl)
      · exact ⟨b, mem_append_left _ hb, hline'⟩
      · exact ⟨a, mem_append_right _ (mem_singleton_self a), hline⟩
    · rintro ⟨b, hb, hline'⟩
      rcases mem_append.1 hb with hb | hb
      · exact .inl ⟨b, hb, hline'⟩
      · obtain rfl := mem_singleton.1 hb
        exact .inr (Option.some_inj.1 (hline'.symm.trans hline))

theorem sendOsc_accounted {counts : Counts} (p : Publisher K) {outcome : ℕ → Bool}
    (address : Address) (value : K)
    (h : counts.attempted =
      counts.sent + counts.dropped + counts.filtered + counts.deduped + 1) :
    (sendOsc outcome counts p address value).1.Accounted := by
  simp only [sendOsc, Counts.Accounted]
  split_ifs
  · simp only [h]
    omega
  · simp only [h]
    omega

variable {s : Counts × Publisher K}

/-- A parameter is accounted for, and goes to the line that its address stands for. -/
theorem Progress.oscPublishFloat (hactive : filter.active = true) (outcome : ℕ → Bool)
    (h : Progress filter addresses s) (call : Address × K) :
    Progress filter (addresses ++ [call.1]) (oscPublishFloat (some filter) outcome s call) := by
  have hfilter : (some filter).filter AddressFilter.active = some filter := by
    rw [Option.filter_some, if_pos hactive]
  have hcounts := h.accounted
  simp only [Counts.Accounted] at hcounts
  simp only [Face.oscPublishFloat, hfilter]
  split
  case h_1 hnone =>
    refine ⟨?_, h.reached.skip fun line hline => ?_⟩
    · simp only [Counts.Accounted]
      omega
    · rw [hnone] at hline
      cases hline
  case h_2 line hline =>
    by_cases hmem : line ∈ s.2.filteredDestinations
    · rw [if_pos (contains_iff_mem.2 hmem)]
      refine ⟨?_, h.reached.skip fun line' hline' => ?_⟩
      · simp only [Counts.Accounted]
        omega
      · rwa [← Option.some_inj.1 (hline.symm.trans hline')]
    · rw [if_neg (mt contains_iff_mem.1 hmem)]
      refine ⟨sendOsc_accounted _ _ _ ?_, h.reached.send hline hmem call.2⟩
      simp only
      omega

/-- What each step of a fold extends by a list, the fold extends by all of them. -/
theorem foldl_append {σ α β : Type*} {P : List β → σ → Prop} {f : σ → α → σ} {g : α → List β}
    (hstep : ∀ bs s a, P bs s → P (bs ++ g a) (f s a)) (as : List α) {bs : List β} {s : σ}
    (hs : P bs s) : P (bs ++ as.flatMap g) (as.foldl f s) := by
  induction as generalizing bs s with
  | nil => simpa using hs
  | cons a as ih => simpa using ih (hstep bs s a hs)

theorem publish_progress (hactive : filter.active = true) (outcome : ℕ → Bool)
    (calls : List (Address × K)) (hp : Reached filter addresses p) :
    Progress filter (addresses ++ calls.map Prod.fst)
      (publish (some filter) outcome calls p) := by
  have hinit : Progress filter addresses (({}, p) : Counts × Publisher K) := ⟨rfl, hp⟩
  rw [map_eq_flatMap]
  exact foldl_append (fun _ _ call h => h.oscPublishFloat hactive outcome call) calls hinit

theorem publishFaceFrameOsc_progress [FloatArith K] (hactive : filter.active = true)
    (outcome : ℕ → Bool) (frame : Frame K) :
    Progress filter (frame.addresses filter)
      (publishFaceFrameOsc (some filter) outcome frame) := by
  have hinit : Progress filter [] (({}, {}) : Counts × Publisher K) := ⟨rfl, .init⟩
  refine foldl_append (fun addresses s calls h => ?_) (groups (some filter) frame) hinit
  have hgroup := publish_progress hactive outcome calls h.reached
  exact ⟨h.accounted.add hgroup.accounted, hgroup.reached⟩

/-- With any filter and socket, each parameter is sent, dropped, filtered or deduped. -/
theorem publishFaceFrameOsc_accounted [FloatArith K] (filter : Option AddressFilter)
    (outcome : ℕ → Bool) (frame : Frame K) :
    (publishFaceFrameOsc filter outcome frame).1.Accounted := by
  cases hfilter : filter.filter AddressFilter.active with
  | some f =>
    obtain ⟨rfl, hactive⟩ := Option.filter_eq_some_iff.1 hfilter
    exact (publishFaceFrameOsc_progress hactive outcome frame).accounted
  | none =>
    refine foldlRecOn (motive := fun s => Counts.Accounted (Prod.fst s)) _ _ rfl
      fun s hs calls _ => hs.add ?_
    refine foldlRecOn (motive := fun s => Counts.Accounted (Prod.fst s)) _ _ rfl
      fun s hs call _ => ?_
    simp only [oscPublishFloat, hfilter]
    exact sendOsc_accounted _ _ _ (congrArg (· + 1) hs)

/-- Whether a frame is delivered depends on the lines that its addresses stand for. -/
theorem Progress.delivered (hs : Progress filter addresses s) :
    Delivered filter s ↔ filter.Unambiguous addresses := by
  have h := hs.reached
  constructor
  · intro hd
    have hinj := inj_on_of_nodup_map (h.sends ▸ hd.once)
    constructor
    · intro a ha line hline
      refine hd.allowed (cStr line) ?_
      rw [h.sends]
      exact mem_map_of_mem ((h.mem_iff line).2 ⟨a, ha, hline⟩)
    · intro a ha b hb line line' hline hline' heq
      exact hinj ((h.mem_iff line).2 ⟨a, ha, hline⟩) ((h.mem_iff line').2 ⟨b, hb, hline'⟩) heq
  · intro hu
    refine ⟨?_, ?_, hs.accounted⟩
    · rw [h.sends]
      refine List.Nodup.map_on (fun line hmem line' hmem' heq => ?_) h.nodup
      obtain ⟨a, ha, hline⟩ := (h.mem_iff line).1 hmem
      obtain ⟨b, hb, hline'⟩ := (h.mem_iff line').1 hmem'
      exact hu.eq_of_cStr a ha b hb line line' hline hline' heq
    · intro address haddress
      rw [h.sends] at haddress
      obtain ⟨line, hmem, rfl⟩ := mem_map.1 haddress
      obtain ⟨a, ha, hline⟩ := (h.mem_iff line).1 hmem
      exact hu.mem_allowed a ha line hline

/-- A frame is delivered exactly if the lines that its addresses stand for are distinct
    lines of the allowlist up to their first NUL byte. -/
theorem delivered_iff [FloatArith K] (filter : AddressFilter) (hactive : filter.active = true)
    (outcome : ℕ → Bool) (frame : Frame K) :
    Delivered filter (publishFaceFrameOsc (some filter) outcome frame) ↔
      filter.Unambiguous (frame.addresses filter) :=
  (publishFaceFrameOsc_progress hactive outcome frame).delivered

/-- After a file was read, something is sent to an address that is published, and is a line of the
    file, exactly if it is the first line with its key. (A line that is cut at a NUL byte may also
    end up as the address.) -/
theorem sends_listed_iff [FloatArith K] {stamp : UInt64} {body : List UInt8}
    (hread : (filter.reloadIfChanged stamp (some body)).2 = true) (hstamp : stamp ≠ 0)
    (outcome : ℕ → Bool) (frame : Frame K) {a : Address}
    (ha : a ∈ frame.addresses (filter.reloadIfChanged stamp (some body)).1)
    (hline : a ∈ AddressFilter.lines body) (hne : a ≠ []) :
    a ∈ (publishFaceFrameOsc (some (filter.reloadIfChanged stamp (some body)).1) outcome
        frame).2.sends.map Prod.fst ↔
      AddressFilter.firstLine body (compatibleKey a) = some a ∧ 0 ∉ a ∨
      ∃ b ∈ frame.addresses (filter.reloadIfChanged stamp (some body)).1, ∃ line,
        AddressFilter.firstLine body (compatibleKey b) = some line ∧ line ≠ a ∧ cStr line = a := by
  have hactive := AddressFilter.active_reloadIfChanged hread hstamp hline hne
  have hreached := (publishFaceFrameOsc_progress hactive outcome frame).reached
  rw [hreached.sends, mem_map]
  simp only [hreached.mem_iff, AddressFilter.compatibleAddress_reloadIfChanged hread hstamp]
  constructor
  · rintro ⟨line, ⟨b, hb, hfirst⟩, rfl⟩
    by_cases heq : line = cStr line
    · refine .inl ⟨?_, fun hnul => ?_⟩
      · rwa [← heq, AddressFilter.compatibleKey_of_firstLine hfirst]
      · exact absurd (mem_takeWhile_imp hnul) (by simp)
    · exact .inr ⟨b, hb, line, hfirst, heq, rfl⟩
  · rintro (⟨hfirst, hnul⟩ | ⟨b, hb, line, hfirst, -, rfl⟩)
    · refine ⟨a, ⟨a, ha, hfirst⟩, takeWhile_eq_self_iff.2 fun c hc => bne_iff_ne.2 ?_⟩
      rintro rfl
      exact hnul hc
    · exact ⟨line, ⟨b, hb, hfirst⟩, rfl⟩

end

/-! ## Two allowlists -/

/-- A frame with the data of the eyes. -/
def eyeFrame : Frame ℚ where
  eyeGazeL _ := 0
  eyeGazeR _ := 0
  eyeOpennessL := 1
  eyeOpennessR := 1
  pupilDilationL := 0
  pupilDilationR := 0
  expressions _ := 0
  upstreamExpressions _ := 0
  flags := 1

def loadedFilter (body : String) : AddressFilter :=
  ((AddressFilter.new (ascii "osc-allow.txt")).reloadIfChanged 1 (some (ascii body))).1

/-- An avatar that nests one of its two parameters. -/
def nestedFilter : AddressFilter :=
  loadedFilter "/avatar/parameters/FT/v2/EyeLeftX\r\n/avatar/parameters/v2/EyeOpenLeft\r\n"

theorem delivered_nested :
    Delivered nestedFilter (publishFaceFrameOsc (some nestedFilter) (· == 0) eyeFrame) := by
  refine (delivered_iff nestedFilter (by decide +kernel) (· == 0) eyeFrame).2 ?_
  exact AddressFilter.unambiguous_of_nul_free (by decide +kernel) _

/-- An avatar that has a parameter twice, first under a longer address. -/
def twiceFilter : AddressFilter :=
  loadedFilter "/avatar/parameters/FT/v2/EyeLeftX\n/avatar/parameters/v2/EyeLeftX\n"

/-- The address that is published is a line of the file, but nothing is sent to it. -/
theorem twice_not_sent :
    ascii "/avatar/parameters/v2/EyeLeftX" ∈ eyeFrame.addresses twiceFilter ∧
      ascii "/avatar/parameters/v2/EyeLeftX" ∈ twiceFilter.allowed ∧
      (publishFaceFrameOsc (some twiceFilter) (fun _ => true) eyeFrame).2.sends.map Prod.fst =
        [ascii "/avatar/parameters/FT/v2/EyeLeftX"] := by
  refine ⟨by decide +kernel, by decide +kernel, by decide +kernel⟩

/-- The first of the lines is sent to, if it is the one that is published. -/
theorem sends_listed_first :
    ascii "/avatar/parameters/v2/EyeLeftX" ∈ (publishFaceFrameOsc (some ((AddressFilter.new
      (ascii "osc-allow.txt")).reloadIfChanged 1 (some (ascii
        "/avatar/parameters/v2/EyeLeftX\n/avatar/parameters/FT/v2/EyeLeftX\n"))).1) (fun _ => true)
          eyeFrame).2.sends.map Prod.fst :=
  (sends_listed_iff (by decide +kernel) (by decide) _ eyeFrame (by decide +kernel)
    (by decide +kernel) (by decide)).2 (.inl ⟨by decide +kernel, by decide +kernel⟩)

/-- Two lines with a NUL byte. -/
def nulFilter : AddressFilter :=
  loadedFilter
    "/avatar/parameters/Eye\x00L/v2/EyeLeftX\n/avatar/parameters/Eye\x00R/v2/EyeRightX\n"

/-- The two lines are sent as the same address, which is not in the file. -/
theorem nul_cut_addresses :
    nulFilter.active = true ∧
      (publishFaceFrameOsc (some nulFilter) (fun _ => true) eyeFrame).2.sends.map Prod.fst =
        [ascii "/avatar/parameters/Eye", ascii "/avatar/parameters/Eye"] ∧
      ascii "/avatar/parameters/Eye" ∉ nulFilter.allowed ∧
      ¬ Delivered nulFilter (publishFaceFrameOsc (some nulFilter) (fun _ => true) eyeFrame) := by
  have hsends :
      (publishFaceFrameOsc (some nulFilter) (fun _ => true) eyeFrame).2.sends.map Prod.fst =
        [ascii "/avatar/parameters/Eye", ascii "/avatar/parameters/Eye"] := by decide +kernel
  refine ⟨by decide +kernel, hsends, by decide +kernel, fun h => ?_⟩
  have honce := h.once
  rw [hsends] at honce
  exact absurd honce (by decide +kernel)

end WKOpenVR.Face
