import WKOpenVR.Text

/-!
# The configuration of the captions host

The driver forwards the captions settings to the host as a text of the form
`config:src=…,tgt=…,mode=…` (`BuildHostConfigCommand`). The host splits it at the `=` and
the commas, and sets its own settings (`DispatchControlMessage`). Numbers are limited to
the values the host knows, on either side.

Strings are neither quoted nor checked. A string with a comma is cut there, and what
follows is read as other settings; and line breaks at the end of a string are removed.
The settings arrive if and only if no string has either (`dispatch_iff`).
-/

namespace WKOpenVR.Captions

open Text List

/-- A buffer of `n` characters that holds a string. -/
structure CharBuf (n : ℕ) where
  bytes : List UInt8
  length_eq : bytes.length = n
  terminated : 0 ∈ bytes

def CharBuf.str {n : ℕ} (b : CharBuf n) : List UInt8 := b.bytes.takeWhile (· != 0)

/-- What of the configuration concerns the host (`CaptionsConfig`). -/
structure CaptionsConfig where
  mode : UInt8
  notifySound : UInt8
  transcriptLogging : UInt8
  chatboxEnabled : UInt8
  realtimeFlags : UInt8
  speechModel : UInt8
  chatboxPort : UInt16
  chatboxSplitDelayMs : UInt16
  sourceLang : CharBuf 16
  targetLang : CharBuf 16
  chatboxAddress : CharBuf 48

structure HostConfig where
  sourceLang : List UInt8
  targetLang : List UInt8
  chatboxAddress : List UInt8
  chatboxPort : UInt16
  chatboxEnabled : Bool
  notifySound : Bool
  chatboxSplitDelayMs : ℤ
  transcriptLogging : Bool
  mode : ℤ
  realtimeFlags : UInt8
  speechModel : UInt8
  preferGpu : Bool
  whisperModelPath : List UInt8
  whisperModelPathOverridden : Bool
  sileroModelPath : List UInt8
  deriving DecidableEq

/-- The settings, and whether the host is to shut down. -/
structure Host where
  config : HostConfig
  shutdown : Bool
  deriving DecidableEq

/-- `NormalizeCaptionsChatboxSplitDelayMs`. -/
def normalizeChatboxSplitDelayMs (ms : ℤ) : ℤ :=
  if ms < 0 then 0 else if ms > 10000 then 10000 else ms

/-- `NormalizeCaptionsSpeechModel`: balanced, unless it is the one of high accuracy. -/
def normalizeSpeechModel (value : ℤ) : UInt8 := if value = 1 then 1 else 0

/-! ## The message -/

variable (c : CaptionsConfig)

def buildHostConfigCommand : List UInt8 :=
  ascii "config:" ++ ascii "src=" ++ c.sourceLang.str ++ ascii ",tgt=" ++ c.targetLang.str ++
    ascii ",mode=" ++ decimal c.mode.toNat ++ ascii ",addr=" ++ c.chatboxAddress.str ++
    ascii ",port=" ++ decimal c.chatboxPort.toNat ++
    ascii ",notify=" ++ decimal c.notifySound.toNat ++
    ascii ",chatbox=" ++ decimal c.chatboxEnabled.toNat ++ ascii ",splitdelay=" ++
    decimal (normalizeChatboxSplitDelayMs c.chatboxSplitDelayMs.toNat).toNat ++
    ascii ",log=" ++ decimal c.transcriptLogging.toNat ++
    ascii ",flags=" ++ decimal c.realtimeFlags.toNat ++
    ascii ",model=" ++ decimal c.speechModel.toNat ++ ascii "\n"

/-! ## The dispatch -/

/-- The fields of a message: a key up to the next `=`, and a value up to the next comma.
    A key without a value ends the message. -/
def fieldsLoop : ℕ → List UInt8 → List (List UInt8 × List UInt8)
  | 0, _ => []
  | fuel + 1, body =>
    match body.dropWhile (· != 61) with
    | [] => []
    | _ :: after =>
      (body.takeWhile (· != 61), after.takeWhile (· != 44)) ::
        match after.dropWhile (· != 44) with
        | [] => []
        | _ :: rest => fieldsLoop fuel rest

/-- The fields of a message; each of them takes one character at least. -/
def fields (body : List UInt8) : List (List UInt8 × List UInt8) := fieldsLoop body.length body

/-- The line breaks at the end of a value are removed. -/
def stripLineBreaks (val : List UInt8) : List UInt8 := val.rdropWhile fun c => c = 10 ∨ c = 13

def isOn (val : List UInt8) : Bool := val ≠ ascii "0"

/-- The settings that a message can have. -/
inductive Setting
  | src | tgt | mode | addr | port | notify | chatbox | splitdelay | log | flags | model
  deriving DecidableEq

def Setting.key : Setting → List UInt8
  | .src => ascii "src"
  | .tgt => ascii "tgt"
  | .mode => ascii "mode"
  | .addr => ascii "addr"
  | .port => ascii "port"
  | .notify => ascii "notify"
  | .chatbox => ascii "chatbox"
  | .splitdelay => ascii "splitdelay"
  | .log => ascii "log"
  | .flags => ascii "flags"
  | .model => ascii "model"

/-- The settings in the order in which they are sent, and in which keys are compared. -/
def Setting.all : List Setting :=
  [.src, .tgt, .mode, .addr, .port, .notify, .chatbox, .splitdelay, .log, .flags, .model]

def Setting.ofKey (key : List UInt8) : Option Setting := all.find? (·.key = key)

variable (g : HostConfig)

/-- Sets a setting to a value. A value that is not a number, where one is expected, is
    ignored. -/
def HostConfig.set (val : List UInt8) : Setting → HostConfig
  | .src => { g with sourceLang := val }
  | .tgt => { g with targetLang := val }
  | .mode =>
    match parseInt val with
    | some parsed => { g with mode := if parsed < 0 then 0 else if parsed > 1 then 1 else parsed }
    | none => g
  | .addr => { g with chatboxAddress := val }
  | .port =>
    match parseInt val with
    | some parsed =>
      if 0 ≤ parsed ∧ parsed ≤ 65535 then { g with chatboxPort := UInt16.ofNat parsed.toNat } else g
    | none => g
  | .notify => { g with notifySound := isOn val }
  | .chatbox => { g with chatboxEnabled := isOn val }
  | .splitdelay =>
    match parseInt val with
    | some parsed => { g with chatboxSplitDelayMs := normalizeChatboxSplitDelayMs parsed }
    | none => g
  | .log => { g with transcriptLogging := isOn val }
  | .flags =>
    match parseInt val with
    | some parsed =>
      { g with realtimeFlags :=
          UInt8.ofNat (if parsed < 0 then 0 else if parsed > 255 then 255 else parsed).toNat }
    | none => g
  | .model =>
    match parseInt val with
    | some parsed => { g with speechModel := normalizeSpeechModel parsed }
    | none => g

/-- A field of the message: its key is looked up, and keys that are not known are ignored. -/
def HostConfig.setField (f : List UInt8 × List UInt8) : HostConfig :=
  match Setting.ofKey f.1 with
  | some s => g.set (stripLineBreaks f.2) s
  | none => g

def dispatchControlMessage (h : Host) (msg : List UInt8) : Host :=
  if msg = ascii "shutdown" ∨ msg = ascii "shutdown\n" ∨ msg = ascii "shutdown\r\n" then
    { h with shutdown := true }
  else if ascii "config:" <+: msg then
    { h with config := (fields (msg.drop 7)).foldl HostConfig.setField h.config }
  else h

/-- The settings that a configuration stands for, the others being as they are. -/
def CaptionsConfig.apply : HostConfig :=
  { g with
    sourceLang := c.sourceLang.str
    targetLang := c.targetLang.str
    chatboxAddress := c.chatboxAddress.str
    chatboxPort := c.chatboxPort
    chatboxEnabled := c.chatboxEnabled ≠ 0
    notifySound := c.notifySound ≠ 0
    chatboxSplitDelayMs := normalizeChatboxSplitDelayMs c.chatboxSplitDelayMs.toNat
    transcriptLogging := c.transcriptLogging ≠ 0
    mode := min c.mode.toNat 1
    realtimeFlags := c.realtimeFlags
    speechModel := normalizeSpeechModel c.speechModel.toNat }

/-! ## The fields of a text -/

theorem length_tail_of_dropWhile {p : UInt8 → Bool} {l rest : List UInt8} {c : UInt8}
    (h : l.dropWhile p = c :: rest) : rest.length < l.length := by
  have := length_dropWhile_le p l
  rw [h, length_cons] at this
  omega

/-- The length of the message is fuel enough. -/
theorem fieldsLoop_fuel {n m : ℕ} {body : List UInt8} (hn : body.length ≤ n)
    (hm : body.length ≤ m) : fieldsLoop n body = fieldsLoop m body := by
  induction n generalizing m body with
  | zero =>
    obtain rfl := length_eq_zero_iff.1 (Nat.le_zero.1 hn)
    cases m <;> rfl
  | succ n ih =>
    cases m with
    | zero =>
      obtain rfl := length_eq_zero_iff.1 (Nat.le_zero.1 hm)
      rfl
    | succ m =>
      cases hafter : body.dropWhile (· != 61) with
      | nil => simp only [fieldsLoop, hafter]
      | cons _ after =>
        cases hrest : after.dropWhile (· != 44) with
        | nil => simp only [fieldsLoop, hafter, hrest]
        | cons _ rest =>
          have h₁ := length_tail_of_dropWhile hafter
          have h₂ := length_tail_of_dropWhile hrest
          have hstep : fieldsLoop n rest = fieldsLoop m rest := ih (by omega) (by omega)
          simp only [fieldsLoop, hafter, hrest, hstep]

/-- The first field of a message, and the others. -/
theorem fields_key {key : List UInt8} (hkey : 61 ∉ key) (after : List UInt8) :
    fields (key ++ 61 :: after) = (key, after.takeWhile (· != 44)) ::
      match after.dropWhile (· != 44) with
      | [] => []
      | _ :: rest => fields rest := by
  have hne (c) (hc : c ∈ key) : (c != 61) = true := by
    simpa using ne_of_mem_of_not_mem hc hkey
  obtain ⟨htake, hdrop⟩ := split_append hne (rfl : (61 :: after).takeWhile (· != 61) = [])
  have hlen : (key ++ 61 :: after).length = key.length + after.length + 1 := by simp; omega
  rw [fields, hlen]
  cases hrest : after.dropWhile (· != 44) with
  | nil => simp only [fieldsLoop, hdrop, htake, hrest]
  | cons _ rest =>
    have h := length_tail_of_dropWhile hrest
    have hfuel : fieldsLoop (key.length + after.length) rest = fields rest :=
      fieldsLoop_fuel (by omega) le_rfl
    simp only [fieldsLoop, hdrop, htake, hrest, hfuel]

def fieldText : List (List UInt8 × List UInt8) → List UInt8
  | [] => []
  | [(key, val)] => key ++ 61 :: val
  | (key, val) :: f :: fs => key ++ 61 :: (val ++ 44 :: fieldText (f :: fs))

/-- A value is read up to its first comma. -/
theorem fields_head {key : List UInt8} (hkey : 61 ∉ key) (val : List UInt8)
    (post : List (List UInt8 × List UInt8)) :
    ∃ rest, fields (fieldText ((key, val) :: post)) = (key, val.takeWhile (· != 44)) :: rest := by
  cases post with
  | nil => exact ⟨_, fields_key hkey val⟩
  | cons f post =>
    have h := fields_key hkey (val ++ 44 :: fieldText (f :: post))
    rw [takeWhile_ne_append] at h
    exact ⟨_, h⟩

/-- The last field, if it has no comma. -/
theorem fields_last {key val : List UInt8} (hkey : 61 ∉ key) (hval : 44 ∉ val) :
    fields (fieldText [(key, val)]) = [(key, val)] := by
  have hdrop : val.dropWhile (· != 44) = [] :=
    dropWhile_eq_nil_iff.2 fun c hc => by simpa using ne_of_mem_of_not_mem hc hval
  rw [fieldText, fields_key hkey, takeWhile_ne_of_not_mem hval, hdrop]

/-- Fields without commas are read as they are, whatever follows. -/
theorem fields_append {pre : List (List UInt8 × List UInt8)} (hkeys : ∀ f ∈ pre, 61 ∉ f.1)
    (hvals : ∀ f ∈ pre, 44 ∉ f.2) (f : List UInt8 × List UInt8)
    (post : List (List UInt8 × List UInt8)) :
    fields (fieldText (pre ++ f :: post)) = pre ++ fields (fieldText (f :: post)) := by
  induction pre with
  | nil => rfl
  | cons g pre ih =>
    obtain ⟨key, val⟩ := g
    have hkey : 61 ∉ key := hkeys _ mem_cons_self
    have hval : 44 ∉ val := hvals _ mem_cons_self
    have hdrop (text : List UInt8) : (val ++ 44 :: text).dropWhile (· != 44) = 44 :: text :=
      (split_append (fun c hc => by simpa using ne_of_mem_of_not_mem hc hval) rfl).2
    obtain ⟨f', post', hpost⟩ : ∃ f' post', pre ++ f :: post = f' :: post' := by
      cases pre <;> exact ⟨_, _, rfl⟩
    have ih := ih (fun g hg => hkeys g (mem_cons_of_mem _ hg))
      fun g hg => hvals g (mem_cons_of_mem _ hg)
    rw [cons_append, cons_append, ← ih, hpost, fieldText, fields_key hkey,
      takeWhile_ne_append, takeWhile_ne_of_not_mem hval, hdrop]

/-- The values that are read have no commas. -/
theorem not_mem_of_mem_fields {body : List UInt8} {f : List UInt8 × List UInt8}
    (hf : f ∈ fields body) : 44 ∉ f.2 := by
  unfold fields at hf
  generalize body.length = n at hf
  induction n generalizing body with
  | zero => cases hf
  | succ n ih =>
    rw [fieldsLoop] at hf
    split at hf
    · cases hf
    · rcases mem_cons.1 hf with rfl | hf
      · exact fun h => by simpa using mem_takeWhile_imp h
      · split at hf
        · cases hf
        · exact ih hf

/-! ## The values -/

/-- A string that is its own value: no comma, and no line break at its end. -/
def Plain (s : List UInt8) : Prop := 44 ∉ s ∧ s.getLast? ≠ some 10 ∧ s.getLast? ≠ some 13

instance (s : List UInt8) : Decidable (Plain s) := inferInstanceAs (Decidable (_ ∧ _))

theorem stripLineBreaks_of_plain {s : List UInt8} (hs : Plain s) : stripLineBreaks s = s := by
  refine rdropWhile_eq_self_iff.2 fun hne hlast => ?_
  have hend := List.getLast?_eq_getLast_of_ne_nil hne
  rcases of_decide_eq_true hlast with h | h
  · exact hs.2.1 (hend.trans (congrArg some h))
  · exact hs.2.2 (hend.trans (congrArg some h))

theorem plain_stripLineBreaks {val : List UInt8} (hval : 44 ∉ val) :
    Plain (stripLineBreaks val) := by
  have hlast (c : UInt8) (hc : (stripLineBreaks val).getLast? = some c) : ¬(c = 10 ∨ c = 13) := by
    have hne : stripLineBreaks val ≠ [] := by
      rintro h
      simp [h] at hc
    rw [List.getLast?_eq_getLast_of_ne_nil hne, Option.some_inj] at hc
    have h := rdropWhile_last_not (fun c => decide (c = 10 ∨ c = 13)) val hne
    exact fun h' => h (decide_eq_true (hc ▸ h'))
  have hfront : stripLineBreaks val <+: val := rdropWhile_prefix _ val
  refine ⟨fun h => hval (hfront.subset h), fun h => ?_, fun h => ?_⟩
  · exact hlast 10 h (.inl rfl)
  · exact hlast 13 h (.inr rfl)

theorem plain_decimal (n : ℕ) : Plain (decimal n) := by
  have hdigit (c : UInt8) (hc : c ∈ decimal n) : c ≠ 44 ∧ c ≠ 10 ∧ c ≠ 13 := by
    have := isDigit_of_mem_decimal hc
    refine ⟨?_, ?_, ?_⟩ <;> rintro rfl <;> exact absurd this (by decide)
  refine ⟨fun h => (hdigit _ h).1 rfl, fun h => ?_, fun h => ?_⟩
  · exact (hdigit _ (mem_of_getLast? h)).2.1 rfl
  · exact (hdigit _ (mem_of_getLast? h)).2.2 rfl

/-- The line break of the message is removed from its last number. -/
theorem stripLineBreaks_decimal_append (n : ℕ) :
    stripLineBreaks (decimal n ++ [10]) = decimal n := by
  rw [stripLineBreaks, rdropWhile_concat, if_pos (by decide)]
  exact stripLineBreaks_of_plain (plain_decimal n)

theorem isOn_decimal (n : UInt8) : isOn (decimal n.toNat) = decide (n ≠ 0) := by
  simp [isOn, ascii, decimal_eq_zero_iff, ← UInt8.toNat_inj]

/-! ## The settings -/

theorem Setting.ofKey_key (s : Setting) : ofKey s.key = some s := by
  cases s <;> decide

theorem Setting.not_mem_key (s : Setting) : 61 ∉ s.key := by
  cases s <;> decide

namespace HostConfig

variable (val : List UInt8) (s : Setting)

theorem set_sourceLang : (g.set val s).sourceLang = if s = .src then val else g.sourceLang := by
  cases s <;> simp only [set] <;> repeat' first | rfl | split

theorem set_targetLang : (g.set val s).targetLang = if s = .tgt then val else g.targetLang := by
  cases s <;> simp only [set] <;> repeat' first | rfl | split

theorem set_chatboxAddress :
    (g.set val s).chatboxAddress = if s = .addr then val else g.chatboxAddress := by
  cases s <;> simp only [set] <;> repeat' first | rfl | split

theorem setField_key : g.setField (s.key, val) = g.set (stripLineBreaks val) s := by
  rw [setField, Setting.ofKey_key]

/-- A string that is set is plain, whatever the message is: its last value is. -/
theorem plain_foldl {get : HostConfig → List UInt8} {k : Setting}
    (hget : ∀ g val s, get (HostConfig.set g val s) = if s = k then val else get g)
    {fs : List (List UInt8 × List UInt8)} (hfs : ∀ f ∈ fs, 44 ∉ f.2)
    (hk : ∃ f ∈ fs, f.1 = k.key) : Plain (get (fs.foldl setField g)) := by
  induction fs using List.reverseRecOn with
  | nil =>
    obtain ⟨f, hf, -⟩ := hk
    cases hf
  | append_singleton fs f ih =>
    have ih := fun hk => ih (fun f hf => hfs f (mem_append_left _ hf)) hk
    have hplain : Plain (stripLineBreaks f.2) := plain_stripLineBreaks (hfs f (by simp))
    obtain ⟨f', hf', hk⟩ := hk
    rw [foldl_append, foldl_cons, foldl_nil]
    rcases mem_append.1 hf' with h | h
    · rw [setField]
      split
      · rw [hget]
        split_ifs
        · exact hplain
        · exact ih ⟨f', h, hk⟩
      · exact ih ⟨f', h, hk⟩
    · obtain rfl := mem_singleton.1 h
      rw [setField, hk, Setting.ofKey_key]
      simpa only [hget, if_true] using hplain

end HostConfig

/-- What the message of a configuration has for a setting. -/
def CaptionsConfig.value : Setting → List UInt8
  | .src => c.sourceLang.str
  | .tgt => c.targetLang.str
  | .mode => decimal c.mode.toNat
  | .addr => c.chatboxAddress.str
  | .port => decimal c.chatboxPort.toNat
  | .notify => decimal c.notifySound.toNat
  | .chatbox => decimal c.chatboxEnabled.toNat
  | .splitdelay => decimal (normalizeChatboxSplitDelayMs c.chatboxSplitDelayMs.toNat).toNat
  | .log => decimal c.transcriptLogging.toNat
  | .flags => decimal c.realtimeFlags.toNat
  | .model => decimal c.speechModel.toNat ++ [10]

def CaptionsConfig.fields (ss : List Setting) : List (List UInt8 × List UInt8) :=
  ss.map fun s => (s.key, c.value s)

theorem buildHostConfigCommand_eq :
    buildHostConfigCommand c = ascii "config:" ++ fieldText (c.fields Setting.all) := by
  have hsrc : ascii "src=" = Setting.src.key ++ [61] := by decide
  have htgt : ascii ",tgt=" = 44 :: (Setting.tgt.key ++ [61]) := by decide
  have hmode : ascii ",mode=" = 44 :: (Setting.mode.key ++ [61]) := by decide
  have haddr : ascii ",addr=" = 44 :: (Setting.addr.key ++ [61]) := by decide
  have hport : ascii ",port=" = 44 :: (Setting.port.key ++ [61]) := by decide
  have hnotify : ascii ",notify=" = 44 :: (Setting.notify.key ++ [61]) := by decide
  have hchatbox : ascii ",chatbox=" = 44 :: (Setting.chatbox.key ++ [61]) := by decide
  have hsplitdelay : ascii ",splitdelay=" = 44 :: (Setting.splitdelay.key ++ [61]) := by decide
  have hlog : ascii ",log=" = 44 :: (Setting.log.key ++ [61]) := by decide
  have hflags : ascii ",flags=" = 44 :: (Setting.flags.key ++ [61]) := by decide
  have hmodel : ascii ",model=" = 44 :: (Setting.model.key ++ [61]) := by decide
  have hend : ascii "\n" = [10] := by decide
  delta buildHostConfigCommand
  rw [hsrc, htgt, hmode, haddr, hport, hnotify, hchatbox, hsplitdelay, hlog, hflags, hmodel, hend]
  simp only [CaptionsConfig.fields, Setting.all, map_cons, map_nil, fieldText, CaptionsConfig.value]
  simp only [append_assoc, cons_append, nil_append]

/-- A message of settings is taken for one. -/
theorem dispatchControlMessage_config (h : Host) (body : List UInt8) :
    dispatchControlMessage h (ascii "config:" ++ body) =
      { h with config := (fields body).foldl HostConfig.setField h.config } := by
  have hbody : (ascii "config:" ++ body).drop 7 = body := drop_left' (by decide)
  rw [dispatchControlMessage, if_neg (by simp [ascii]), if_pos (prefix_append _ _), hbody]

theorem normalizeChatboxSplitDelayMs_bounds (ms : ℤ) :
    0 ≤ normalizeChatboxSplitDelayMs ms ∧ normalizeChatboxSplitDelayMs ms ≤ 10000 := by
  unfold normalizeChatboxSplitDelayMs
  split_ifs <;> omega

theorem normalizeChatboxSplitDelayMs_idem (ms : ℤ) :
    normalizeChatboxSplitDelayMs (normalizeChatboxSplitDelayMs ms) =
      normalizeChatboxSplitDelayMs ms := by
  have h := normalizeChatboxSplitDelayMs_bounds ms
  rw [normalizeChatboxSplitDelayMs, if_neg (by omega), if_neg (by omega)]

/-- Sets a setting to what a configuration stands for. -/
def CaptionsConfig.assign (g : HostConfig) : Setting → HostConfig
  | .src => { g with sourceLang := c.sourceLang.str }
  | .tgt => { g with targetLang := c.targetLang.str }
  | .mode => { g with mode := min c.mode.toNat 1 }
  | .addr => { g with chatboxAddress := c.chatboxAddress.str }
  | .port => { g with chatboxPort := c.chatboxPort }
  | .notify => { g with notifySound := c.notifySound ≠ 0 }
  | .chatbox => { g with chatboxEnabled := c.chatboxEnabled ≠ 0 }
  | .splitdelay =>
    { g with chatboxSplitDelayMs := normalizeChatboxSplitDelayMs c.chatboxSplitDelayMs.toNat }
  | .log => { g with transcriptLogging := c.transcriptLogging ≠ 0 }
  | .flags => { g with realtimeFlags := c.realtimeFlags }
  | .model => { g with speechModel := normalizeSpeechModel c.speechModel.toNat }

theorem foldl_assign (g : HostConfig) : Setting.all.foldl c.assign g = c.apply g := rfl

theorem parseInt_toNat (n : UInt8) : parseInt (decimal n.toNat) = some (n.toNat : ℤ) :=
  parseInt_decimal (by have := n.toNat_lt; omega)

/-- The value of a setting is read as it is meant, if the strings are plain. -/
theorem set_value {c : CaptionsConfig} (hsrc : Plain c.sourceLang.str)
    (htgt : Plain c.targetLang.str) (haddr : Plain c.chatboxAddress.str) (g : HostConfig)
    (s : Setting) : g.set (stripLineBreaks (c.value s)) s = c.assign g s := by
  have hdec (n : ℕ) := stripLineBreaks_of_plain (plain_decimal n)
  cases s with
  | src => rw [CaptionsConfig.value, stripLineBreaks_of_plain hsrc]; rfl
  | tgt => rw [CaptionsConfig.value, stripLineBreaks_of_plain htgt]; rfl
  | addr => rw [CaptionsConfig.value, stripLineBreaks_of_plain haddr]; rfl
  | notify | chatbox | log =>
    simp only [CaptionsConfig.value, hdec, HostConfig.set, isOn_decimal]
    rfl
  -- A number that is sent is not negative, so only the upper bound of a clamp matters.
  | mode =>
    have hmode : (if (c.mode.toNat : ℤ) < 0 then 0 else if (c.mode.toNat : ℤ) > 1 then 1
        else (c.mode.toNat : ℤ)) = min (c.mode.toNat : ℤ) 1 := by
      split_ifs <;> omega
    simp only [CaptionsConfig.value, hdec, HostConfig.set, parseInt_toNat, hmode]
    rfl
  | port =>
    have hport := c.chatboxPort.toNat_lt
    have hparse : parseInt (decimal c.chatboxPort.toNat) = some (c.chatboxPort.toNat : ℤ) :=
      parseInt_decimal (by omega)
    simp only [CaptionsConfig.value, hdec, HostConfig.set, hparse]
    rw [if_pos (by omega), Int.toNat_natCast, UInt16.ofNat_toNat]
    rfl
  | splitdelay =>
    have hd := normalizeChatboxSplitDelayMs_bounds c.chatboxSplitDelayMs.toNat
    have hparse := parseInt_decimal
      (n := (normalizeChatboxSplitDelayMs c.chatboxSplitDelayMs.toNat).toNat) (by omega)
    rw [Int.toNat_of_nonneg hd.1] at hparse
    simp only [CaptionsConfig.value, hdec, HostConfig.set, hparse,
      normalizeChatboxSplitDelayMs_idem]
    rfl
  | flags =>
    have hflags : (if (c.realtimeFlags.toNat : ℤ) < 0 then 0 else
        if (c.realtimeFlags.toNat : ℤ) > 255 then 255 else (c.realtimeFlags.toNat : ℤ)) =
          c.realtimeFlags.toNat := by
      have := c.realtimeFlags.toNat_lt
      split_ifs <;> omega
    simp only [CaptionsConfig.value, hdec, HostConfig.set, parseInt_toNat, hflags,
      Int.toNat_natCast, UInt8.ofNat_toNat]
    rfl
  | model =>
    simp only [CaptionsConfig.value, stripLineBreaks_decimal_append, HostConfig.set, parseInt_toNat]
    rfl

/-- Settings before any value with a comma are read as they are. -/
theorem fields_settings (pre : List Setting)
    (hpre : ∀ s ∈ pre, 44 ∉ c.value s) (s : Setting) (post : List Setting) :
    fields (fieldText (c.fields (pre ++ s :: post))) =
      c.fields pre ++ fields (fieldText ((s.key, c.value s) :: c.fields post)) := by
  rw [CaptionsConfig.fields, map_append]
  refine fields_append (fun f hf => ?_) (fun f hf => ?_) _ _
  · obtain ⟨s, -, rfl⟩ := mem_map.1 hf
    exact s.not_mem_key
  · obtain ⟨s, hs, rfl⟩ := mem_map.1 hf
    exact hpre s hs

/-- If the string of a setting arrives, and no value before it has a comma, it is plain. -/
theorem plain_of_foldl_eq {c : CaptionsConfig} {g : HostConfig} {ss : List Setting}
    (h : (fields (fieldText (c.fields ss))).foldl HostConfig.setField g = c.apply g)
    (pre : List Setting) (s : Setting) (post : List Setting) (hss : ss = pre ++ s :: post)
    (hpre : ∀ s ∈ pre, 44 ∉ c.value s) {get : HostConfig → List UInt8}
    (hget : ∀ g val s', get (HostConfig.set g val s') = if s' = s then val else get g) :
    Plain (get (c.apply g)) := by
  rw [← h]
  refine g.plain_foldl hget (fun f hf => not_mem_of_mem_fields hf) ?_
  obtain ⟨rest, hrest⟩ := fields_head s.not_mem_key (c.value s) (c.fields post)
  rw [hss, fields_settings c pre hpre, hrest]
  exact ⟨_, mem_append_right _ mem_cons_self, rfl⟩

/-- The settings of a configuration reach the host, whatever it is set to, if and only if
    the strings have no comma and no line break at their end. -/
theorem dispatch_iff (h : Host) :
    dispatchControlMessage h (buildHostConfigCommand c) = { h with config := c.apply h.config } ↔
      Plain c.sourceLang.str ∧ Plain c.targetLang.str ∧ Plain c.chatboxAddress.str := by
  rw [buildHostConfigCommand_eq, dispatchControlMessage_config, Host.mk.injEq, and_iff_left rfl]
  constructor
  · intro heq
    -- A string is known to be set only once those before it are known to have no comma.
    have hsrc : Plain c.sourceLang.str :=
      plain_of_foldl_eq heq [] .src _ rfl (by simp) HostConfig.set_sourceLang
    have htgt : Plain c.targetLang.str := by
      refine plain_of_foldl_eq heq [.src] .tgt _ rfl ?_ HostConfig.set_targetLang
      simpa [CaptionsConfig.value] using hsrc.1
    refine ⟨hsrc, htgt, plain_of_foldl_eq heq [.src, .tgt, .mode] .addr _ rfl ?_
      HostConfig.set_chatboxAddress⟩
    simpa [CaptionsConfig.value] using ⟨hsrc.1, htgt.1, (plain_decimal _).1⟩
  · rintro ⟨hsrc, htgt, haddr⟩
    have hvals (s : Setting) : 44 ∉ c.value s := by
      cases s
      case src => exact hsrc.1
      case tgt => exact htgt.1
      case addr => exact haddr.1
      case model => simpa [CaptionsConfig.value] using (plain_decimal _).1
      all_goals exact (plain_decimal _).1
    have hread : fields (fieldText (c.fields Setting.all)) = c.fields Setting.all :=
      (fields_settings c Setting.all.dropLast (fun s _ => hvals s) .model []).trans
        (congrArg (c.fields Setting.all.dropLast ++ ·)
          (fields_last Setting.model.not_mem_key (hvals .model)))
    rw [hread, CaptionsConfig.fields, foldl_map, ← foldl_assign]
    simp only [HostConfig.setField_key, set_value hsrc htgt haddr]

/-- A delay above the limit is lowered to it, and an address is cut at its comma; and the
    port, whose key comes after the comma, is not set. -/
theorem address_cut_at_comma : ∃ (c : CaptionsConfig) (h : Host),
    (dispatchControlMessage h (buildHostConfigCommand c)).config.chatboxAddress ≠
        c.chatboxAddress.str ∧
      (dispatchControlMessage h (buildHostConfigCommand c)).config.chatboxPort ≠ c.chatboxPort ∧
      (dispatchControlMessage h (buildHostConfigCommand c)).config.chatboxSplitDelayMs ≠
        c.chatboxSplitDelayMs.toNat := by
  refine ⟨
    { mode := 0, notifySound := 0, transcriptLogging := 0, chatboxEnabled := 1, realtimeFlags := 0,
      speechModel := 0, chatboxPort := 9001, chatboxSplitDelayMs := 20000,
      sourceLang := ⟨ascii "auto" ++ List.replicate 12 0, by decide, by decide⟩,
      targetLang := ⟨List.replicate 16 0, by decide, by decide⟩,
      chatboxAddress := ⟨ascii "/chat,box" ++ List.replicate 39 0, by decide, by decide⟩ },
    { config :=
        { sourceLang := ascii "auto", targetLang := [], chatboxAddress := ascii "/chatbox/input",
          chatboxPort := 9000, chatboxEnabled := false, notifySound := false,
          chatboxSplitDelayMs := 1200, transcriptLogging := false, mode := 0, realtimeFlags := 0,
          speechModel := 0, preferGpu := true, whisperModelPath := [],
          whisperModelPathOverridden := false, sileroModelPath := [] },
      shutdown := false }, ?_⟩
  decide +kernel

end WKOpenVR.Captions
