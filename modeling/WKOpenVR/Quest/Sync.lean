import WKOpenVR.Quest.Companion

/-!
# Messages to the companion

The overlay sends a selection to the companion service over Wi-Fi, and if that is not
answered, by `adb` (`syncCompanionConfig`); it asks for the settings in the same ways
(`queryCompanionSettings`). Neither way sends an empty package or activity.

What the service does with a message is told here: with the path of a request
(`handleTarget_config`, `handleTarget_settings`), whatever texts are escaped in it, and with
the intent that a command starts (`startedIntent_companionServiceCommand`,
`onStartCommand_settingsIntent`). In both ways it receives the selection (`Prefs.receive`), if
it accepts the key.
-/

namespace WKOpenVR.Quest

open Text Json List

structure QuestAppConfig where
  pairingKey : List UInt8
  companionHost : List UInt8 := []
  companionInstalled : Bool := false

structure OperationResult where
  ok : Bool := false
  message : String := ""

structure QuestCompanionSettings extends Selection where
  remoteProgramVersion : ℤ := 0
  remoteReportsSettings : Bool := false

structure SettingsQueryResult where
  result : OperationResult := {}
  settings : QuestCompanionSettings := {}

/-! ## Requests over HTTP -/

def isSafe (c : UInt8) : Bool :=
  decide (97 ≤ c ∧ c ≤ 122 ∨ 65 ≤ c ∧ c ≤ 90 ∨ 48 ≤ c ∧ c ≤ 57 ∨ c = 45 ∨ c = 95 ∨ c = 46 ∨ c = 126)

/-- A digit of a number to the base 16 (`kHex`). -/
def upperHexDigit (n : ℕ) : UInt8 := if n < 10 then .ofNat (48 + n) else .ofNat (55 + n)

def urlEncode (value : List UInt8) : List UInt8 :=
  value.flatMap fun c =>
    if isSafe c then [c] else [37, upperHexDigit (c.toNat / 16), upperHexDigit (c.toNat % 16)]

def flagText (b : Bool) : List UInt8 := ascii (if b then "true" else "false")

def companionConfigPath (cfg : QuestAppConfig) (settings : Selection) : List UInt8 :=
  ascii "/config?key=" ++ urlEncode cfg.pairingKey ++
    ascii "&autoLaunch=" ++ flagText settings.autoLaunchEnabled ++
    (if settings.selectedPackage = [] then []
      else ascii "&package=" ++ urlEncode settings.selectedPackage) ++
    (if settings.selectedActivity = [] then []
      else ascii "&activity=" ++ urlEncode settings.selectedActivity)

/-- What becomes of a request: it does not reach the service, its answer gets lost, or so
many bytes of the body of the answer are received. -/
inductive HttpFate
  | unreachable
  | unanswered
  | answered (received : ℕ)

def rejectedMessage (statusCode : ℕ) : String :=
  "Companion rejected settings query (HTTP " ++ ofBytes (decimal statusCode) ++ ")."

section Http

variable (launchable : List UInt8 → List UInt8 → Bool)

/-- A request, with the preferences of the service after it and the body of the answer. -/
def httpGetCompanion (path : List UInt8) (fate : HttpFate) (p : Prefs) :
    Prefs × OperationResult × List UInt8 :=
  let handled := handleHttp launchable p [] (ascii "GET " ++ path ++ ascii " HTTP/1.1")
  match fate with
  | .unreachable => (p, { message := "Companion HTTP request failed." }, [])
  | .unanswered => (handled.1, { message := "Companion HTTP request failed." }, [])
  | .answered received =>
    match handled.2 with
    | none => (handled.1, { message := "Companion HTTP request failed." }, [])
    | some response =>
      if response.statusCode ≠ 200 then
        (handled.1, { message := rejectedMessage response.statusCode }, response.body.take received)
      else
        (handled.1, { ok := true, message := "Companion settings loaded." },
          response.body.take received)

variable (cfg : QuestAppConfig)

def tryHttpCompanion (path : List UInt8) (fate : HttpFate) (p : Prefs) :
    Prefs × OperationResult × List UInt8 :=
  if cfg.companionHost = [] then
    (p, { message := "Companion Wi-Fi address is not known yet." }, [])
  else httpGetCompanion launchable path fate p

/-- The configuration with the host that `adb` tells, if it tells one. -/
def refreshCompanionHostFromAdb (host : List UInt8) (cfg : QuestAppConfig) :
    Option QuestAppConfig :=
  if host = [] then none else some { cfg with companionHost := host }

/-- What becomes of the requests over Wi-Fi: of the first, and of the second, to the host that
`adb` tells. -/
structure WifiFates where
  first : HttpFate := .unreachable
  host : List UInt8 := []
  second : HttpFate := .unreachable

/-- A request over Wi-Fi, which is repeated if `adb` tells a host. -/
def requestOverWifi (path : List UInt8) (fates : WifiFates) (p : Prefs) :
    Prefs × OperationResult × List UInt8 :=
  let attempt := tryHttpCompanion launchable cfg path fates.first p
  if attempt.2.1.ok then attempt
  else
    match refreshCompanionHostFromAdb fates.host cfg with
    | none => attempt
    | some cfg => tryHttpCompanion launchable cfg path fates.second attempt.1

/-! ## Intents by `adb` -/

def companionServiceCommand (settings : Option Selection) : List (List UInt8) :=
  [ascii "shell", ascii "am", ascii "start-foreground-service", ascii "-n",
    ascii "org.wkopenvr.quest/.QuestCompanionService",
    ascii "--es", ascii "wkopenvr_pairing_key", cfg.pairingKey] ++
  match settings with
  | none => []
  | some settings =>
    [ascii "--ez", ascii "wkopenvr_auto_launch_enabled", flagText settings.autoLaunchEnabled] ++
    (if settings.selectedPackage = [] then []
      else [ascii "--es", ascii "wkopenvr_selected_package", settings.selectedPackage]) ++
    (if settings.selectedActivity = [] then []
      else [ascii "--es", ascii "wkopenvr_selected_activity", settings.selectedActivity])

/-- The extras among the arguments of `am`. -/
def readExtras : List (List UInt8) → Intent → Option Intent
  | [], i => some i
  | kind :: name :: value :: args, i =>
    if kind = ascii "--es" then readExtras args { i with strings := i.strings ++ [(name, value)] }
    else if kind = ascii "--ez" then
      if value = ascii "true" then readExtras args { i with flags := i.flags ++ [(name, true)] }
      else if value = ascii "false" then
        readExtras args { i with flags := i.flags ++ [(name, false)] }
      else none
    else none
  | _, _ => none

variable (args : List (List UInt8))

/-- The intent that a command starts the service with. The arguments reach the shell of the
headset as one line, of which it makes words. -/
def startedIntent : Option Intent :=
  match args with
  | shell :: command =>
    if shell = ascii "shell" then
      match (([32] : List UInt8).intercalate command).splitOn 32 |>.filter (!·.isEmpty) with
      | am :: start :: option :: component :: extras =>
        if am = ascii "am" ∧ start = ascii "start-foreground-service" ∧ option = ascii "-n" ∧
            component = ascii "org.wkopenvr.quest/.QuestCompanionService" then
          readExtras extras {}
        else none
      | _ => none
    else none
  | [] => none

/-- What becomes of a command of `adb`: it is not executed, it is not confirmed in time, or
its result is known. -/
inductive AdbFate
  | failed
  | unconfirmed
  | confirmed

/-- The service with the intents that it has not handled yet. -/
structure Headset where
  prefs : Prefs
  pending : List Intent := []

/-- A command, with the headset after it and whether its exit code was 0. -/
def runAdb (fate : AdbFate) (h : Headset) : Headset × Bool :=
  let started := { h with pending := h.pending ++ (startedIntent args).toList }
  match fate with
  | .failed => (h, false)
  | .unconfirmed => (started, false)
  | .confirmed => (started, (startedIntent args).isSome)

/-! ## Sending and asking -/

def syncCompanionConfig (settings : Selection) (wifi : WifiFates)
    (adb : AdbFate) (h : Headset) : Headset × OperationResult :=
  if !cfg.companionInstalled then (h, { message := "Install the companion app first." })
  else if !isValidPairingKey cfg.pairingKey then
    (h, { message := "Install key is missing. Reinstall the companion to create a new key." })
  else
    let http := requestOverWifi launchable cfg (companionConfigPath cfg settings) wifi h.prefs
    if http.2.1.ok then
      ({ h with prefs := http.1 }, { ok := true, message := "Companion settings sent over Wi-Fi." })
    else
      let run := runAdb (companionServiceCommand cfg (some settings)) adb { h with prefs := http.1 }
      if run.2 then (run.1, { ok := true, message := "Companion settings sent to headset." })
      else (run.1, { message := "Companion settings did not confirm over Wi-Fi or ADB." })

variable (toInt : List UInt8 → ℤ)

/-- The settings in the body of an answer. The number of the version is converted by `toInt`. -/
def parseCompanionSettingsJson (body : List UInt8) : Option QuestCompanionSettings :=
  match parse body with
  | some (.object fields) =>
    let obj := Value.object fields
    some {
      remoteProgramVersion :=
        match obj.field? (ascii "remoteProgramVersion") with
        | some (.number n) => toInt n
        | _ => 0
      remoteReportsSettings :=
        match obj.field? (ascii "remoteFeatures") with
        | some (.array features) => features.any fun feature =>
          match feature with
          | .string s => s == ascii "settingsReport"
          | _ => false
        | _ => false
      autoLaunchEnabled :=
        match obj.field? (ascii "autoLaunchEnabled") with
        | some (.bool b) => b
        | _ => false
      selectedPackage :=
        match obj.field? (ascii "selectedPackage") with
        | some (.string s) => s
        | _ => []
      selectedActivity :=
        match obj.field? (ascii "selectedActivity") with
        | some (.string s) => s
        | _ => [] }
  | _ => none

/-- What becomes of the requests for the settings: over Wi-Fi, and to the port that `adb`
forwards. -/
structure QueryFates extends WifiFates where
  forwarded : Bool := false
  third : HttpFate := .unreachable

def queryCompanionSettings (cfg : QuestAppConfig) (fates : QueryFates)
    (p : Prefs) : Prefs × SettingsQueryResult :=
  if !cfg.companionInstalled then
    (p, { result := { message := "Install the companion app first." } })
  else if !isValidPairingKey cfg.pairingKey then
    (p, { result :=
      { message := "Install key is missing. Reinstall the companion to create a new key." } })
  else
    let path := ascii "/settings?key=" ++ cfg.pairingKey
    let http := requestOverWifi launchable cfg path fates.toWifiFates p
    if !http.2.1.ok && !fates.forwarded then
      (http.1, { result := { message := "Could not reach the companion over Wi-Fi or ADB." } })
    else
      let http := if http.2.1.ok then http else httpGetCompanion launchable path fates.third http.1
      if !http.2.1.ok then (http.1, { result := http.2.1 })
      else
        match parseCompanionSettingsJson toInt http.2.2 with
        | none =>
          (http.1, { result := { message := "Companion settings response was not valid JSON." } })
        | some settings => (http.1, { result := http.2.1, settings })

end Http

/-! ## Queries -/

/-- The query with the given parameters. -/
def queryText (params : List (List UInt8 × List UInt8)) : List UInt8 :=
  ([38] : List UInt8).intercalate (params.map fun q => q.1 ++ 61 :: urlEncode q.2)

theorem hexValue_upperHexDigit {n : ℕ} (hn : n < 16) : hexValue (upperHexDigit n) = some n := by
  revert hn
  revert n
  decide

theorem isSafe_upperHexDigit {n : ℕ} (hn : n < 16) : isSafe (upperHexDigit n) = true := by
  revert hn
  revert n
  decide

variable {value : List UInt8} {c : UInt8}

/-- A text is escaped with safe characters. -/
theorem of_mem_urlEncode (hc : c ∈ urlEncode value) : c = 37 ∨ isSafe c = true := by
  obtain ⟨d, -, hd⟩ := mem_flatMap.1 hc
  have hlt := d.toNat_lt
  split_ifs at hd with hsafe
  · obtain rfl := mem_singleton.1 hd
    exact .inr hsafe
  · simp only [mem_cons, not_mem_nil, or_false] at hd
    rcases hd with rfl | rfl | rfl
    · exact .inl rfl
    · exact .inr (isSafe_upperHexDigit (by omega))
    · exact .inr (isSafe_upperHexDigit (by omega))

theorem notMem_urlEncode (hpercent : c ≠ 37) (hsafe : isSafe c = false) : c ∉ urlEncode value := by
  intro hc
  rcases of_mem_urlEncode hc with rfl | hc
  · exact hpercent rfl
  · rw [hsafe] at hc
    cases hc

theorem urlEncode_of_safe (h : ∀ c ∈ value, isSafe c = true) : urlEncode value = value := by
  induction value with
  | nil => rfl
  | cons c value ih =>
    have hvalue := ih fun d hd => h d (mem_cons_of_mem c hd)
    rw [urlEncode] at hvalue
    rw [urlEncode, flatMap_cons, if_pos (h c mem_cons_self), hvalue]
    rfl

theorem decode_urlEncode (value : List UInt8) : decode true (urlEncode value) = value := by
  induction value with
  | nil => rfl
  | cons c value ih =>
    rw [urlEncode] at ih
    rw [urlEncode, flatMap_cons]
    split_ifs with hsafe
    · have hpercent : c ≠ 37 := by
        rintro rfl
        revert hsafe
        decide
      have hplus : c ≠ 43 := by
        rintro rfl
        revert hsafe
        decide
      rw [singleton_append, decode_cons hpercent, if_neg fun h => hplus h.1, ih]
    · have hlt := c.toNat_lt
      have hhigh := hexValue_upperHexDigit (show c.toNat / 16 < 16 by omega)
      have hlow := hexValue_upperHexDigit (show c.toNat % 16 < 16 by omega)
      simp [decode, hhigh, hlow, ih, Nat.div_add_mod]

/-- A parameter is found in the query. -/
theorem getQueryParameter_queryText {params : List (List UInt8 × List UInt8)} (hne : params ≠ [])
    (hnames : ∀ q ∈ params, 38 ∉ q.1 ∧ 61 ∉ q.1) (name : List UInt8) :
    getQueryParameter (some (queryText params)) name =
      (params.find? fun q => q.1 == name).map Prod.snd := by
  have hsplit : (queryText params).splitOn 38 = params.map fun q => q.1 ++ 61 :: urlEncode q.2 := by
    refine splitOn_intercalate 38 ?_ (by simpa using hne)
    intro part hpart hmem
    obtain ⟨q, hq, rfl⟩ := mem_map.1 hpart
    rcases mem_append.1 hmem with hmem | hmem
    · exact (hnames q hq).1 hmem
    · rcases mem_cons.1 hmem with h | hmem
      · cases h
      · exact notMem_urlEncode (by decide) (by decide) hmem
  -- The name of a part ends at its first `=`.
  have hname (q : List UInt8 × List UInt8) (hq : q ∈ params) :
      (q.1 ++ 61 :: urlEncode q.2).takeWhile (· != 61) = q.1 ∧
        decode true (((q.1 ++ 61 :: urlEncode q.2).dropWhile (· != 61)).drop 1) = q.2 := by
    have hpos : ∀ c ∈ q.1, (c != 61) = true := by
      intro c hc
      exact bne_iff_ne.2 fun h => (hnames q hq).2 (h ▸ hc)
    rw [takeWhile_append_of_pos hpos, dropWhile_append_of_pos hpos]
    simp [decode_urlEncode]
  simp only [getQueryParameter, Option.bind_some, hsplit]
  clear hsplit hne hnames
  induction params with
  | nil => rfl
  | cons q params ih =>
    obtain ⟨hfirst, hvalue⟩ := hname q mem_cons_self
    rw [map_cons, List.find?_cons, List.find?_cons, hfirst]
    cases q.1 == name with
    | true => exact congrArg some hvalue
    | false => exact ih fun r hr => hname r (mem_cons_of_mem q hr)

/-! ## What the service does with the messages -/

/-- What is sent of a text: nothing, if it is empty. -/
def sent (text : List UInt8) : Option (List UInt8) := if text = [] then none else some text

/-- The preferences with what is sent of a selection. -/
def Prefs.receive (p : Prefs) (settings : Selection) : Prefs :=
  p.put (some settings.autoLaunchEnabled) (sent settings.selectedPackage)
    (sent settings.selectedActivity)

section Requests

variable (launchable : List UInt8 → List UInt8 → Bool) (p : Prefs) (cfg : QuestAppConfig)

theorem isSafe_of_isHex (hc : isHex c = true) : isSafe c = true := by
  simp only [isHex, hexValue] at hc
  simp only [isSafe, decide_eq_true_eq]
  split_ifs at hc with hdigit hupper hlower
  · simp only [isDigit, decide_eq_true_eq] at hdigit
    exact .inr (.inr (.inl hdigit))
  · exact .inr (.inl ⟨hupper.1, UInt8.le_trans hupper.2 (by decide)⟩)
  · exact .inl ⟨hlower.1, UInt8.le_trans hlower.2 (by decide)⟩
  · cases hc

/-- The characters of a key are safe. -/
theorem isSafe_of_mem_key {key : List UInt8} (hkey : isValidPairingKey key = true) {c : UInt8}
    (hc : c ∈ key) : isSafe c = true := by
  simp only [isValidPairingKey, Bool.and_eq_true, all_eq_true] at hkey
  exact isSafe_of_isHex (hkey.2 c hc)

variable {path : List UInt8}

/-- A request for a path without blanks is one for the path. -/
theorem handleHttp_get (hpath : 32 ∉ path) :
    handleHttp launchable p [] (ascii "GET " ++ path ++ ascii " HTTP/1.1") =
      (handleTarget launchable p [] path).map id some := by
  have hsplit : (ascii "GET " ++ path ++ ascii " HTTP/1.1").splitOn 32 =
      [ascii "GET", path, ascii "HTTP/1.1"] := by
    have hline : ascii "GET " ++ path ++ ascii " HTTP/1.1" =
        ([32] : List UInt8).intercalate [ascii "GET", path, ascii "HTTP/1.1"] := by
      simp only [intercalate_cons_cons, intercalate_singleton, append_assoc]
      rfl
    rw [hline]
    refine splitOn_intercalate 32 ?_ (by simp)
    intro part hpart
    simp only [mem_cons, not_mem_nil, or_false] at hpart
    rcases hpart with rfl | rfl | rfl
    · decide
    · exact hpath
    · decide
  have hne : ascii "GET " ++ path ++ ascii " HTTP/1.1" ≠ [] := by
    simp [ascii]
  rw [handleHttp, if_neg hne, hsplit]
  rfl

theorem uriQuery_append {query : List UInt8} (hpath : 63 ∉ path)
    (hfragment : 35 ∉ path ++ 63 :: query) : uriQuery (path ++ 63 :: query) = some query := by
  have hwhole : (path ++ 63 :: query).takeWhile (· != 35) = path ++ 63 :: query := by
    refine takeWhile_eq_self_iff.2 fun c hc => ?_
    exact bne_iff_ne.2 fun h => hfragment (h ▸ hc)
  have hpos : ∀ c ∈ path, (c != 63) = true := by
    intro c hc
    exact bne_iff_ne.2 fun h => hpath (h ▸ hc)
  rw [uriQuery, hwhole, dropWhile_append_of_pos hpos]
  rfl

variable (settings : Selection)

/-- The parameters of a request to configure the service. -/
def configParams : List (List UInt8 × List UInt8) :=
  [(ascii "key", cfg.pairingKey), (ascii "autoLaunch", flagText settings.autoLaunchEnabled)] ++
    (sent settings.selectedPackage).toList.map (ascii "package", ·) ++
    (sent settings.selectedActivity).toList.map (ascii "activity", ·)

theorem urlEncode_flagText (b : Bool) : urlEncode (flagText b) = flagText b := by
  cases b <;> decide

theorem companionConfigPath_eq :
    companionConfigPath cfg settings =
      ascii "/config?" ++ queryText (configParams cfg settings) := by
  by_cases hpackage : settings.selectedPackage = []
  all_goals
    by_cases hactivity : settings.selectedActivity = []
    all_goals
      simp only [companionConfigPath, configParams, sent, queryText, hpackage, hactivity, if_true,
        if_false, Option.toList_none, Option.toList_some, map_nil, map_cons,
        append_nil, nil_append, cons_append, intercalate_cons_cons,
        intercalate_singleton, urlEncode_flagText, append_assoc]
      rfl

/-- There is neither a blank nor a fragment in the path. -/
theorem notMem_companionConfigPath {c : UInt8} (hc : c = 32 ∨ c = 35) (settings : Selection) :
    c ∉ companionConfigPath cfg settings := by
  have hencoded (value : List UInt8) : c ∉ urlEncode value := by
    rcases hc with rfl | rfl
    · exact notMem_urlEncode (by decide) (by decide)
    · exact notMem_urlEncode (by decide) (by decide)
  have hflag : c ∉ flagText settings.autoLaunchEnabled := by
    rcases hc with rfl | rfl <;> cases settings.autoLaunchEnabled <;> decide
  have hnames : c ∉ ascii "/config?key=" ∧ c ∉ ascii "&autoLaunch=" ∧ c ∉ ascii "&package=" ∧
      c ∉ ascii "&activity=" := by
    rcases hc with rfl | rfl <;> decide
  unfold companionConfigPath
  split_ifs
  all_goals simp [hencoded, hflag, hnames]

theorem uriPath_append (path : List UInt8) (hpath : ∀ c ∈ path, isSafe c = true)
    (query : List UInt8) : uriPath (47 :: path ++ 63 :: query) = 47 :: path := by
  have hchar (c : UInt8) (hc : c ∈ path) : c ≠ 35 ∧ c ≠ 37 ∧ c ≠ 63 := by
    have hsafe := hpath c hc
    refine ⟨?_, ?_, ?_⟩
    all_goals
      rintro rfl
      revert hsafe
      decide
  have htake : (path ++ 63 :: query).takeWhile (fun c => c != 63 && c != 35) = path := by
    refine (split_append ?_ rfl).1
    intro c hc
    simp [hchar c hc]
  have hdecode : decode false path = path := by
    clear htake hpath
    induction path with
    | nil => rfl
    | cons c path ih =>
      rw [decode_cons (hchar c mem_cons_self).2.1, ih fun d hd => hchar d (mem_cons_of_mem c hd)]
      simp
  simp [uriPath, htake, hdecode, decode_cons]

section Config

theorem getQueryParameter_configParams (name : List UInt8) :
    getQueryParameter (some (queryText (configParams cfg settings))) name =
      ((configParams cfg settings).find? fun q => q.1 == name).map Prod.snd := by
  refine getQueryParameter_queryText (by simp [configParams]) ?_ name
  intro q hq
  simp only [configParams, mem_append, mem_cons, not_mem_nil, or_false, mem_map] at hq
  rcases hq with ((rfl | rfl) | ⟨_, -, rfl⟩) | ⟨_, -, rfl⟩
  all_goals
    dsimp only
    decide

theorem isAuthorized_config (hkey : isValidPairingKey cfg.pairingKey = true) :
    isAuthorized p (getQueryParameter (some (queryText (configParams cfg settings)))
      (ascii "key")) = decide (p.pairingKey = cfg.pairingKey) := by
  have hfind : (configParams cfg settings).find? (fun q => q.1 == ascii "key") =
      some (ascii "key", cfg.pairingKey) := rfl
  rw [getQueryParameter_configParams, hfind, Option.map_some, isAuthorized, hkey, Bool.true_and,
    Bool.eq_iff_iff, beq_iff_eq, decide_eq_true_eq]

theorem applyHttpConfig_config :
    applyHttpConfig (some (queryText (configParams cfg settings))) p = p.receive settings := by
  have hauto : (configParams cfg settings).find? (fun q => q.1 == ascii "autoLaunch") =
      some (ascii "autoLaunch", flagText settings.autoLaunchEnabled) := rfl
  have hpackage : ((configParams cfg settings).find? fun q => q.1 == ascii "package").map Prod.snd =
      sent settings.selectedPackage := by
    unfold configParams sent
    split_ifs <;> rfl
  have hactivity :
      ((configParams cfg settings).find? fun q => q.1 == ascii "activity").map Prod.snd =
      sent settings.selectedActivity := by
    unfold configParams sent
    split_ifs <;> rfl
  have hflag : (flagText settings.autoLaunchEnabled == ascii "1" ||
      (flagText settings.autoLaunchEnabled).map toLower == ascii "true") =
        settings.autoLaunchEnabled := by
    cases settings.autoLaunchEnabled <;> rfl
  simp only [applyHttpConfig, getQueryParameter_configParams, hauto, hpackage, hactivity,
    Option.map_some, hflag, Prefs.receive]

theorem handleTarget_config (hkey : isValidPairingKey cfg.pairingKey = true) :
    handleTarget launchable p [] (companionConfigPath cfg settings) =
      if p.pairingKey = cfg.pairingKey then (p.receive settings, ⟨200, ascii "configured\n"⟩)
      else (p, ⟨403, ascii "forbidden\n"⟩) := by
  have hfragment := notMem_companionConfigPath cfg (.inr rfl) settings
  rw [companionConfigPath_eq] at hfragment ⊢
  have htarget : ascii "/config?" ++ queryText (configParams cfg settings) =
      47 :: ascii "config" ++ 63 :: queryText (configParams cfg settings) := rfl
  rw [htarget] at hfragment ⊢
  have hquery := uriQuery_append (by decide) hfragment
  have hpath := uriPath_append (ascii "config") (all_eq_true.1 (by decide))
    (queryText (configParams cfg settings))
  have hauth := isAuthorized_config p cfg settings hkey
  have happly := applyHttpConfig_config p cfg settings
  rw [handleTarget, if_pos rfl, hquery, hpath, hauth, happly]
  by_cases hmatch : p.pairingKey = cfg.pairingKey
  · rw [if_pos hmatch, if_neg (by simp [hmatch]), if_neg (by decide), if_neg (by decide),
      if_pos (by decide)]
  · rw [if_neg hmatch, if_pos (by simp [hmatch])]

end Config

variable {key : List UInt8}

theorem notMem_settingsPath (hkey : isValidPairingKey key = true) {c : UInt8}
    (hc : c = 32 ∨ c = 35) : c ∉ ascii "/settings?key=" ++ key := by
  intro hmem
  rcases mem_append.1 hmem with hmem | hmem
  · revert hmem
    rcases hc with rfl | rfl <;> decide
  · have hsafe := isSafe_of_mem_key hkey hmem
    revert hsafe
    rcases hc with rfl | rfl <;> decide

theorem handleTarget_settings (hkey : isValidPairingKey key = true) :
    handleTarget launchable p [] (ascii "/settings?key=" ++ key) =
      if p.pairingKey = key then (p, ⟨200, currentSettingsJson p⟩)
      else (p, ⟨403, ascii "forbidden\n"⟩) := by
  have htarget : ascii "/settings?key=" ++ key =
      47 :: ascii "settings" ++ 63 :: queryText [(ascii "key", key)] := by
    simp only [queryText, map_cons, map_nil, intercalate_singleton,
      urlEncode_of_safe fun c => isSafe_of_mem_key hkey]
    rfl
  have hfragment : 35 ∉ 47 :: ascii "settings" ++ 63 :: queryText [(ascii "key", key)] := by
    rw [← htarget]
    exact notMem_settingsPath hkey (.inr rfl)
  have hquery := uriQuery_append (by decide) hfragment
  have hpath := uriPath_append (ascii "settings") (all_eq_true.1 (by decide))
    (queryText [(ascii "key", key)])
  have hparam : getQueryParameter (some (queryText [(ascii "key", key)])) (ascii "key") =
      some key := by
    rw [getQueryParameter_queryText (by simp) (by simp; decide)]
    rfl
  rw [htarget, handleTarget, if_pos rfl, hquery, hpath, hparam]
  by_cases hmatch : p.pairingKey = key
  · rw [if_pos hmatch, if_neg (by simp [isAuthorized, hkey, hmatch]), if_neg (by decide),
      if_pos (by decide)]
  · rw [if_neg hmatch, if_pos (by simp [isAuthorized, hmatch])]

end Requests

section Intents

variable (p : Prefs) (cfg : QuestAppConfig) (settings : Selection)

/-- The intent that is started for a selection. -/
def settingsIntent : Intent where
  strings := [(ascii "wkopenvr_pairing_key", cfg.pairingKey)] ++
    (sent settings.selectedPackage).toList.map (ascii "wkopenvr_selected_package", ·) ++
    (sent settings.selectedActivity).toList.map (ascii "wkopenvr_selected_activity", ·)
  flags := [(ascii "wkopenvr_auto_launch_enabled", settings.autoLaunchEnabled)]

/-- The shell makes the words again that the line was put together from. -/
theorem words_intercalate {command : List (List UInt8)} (hne : command ≠ [])
    (hwords : ∀ word ∈ command, word ≠ [] ∧ 32 ∉ word) :
    ((([32] : List UInt8).intercalate command).splitOn 32).filter (!·.isEmpty) = command := by
  rw [splitOn_intercalate 32 (fun word hword => (hwords word hword).2) hne]
  refine filter_eq_self.2 fun word hword => ?_
  simp [(hwords word hword).1]

theorem startedIntent_append {extras : List (List UInt8)}
    (hwords : ∀ word ∈ extras, word ≠ [] ∧ 32 ∉ word) :
    startedIntent ([ascii "shell", ascii "am", ascii "start-foreground-service", ascii "-n",
      ascii "org.wkopenvr.quest/.QuestCompanionService"] ++ extras) = readExtras extras {} := by
  have hcommand : ∀ word ∈ [ascii "am", ascii "start-foreground-service", ascii "-n",
      ascii "org.wkopenvr.quest/.QuestCompanionService"] ++ extras, word ≠ [] ∧ 32 ∉ word := by
    exact forall_mem_append.2 ⟨by decide, hwords⟩
  have hline := words_intercalate (by simp) hcommand
  rw [cons_append, startedIntent, if_pos rfl, hline]
  exact if_pos ⟨rfl, rfl, rfl, rfl⟩

theorem startedIntent_companionServiceCommand (hkey : isValidPairingKey cfg.pairingKey = true)
    (hpackage : 32 ∉ settings.selectedPackage) (hactivity : 32 ∉ settings.selectedActivity) :
    startedIntent (companionServiceCommand cfg (some settings)) =
      some (settingsIntent cfg settings) := by
  have hkeyWord : cfg.pairingKey ≠ [] ∧ 32 ∉ cfg.pairingKey := by
    refine ⟨?_, ?_⟩
    · intro hnil
      rw [hnil] at hkey
      cases hkey
    · intro hblank
      have hsafe := isSafe_of_mem_key hkey hblank
      revert hsafe
      decide
  have hflag : flagText settings.autoLaunchEnabled ≠ [] ∧
      32 ∉ flagText settings.autoLaunchEnabled := by
    cases settings.autoLaunchEnabled <;> decide
  have hnames : ∀ name ∈ [ascii "--es", ascii "--ez", ascii "wkopenvr_pairing_key",
      ascii "wkopenvr_auto_launch_enabled", ascii "wkopenvr_selected_package",
      ascii "wkopenvr_selected_activity"], name ≠ [] ∧ 32 ∉ name := by
    decide
  simp only [forall_mem_cons, not_mem_nil, false_implies, implies_true, and_true] at hnames
  obtain ⟨hes, hez, hkeyName, hautoName, hpackageName, hactivityName⟩ := hnames
  have hshell : companionServiceCommand cfg (some settings) = [ascii "shell", ascii "am",
      ascii "start-foreground-service", ascii "-n",
      ascii "org.wkopenvr.quest/.QuestCompanionService"] ++
        ([ascii "--es", ascii "wkopenvr_pairing_key", cfg.pairingKey, ascii "--ez",
          ascii "wkopenvr_auto_launch_enabled", flagText settings.autoLaunchEnabled] ++
        (if settings.selectedPackage = [] then []
          else [ascii "--es", ascii "wkopenvr_selected_package", settings.selectedPackage]) ++
        (if settings.selectedActivity = [] then []
          else [ascii "--es", ascii "wkopenvr_selected_activity", settings.selectedActivity])) :=
  rfl
  rw [hshell, startedIntent_append]
  · unfold settingsIntent sent
    cases settings.autoLaunchEnabled <;> split_ifs <;> rfl
  · split_ifs with hnoPackage hnoActivity hnoActivity
    all_goals
      simp only [cons_append, nil_append, append_nil, forall_mem_cons,
        not_mem_nil, false_implies, implies_true, and_true]
      simp only [hes, hez, hkeyName, hautoName, hpackageName, hactivityName, hkeyWord, hflag,
        hpackage, hactivity, hnoPackage, hnoActivity, not_false_eq_true, ne_eq, and_self]

theorem onStartCommand_settingsIntent (hkey : isValidPairingKey cfg.pairingKey = true) :
    onStartCommand p (settingsIntent cfg settings) =
      if p.pairingKey = [] then { p with pairingKey := cfg.pairingKey }.receive settings
      else if p.pairingKey = cfg.pairingKey then p.receive settings
      else p := by
  have hextraKey : extra (settingsIntent cfg settings).strings (ascii "wkopenvr_pairing_key") =
      some cfg.pairingKey := by
    unfold settingsIntent sent
    split_ifs <;> rfl
  have happly (q : Prefs) : applyIntentConfig (settingsIntent cfg settings) q =
      q.receive settings := by
    have hpackage : extra (settingsIntent cfg settings).strings
        (ascii "wkopenvr_selected_package") = sent settings.selectedPackage := by
      unfold settingsIntent sent
      split_ifs <;> rfl
    have hactivity : extra (settingsIntent cfg settings).strings
        (ascii "wkopenvr_selected_activity") = sent settings.selectedActivity := by
      unfold settingsIntent sent
      split_ifs <;> rfl
    rw [applyIntentConfig, hpackage, hactivity]
    rfl
  rw [onStartCommand, hextraKey]
  simp only [acceptPairingKey, hkey, Bool.not_true, Bool.false_eq_true, if_false]
  split_ifs with hfirst hmatch
  · exact happly _
  · exact happly _
  · rfl

end Intents

end WKOpenVR.Quest
