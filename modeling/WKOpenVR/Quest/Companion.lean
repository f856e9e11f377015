import WKOpenVR.Json

/-!
# The companion service on the headset

`QuestCompanionService` keeps a pairing key and a `Selection` (the app to launch, and
whether to launch it at the start) in its preferences. It is told about them by intents, sent
with `adb shell am` (`onStartCommand`), and by requests over HTTP (`handleHttp`), which also
ask for them. Both check the key and then put the fields that are present into the
preferences (`Prefs.put`); a field that is absent stays as it is.

The JSON text of the preferences is read back to its fields, whatever texts are stored
(`parse_currentSettingsJson`).
-/

namespace WKOpenVR.Quest

open Text Json

structure Selection where
  autoLaunchEnabled : Bool := false
  selectedPackage : List UInt8 := []
  selectedActivity : List UInt8 := []
  deriving DecidableEq

structure Prefs extends Selection where
  pairingKey : List UInt8 := []
  deriving DecidableEq

/-- Put the fields that are present into the preferences. -/
def Prefs.put (p : Prefs) (autoLaunch : Option Bool)
    (packageName activityName : Option (List UInt8)) :
    Prefs :=
  { p with
    autoLaunchEnabled := autoLaunch.getD p.autoLaunchEnabled
    selectedPackage := packageName.getD p.selectedPackage
    selectedActivity := activityName.getD p.selectedActivity }

/-! ## The pairing key -/

variable (c : UInt8)

def isHex : Bool := (hexValue c).isSome

def isValidPairingKey (key : List UInt8) : Bool := key.length == 64 && key.all isHex

/-- The preferences after a key was supplied, if it is accepted: the first one is stored. -/
def acceptPairingKey (p : Prefs) (key : List UInt8) : Option Prefs :=
  if !isValidPairingKey key then none
  else if p.pairingKey = [] then some { p with pairingKey := key }
  else if p.pairingKey = key then some p
  else none

def isAuthorized (p : Prefs) : Option (List UInt8) → Bool
  | none => false
  | some key => isValidPairingKey key && p.pairingKey == key

/-! ## Intents -/

/-- An intent, by its extras. -/
structure Intent where
  strings : List (List UInt8 × List UInt8) := []
  flags : List (List UInt8 × Bool) := []

/-- The last value that was put under a name. -/
def extra {α : Type} (extras : List (List UInt8 × α)) (name : List UInt8) : Option α :=
  (extras.reverse.find? fun e => e.1 == name).map Prod.snd

def applyIntentConfig (i : Intent) (p : Prefs) : Prefs :=
  p.put (extra i.flags (ascii "wkopenvr_auto_launch_enabled"))
    (extra i.strings (ascii "wkopenvr_selected_package"))
    (extra i.strings (ascii "wkopenvr_selected_activity"))

/-- An intent is ignored without a key that is accepted. -/
def onStartCommand (p : Prefs) (i : Intent) : Prefs :=
  match extra i.strings (ascii "wkopenvr_pairing_key") with
  | none => p
  | some key =>
    match acceptPairingKey p key with
    | none => p
    | some p => applyIntentConfig i p

/-! ## Addresses -/

/-- The text that an escaped text stands for. -/
def decode (convertPlus : Bool) : List UInt8 → List UInt8
  | [] => []
  | c :: t =>
    if c = 37 then
      match t with
      | h :: l :: t =>
        match hexValue h, hexValue l with
        | some h, some l => UInt8.ofNat (16 * h + l) :: decode convertPlus t
        | _, _ => [0xEF, 0xBF, 0xBD] ++ decode convertPlus t
      | _ => [0xEF, 0xBF, 0xBD]
    else if c = 43 ∧ convertPlus then 32 :: decode convertPlus t
    else c :: decode convertPlus t

theorem decode_cons {c : UInt8} (hc : c ≠ 37) (convertPlus : Bool) (t : List UInt8) :
    decode convertPlus (c :: t) =
      (if c = 43 ∧ convertPlus then 32 else c) :: decode convertPlus t := by
  rw [decode.eq_def]
  simp only [if_neg hc]
  split_ifs <;> rfl

/-- The path of the target of a request, after the host. -/
def uriPath (target : List UInt8) : List UInt8 :=
  decode false ((target.dropWhile fun c => c != 47 && c != 63 && c != 35).takeWhile
    fun c => c != 63 && c != 35)

def uriQuery (target : List UInt8) : Option (List UInt8) :=
  match (target.takeWhile (· != 35)).dropWhile (· != 63) with
  | [] => none
  | _ :: query => some query

variable (query : Option (List UInt8))

/-- The first parameter with a name. -/
def getQueryParameter (name : List UInt8) : Option (List UInt8) :=
  query.bind fun query =>
    ((query.splitOn 38).find? fun part => part.takeWhile (· != 61) == name).map fun part =>
      decode true ((part.dropWhile (· != 61)).drop 1)

/-! ## Requests -/

def applyHttpConfig (p : Prefs) : Prefs :=
  p.put
    ((getQueryParameter query (ascii "autoLaunch")).map fun autoLaunch =>
      autoLaunch == ascii "1" || autoLaunch.map toLower == ascii "true")
    (getQueryParameter query (ascii "package"))
    (getQueryParameter query (ascii "activity"))

def hexDigit (n : ℕ) : UInt8 := if n < 10 then .ofNat (48 + n) else .ofNat (87 + n)

def escapeByte : List UInt8 :=
  if c = 92 then [92, 92]
  else if c = 34 then [92, 34]
  else if c = 10 then [92, 110]
  else if c = 13 then [92, 114]
  else if c = 9 then [92, 116]
  else if c < 32 then [92, 117, 48, 48, hexDigit (c.toNat / 16), hexDigit (c.toNat % 16)]
  else [c]

def jsonEscape (text : List UInt8) : List UInt8 := text.flatMap escapeByte

def remoteProgramVersion : ℕ := 1

def httpPort : ℕ := 39789

def currentSettingsJson (p : Prefs) : List UInt8 :=
  ascii "\x7b" ++
    ascii "\"paired\":true," ++
    ascii "\"remoteProgramVersion\":" ++ decimal remoteProgramVersion ++ ascii "," ++
    ascii "\"remoteFeatures\":[\"settingsReport\"]," ++
    ascii "\"autoLaunchEnabled\":" ++ ascii (if p.autoLaunchEnabled then "true" else "false") ++
    ascii "," ++
    ascii "\"selectedPackage\":\"" ++ jsonEscape p.selectedPackage ++ ascii "\"," ++
    ascii "\"selectedActivity\":\"" ++ jsonEscape p.selectedActivity ++ ascii "\"," ++
    ascii "\"httpPort\":" ++ decimal httpPort ++
    ascii "\x7d\n"

structure Response where
  statusCode : ℕ
  body : List UInt8

section Http

variable (launchable : List UInt8 → List UInt8 → Bool) (p : Prefs)

/-- Whether the app is launched: `launchable` tells if the headset can do so. -/
def launchConfiguredApp : Bool :=
  !p.selectedPackage.isEmpty && launchable p.selectedPackage p.selectedActivity

/-- The answer to a request for a target, with the preferences after it. -/
def handleTarget (p : Prefs) (headerKey target : List UInt8) : Prefs × Response :=
  let key :=
    if headerKey = [] then getQueryParameter (uriQuery target) (ascii "key") else some headerKey
  let path := uriPath target
  if !isAuthorized p key then (p, ⟨403, ascii "forbidden\n"⟩)
  else if path = ascii "/health" then (p, ⟨200, ascii "paired\n"⟩)
  else if path = ascii "/settings" ∨ path = ascii "/list" then (p, ⟨200, currentSettingsJson p⟩)
  else if path = ascii "/config" then
    (applyHttpConfig (uriQuery target) p, ⟨200, ascii "configured\n"⟩)
  else if path = ascii "/launch" then
    (p, ⟨if launchConfiguredApp launchable p then 200 else 500, ascii "launch\n"⟩)
  else (p, ⟨404, ascii "not found\n"⟩)

/-- The answer to a request, if there is one, with the preferences after it. -/
def handleHttp (headerKey requestLine : List UInt8) : Prefs × Option Response :=
  if requestLine = [] then (p, none)
  else
    match (requestLine.splitOn 32).rdropWhile List.isEmpty with
    | _ :: target :: _ => (handleTarget launchable p headerKey target).map id some
    | _ => (p, some ⟨400, ascii "bad request\n"⟩)

end Http

/-! ## The settings as JSON -/

theorem hexValue_hexDigit {n : ℕ} (hn : n < 16) : hexValue (hexDigit n) = some n := by
  revert hn
  revert n
  decide

theorem readString_backslash {t t' bs : List UInt8} (h : escape t = some (bs, t')) (fuel : ℕ) :
    readString (fuel + 1) (92 :: t) = (readString fuel t').map fun r => (bs ++ r.1, r.2) := by
  have hstep : readString (fuel + 1) (92 :: t) =
      (escape t).bind fun r => (readString fuel r.2).bind fun q => some (r.1 ++ q.1, q.2) := rfl
  rw [hstep, h, Option.bind_some, Option.map_eq_bind]
  rfl

/-- An escaped character is read as the character. -/
theorem readString_escapeByte (fuel : ℕ) (t : List UInt8) :
    readString (fuel + 1) (escapeByte c ++ t) =
      (readString fuel t).map fun r => (c :: r.1, r.2) := by
  unfold escapeByte
  split_ifs with hslash hquote hnewline hreturn htab hcontrol
  · subst hslash
    exact readString_backslash (t := 92 :: t) rfl fuel
  · subst hquote
    exact readString_backslash (t := 34 :: t) rfl fuel
  · subst hnewline
    exact readString_backslash (t := 110 :: t) rfl fuel
  · subst hreturn
    exact readString_backslash (t := 114 :: t) rfl fuel
  · subst htab
    exact readString_backslash (t := 116 :: t) rfl fuel
  · have hnat : c.toNat < 32 := UInt8.lt_iff_toNat_lt.1 hcontrol
    have hquad : quadHex (48 :: 48 :: hexDigit (c.toNat / 16) :: hexDigit (c.toNat % 16) :: t) =
        some (c.toNat, t) := by
      have hzero : hexValue 48 = some 0 := rfl
      simp [quadHex, hzero, hexValue_hexDigit (show c.toNat / 16 < 16 by omega),
        hexValue_hexDigit (show c.toNat % 16 < 16 by omega)]
      omega
    have hutf8 : utf8 c.toNat = [c] := by
      rw [utf8, if_pos (by omega), UInt8.ofNat_toNat]
    have hescape : escape (117 :: 48 :: 48 :: hexDigit (c.toNat / 16) ::
        hexDigit (c.toNat % 16) :: t) = some ([c], t) := by
      have hcode : escape (117 :: 48 :: 48 :: hexDigit (c.toNat / 16) ::
          hexDigit (c.toNat % 16) :: t) = codepoint _ := rfl
      rw [hcode, codepoint, hquad]
      simp [hutf8, show ¬0xD800 ≤ c.toNat by omega]
    exact readString_backslash hescape fuel
  · have hstep : readString (fuel + 1) (c :: t) =
        (readString fuel t).bind fun q => some (c :: q.1, q.2) := by
      simp [readString, hcontrol, hquote, hslash]
    rw [List.singleton_append, hstep, Option.map_eq_bind]
    rfl

theorem length_escapeByte_pos : 0 < (escapeByte c).length := by
  unfold escapeByte
  split_ifs <;> simp

theorem writesString_jsonEscape (text : List UInt8) : WritesString text (jsonEscape text) := by
  intro fuel u hfuel
  induction text generalizing fuel with
  | nil =>
    obtain ⟨f, rfl⟩ : ∃ f, fuel = f + 1 := ⟨fuel - 1, by omega⟩
    rfl
  | cons c text ih =>
    obtain ⟨f, rfl⟩ : ∃ f, fuel = f + 1 := ⟨fuel - 1, by omega⟩
    have hlength := length_escapeByte_pos c
    have hread := ih f (by simp [jsonEscape] at hfuel ⊢; omega)
    rw [jsonEscape, List.flatMap_cons, List.append_assoc, readString_escapeByte]
    rw [jsonEscape] at hread
    rw [hread]
    rfl

variable (p : Prefs)

def settingsFields : List (List UInt8 × Value) :=
  [(ascii "paired", .bool true),
    (ascii "remoteProgramVersion", .number (decimal remoteProgramVersion)),
    (ascii "remoteFeatures", .array [.string (ascii "settingsReport")]),
    (ascii "autoLaunchEnabled", .bool p.autoLaunchEnabled),
    (ascii "selectedPackage", .string p.selectedPackage),
    (ascii "selectedActivity", .string p.selectedActivity),
    (ascii "httpPort", .number (decimal httpPort))]

theorem writes_decimal (n : ℕ) : Writes (.number (decimal n)) (decimal n) := by
  cases hd : decimal n with
  | nil => exact absurd hd (decimal_ne_nil n)
  | cons c ds =>
    have hdigit (d : UInt8) (hmem : d ∈ c :: ds) : isDigit d = true :=
      isDigit_of_mem_decimal (hd ▸ hmem)
    exact writes_number (hdigit c List.mem_cons_self)
      fun d hmem => hdigit d (List.mem_cons_of_mem c hmem)

/-- The settings are read back from their text. -/
theorem parse_currentSettingsJson :
    parse (currentSettingsJson p) = some (.object (settingsFields p)) := by
  have hfields := writesFields_cons (writesString_plain (s := ascii "paired") (by decide))
    (writes_bool true) <|
    writesFields_cons (writesString_plain (s := ascii "remoteProgramVersion") (by decide))
      (writes_decimal remoteProgramVersion) <|
    writesFields_cons (writesString_plain (s := ascii "remoteFeatures") (by decide))
      (writes_array (writesItems_last (writes_string
        (writesString_plain (s := ascii "settingsReport") (by decide))))) <|
    writesFields_cons (writesString_plain (s := ascii "autoLaunchEnabled") (by decide))
      (writes_bool p.autoLaunchEnabled) <|
    writesFields_cons (writesString_plain (s := ascii "selectedPackage") (by decide))
      (writes_string (writesString_jsonEscape p.selectedPackage)) <|
    writesFields_cons (writesString_plain (s := ascii "selectedActivity") (by decide))
      (writes_string (writesString_jsonEscape p.selectedActivity)) <|
    writesFields_last (writesString_plain (s := ascii "httpPort") (by decide))
      (writes_decimal httpPort)
  have hparse := parse_of_writes (writes_object hfields) (u := [10]) rfl
  refine (congrArg parse ?_).trans hparse
  -- The two texts differ in how they are put together, not in the numbers in them.
  unfold currentSettingsJson
  generalize decimal remoteProgramVersion = version
  generalize decimal httpPort = port
  simp [ascii]

end WKOpenVR.Quest
