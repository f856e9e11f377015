import WKOpenVR.Machine
import WKOpenVR.Quest.Sync

/-!
# The settings of the companion

Calls of `SyncCompanionConfig` and `QueryCompanionSettings`, in any order, with what becomes
of their messages. Over Wi-Fi, the service has handled a request when it answers. A command of
`adb` is done when the intent is on its way: the service handles the intents in their order
(`deliver`), and ignores those with another key.

What is stored, and returned by a query, is what was sent by the last call
(`stored_eq_lastSync`), if nothing gets in the way of the calls (`Undisturbed`). It does if a
package or an activity is empty that was not so before: it is not sent, and the service keeps
the one that it has (`empty_selection_not_stored`).
-/

namespace WKOpenVR.Quest

open Text Json

/-! ## Sending settings -/

theorem Prefs.receive_receive (p : Prefs) (settings : Selection) :
    (p.receive settings).receive settings = p.receive settings := by
  unfold Prefs.receive Prefs.put sent
  split_ifs <;> rfl

/-- The preferences hold the selection once they receive it: a text that is not sent is not
stored either, and the key is the first one or the one that is stored. -/
structure Ready (cfg : QuestAppConfig) (settings : Selection) (p : Prefs) : Prop where
  key : p.pairingKey = [] ∨ p.pairingKey = cfg.pairingKey
  package : settings.selectedPackage = [] → p.selectedPackage = []
  activity : settings.selectedActivity = [] → p.selectedActivity = []

/-- What a request over HTTP did to the preferences. -/
structure Attempted (settings : Selection) (p p' : Prefs) (ok : Bool) : Prop where
  keeps_or : p' = p ∨ p' = p.receive settings
  of_ok : ok = true → p' = p.receive settings

section Attempts

variable {cfg : QuestAppConfig} {settings : Selection} {p p' p'' : Prefs} {ok ok' : Bool}

theorem Ready.toSelection_receive (h : Ready cfg settings p) :
    (p.receive settings).toSelection = settings := by
  obtain ⟨-, hpackage, hactivity⟩ := h
  obtain ⟨autoLaunch, packageName, activityName⟩ := settings
  unfold Prefs.receive Prefs.put sent
  split_ifs <;> simp_all

theorem Ready.receive (h : Ready cfg settings p) : Ready cfg settings (p.receive settings) := by
  refine ⟨h.key, ?_, ?_⟩
  · intro hnone
    simpa [Prefs.receive, Prefs.put, sent, hnone] using h.package hnone
  · intro hnone
    simpa [Prefs.receive, Prefs.put, sent, hnone] using h.activity hnone

theorem Ready.onStartCommand (h : Ready cfg settings p)
    (hkey : isValidPairingKey cfg.pairingKey = true) :
    (onStartCommand p (settingsIntent cfg settings)).toSelection = settings := by
  rw [onStartCommand_settingsIntent p cfg settings hkey]
  split_ifs with hfirst hmatch
  · exact @Ready.toSelection_receive cfg _ _ ⟨.inr rfl, h.package, h.activity⟩
  · exact h.toSelection_receive
  · exact absurd h.key (by simp [hfirst, hmatch])

theorem Attempted.refl (settings : Selection) (p : Prefs) : Attempted settings p p false :=
  ⟨.inl rfl, fun h => by cases h⟩

theorem Attempted.trans (h : Attempted settings p p' ok) (h' : Attempted settings p' p'' ok') :
    Attempted settings p p'' ok' := by
  rcases h.keeps_or with rfl | rfl
  · exact h'
  · have hreceive : p'' = p.receive settings := by
      rcases h'.keeps_or with rfl | rfl
      · rfl
      · exact p.receive_receive settings
    exact ⟨.inr hreceive, fun _ => hreceive⟩

theorem Attempted.ready (h : Attempted settings p p' ok) (hready : Ready cfg settings p) :
    Ready cfg settings p' := by
  rcases h.keeps_or with rfl | rfl
  · exact hready
  · exact hready.receive

variable (launchable : List UInt8 → List UInt8 → Bool)

theorem attempted_httpGetCompanion (hkey : isValidPairingKey cfg.pairingKey = true)
    (settings : Selection) (fate : HttpFate) (p : Prefs) :
    Attempted settings p
      (httpGetCompanion launchable (companionConfigPath cfg settings) fate p).1
      (httpGetCompanion launchable (companionConfigPath cfg settings) fate p).2.1.ok := by
  have hhandle := handleHttp_get launchable p (notMem_companionConfigPath cfg (.inl rfl) settings)
  rw [handleTarget_config launchable p cfg settings hkey] at hhandle
  cases fate with
  | unreachable => exact .refl settings p
  | unanswered | answered _ =>
    simp only [httpGetCompanion, hhandle]
    split_ifs
    · exact ⟨.inr rfl, fun _ => rfl⟩
    · exact .refl settings p

theorem attempted_requestOverWifi (hkey : isValidPairingKey cfg.pairingKey = true)
    (settings : Selection) (wifi : WifiFates) (p : Prefs) :
    Attempted settings p
      (requestOverWifi launchable cfg (companionConfigPath cfg settings) wifi p).1
      (requestOverWifi launchable cfg (companionConfigPath cfg settings) wifi p).2.1.ok := by
  have htry (cfg' : QuestAppConfig) (fate : HttpFate) (q : Prefs) : Attempted settings q
      (tryHttpCompanion launchable cfg' (companionConfigPath cfg settings) fate q).1
      (tryHttpCompanion launchable cfg' (companionConfigPath cfg settings) fate q).2.1.ok := by
    unfold tryHttpCompanion
    split_ifs
    · exact .refl settings q
    · exact attempted_httpGetCompanion launchable hkey settings fate q
  unfold requestOverWifi
  dsimp only
  split_ifs
  · exact htry cfg wifi.first p
  · cases refreshCompanionHostFromAdb wifi.host cfg with
    | none => exact htry cfg wifi.first p
    | some cfg' => exact (htry cfg wifi.first p).trans (htry cfg' wifi.second _)

/-- Requests that do not reach the service do nothing. -/
theorem requestOverWifi_unreachable (cfg : QuestAppConfig) (path host : List UInt8) (p : Prefs) :
    (requestOverWifi launchable cfg path ⟨.unreachable, host, .unreachable⟩ p).1 = p ∧
      (requestOverWifi launchable cfg path ⟨.unreachable, host, .unreachable⟩ p).2.1.ok =
        false := by
  have htry (cfg : QuestAppConfig) :
      (tryHttpCompanion launchable cfg path .unreachable p).1 = p ∧
        (tryHttpCompanion launchable cfg path .unreachable p).2.1.ok = false := by
    unfold tryHttpCompanion
    split_ifs <;> exact ⟨rfl, rfl⟩
  unfold requestOverWifi
  dsimp only
  rw [if_neg (by simp [(htry cfg).2])]
  cases refreshCompanionHostFromAdb host cfg with
  | none => exact htry cfg
  | some cfg' =>
    dsimp only
    rw [(htry cfg).1]
    exact htry cfg'

end Attempts

/-! ## Asking for the settings -/

/-- The settings of an answer, of which any part is received, are those that are stored. -/
theorem toSelection_of_parse {toInt : List UInt8 → ℤ} {p : Prefs} {n : ℕ}
    {settings : QuestCompanionSettings}
    (h : parseCompanionSettingsJson toInt ((currentSettingsJson p).take n) = some settings) :
    settings.toSelection = p.toSelection := by
  unfold parseCompanionSettingsJson at h
  split at h
  · rename_i fields hparse
    have hwhole := parse_of_prefix (List.take_prefix n (currentSettingsJson p)) hparse
      fun n hn => by cases hn
    rw [parse_currentSettingsJson, Option.some.injEq, Value.object.injEq] at hwhole
    subst hwhole
    cases h
    rfl
  · cases h

/-- A request for the settings leaves the preferences as they are, and is answered with them. -/
def Asked (p : Prefs) (http : Prefs × OperationResult × List UInt8) : Prop :=
  http.1 = p ∧ (http.2.1.ok = true → ∃ n, http.2.2 = (currentSettingsJson p).take n)

section Query

variable (launchable : List UInt8 → List UInt8 → Bool) {cfg : QuestAppConfig} (p : Prefs)

theorem asked_httpGetCompanion {key : List UInt8} (hkey : isValidPairingKey key = true)
    (fate : HttpFate) :
    Asked p (httpGetCompanion launchable (ascii "/settings?key=" ++ key) fate p) := by
  have hhandle := handleHttp_get launchable p (notMem_settingsPath hkey (.inl rfl))
  rw [handleTarget_settings launchable p hkey] at hhandle
  cases fate with
  | unreachable => exact ⟨rfl, fun h => by cases h⟩
  | unanswered =>
    simp only [httpGetCompanion, hhandle]
    split_ifs <;> exact ⟨rfl, fun h => by cases h⟩
  | answered received =>
    simp only [httpGetCompanion, hhandle]
    split_ifs
    · exact ⟨rfl, fun _ => ⟨received, rfl⟩⟩
    · exact ⟨rfl, fun h => by cases h⟩

theorem asked_requestOverWifi (cfg : QuestAppConfig)
    (hkey : isValidPairingKey cfg.pairingKey = true) (wifi : WifiFates) :
    Asked p (requestOverWifi launchable cfg (ascii "/settings?key=" ++ cfg.pairingKey) wifi p) := by
  have htry (cfg' : QuestAppConfig) (fate : HttpFate) : Asked p
      (tryHttpCompanion launchable cfg' (ascii "/settings?key=" ++ cfg.pairingKey) fate p) := by
    unfold tryHttpCompanion
    split_ifs
    · exact ⟨rfl, fun h => by cases h⟩
    · exact asked_httpGetCompanion launchable p hkey fate
  unfold requestOverWifi
  dsimp only
  split_ifs
  · exact htry cfg wifi.first
  · cases refreshCompanionHostFromAdb wifi.host cfg with
    | none => exact htry cfg wifi.first
    | some cfg' =>
      dsimp only
      rw [(htry cfg wifi.first).1]
      exact htry cfg' wifi.second

/-- Asking changes nothing, and a query that succeeds returns what is stored. -/
theorem queryCompanionSettings_spec (toInt : List UInt8 → ℤ) (cfg : QuestAppConfig)
    (fates : QueryFates) :
    (queryCompanionSettings launchable toInt cfg fates p).1 = p ∧
      ((queryCompanionSettings launchable toInt cfg fates p).2.result.ok = true →
        (queryCompanionSettings launchable toInt cfg fates p).2.settings.toSelection =
          p.toSelection) := by
  unfold queryCompanionSettings
  by_cases hinstalled : cfg.companionInstalled = true
  · by_cases hkey : isValidPairingKey cfg.pairingKey = true
    · simp only [hinstalled, hkey, Bool.not_true, Bool.false_eq_true, if_false]
      have hwifi := asked_requestOverWifi launchable p cfg hkey fates.toWifiFates
      generalize requestOverWifi launchable cfg _ fates.toWifiFates p = http at hwifi ⊢
      by_cases hunreached : (!http.2.1.ok && !fates.forwarded) = true
      · rw [if_pos hunreached]
        exact ⟨hwifi.1, fun h => by cases h⟩
      · rw [if_neg hunreached]
        -- Whichever request was the last, its body is a part of the settings.
        have hlast : Asked p (if http.2.1.ok = true then http else httpGetCompanion launchable
            (ascii "/settings?key=" ++ cfg.pairingKey) fates.third http.1) := by
          split_ifs
          · exact hwifi
          · rw [hwifi.1]
            exact asked_httpGetCompanion launchable p hkey fates.third
        generalize (if http.2.1.ok = true then http else _) = last at hlast ⊢
        obtain ⟨hprefs, hbody⟩ := hlast
        split_ifs with hok
        · refine ⟨hprefs, fun h => ?_⟩
          have hlastOk : last.2.1.ok = true := h
          simp [hlastOk] at hok
        · obtain ⟨n, hn⟩ := hbody (by simpa using hok)
          rw [hn]
          cases hparse : parseCompanionSettingsJson toInt ((currentSettingsJson p).take n) with
          | none => exact ⟨hprefs, fun h => by cases h⟩
          | some settings => exact ⟨hprefs, fun _ => toSelection_of_parse hparse⟩
    · simp [hinstalled, hkey]
  · simp [hinstalled]

end Query

/-! ## Runs -/

/-- The preferences after the intents that are pending. -/
def Headset.settled (h : Headset) : Prefs := h.pending.foldl onStartCommand h.prefs

def isNameChar (c : UInt8) : Bool :=
  decide (97 ≤ c ∧ c ≤ 122 ∨ 65 ≤ c ∧ c ≤ 90 ∨ 48 ≤ c ∧ c ≤ 57 ∨ c = 46 ∨ c = 95)

/-- A name of letters, digits, dots and underscores, or nothing. -/
def IsName (text : List UInt8) : Prop := ∀ c ∈ text, isNameChar c = true

theorem IsName.notMem {text : List UInt8} (h : IsName text) : 32 ∉ text := by
  intro hblank
  have hchar := h 32 hblank
  revert hchar
  decide

inductive CompanionEvent
  | sync (cfg : QuestAppConfig) (settings : Selection) (wifi : WifiFates) (adb : AdbFate)
  | query (cfg : QuestAppConfig) (fates : QueryFates)
  /-- The service handles the next intent. -/
  | deliver

section Runs

variable (launchable : List UInt8 → List UInt8 → Bool) (toInt : List UInt8 → ℤ)

def companionMachine : Machine Headset CompanionEvent where
  init := Set.univ
  step h
    | .sync cfg settings wifi adb => some (syncCompanionConfig launchable cfg settings wifi adb h).1
    | .query cfg fates =>
      some { h with prefs := (queryCompanionSettings launchable toInt cfg fates h.prefs).1 }
    | .deliver =>
      match h.pending with
      | [] => none
      | i :: pending => some ⟨onStartCommand h.prefs i, pending⟩

/-- The calls of `SyncCompanionConfig` have names to send, and report success. -/
def Successful (h : Headset) : CompanionEvent → Prop
  | .sync cfg settings wifi adb =>
    (syncCompanionConfig launchable cfg settings wifi adb h).2.ok = true ∧
      IsName settings.selectedPackage ∧ IsName settings.selectedActivity
  | _ => True

/-- Nothing gets in the way of a call: the service accepts the key, and has no name where none
is sent; and while an intent is pending, there is no request over Wi-Fi, which would overtake
it. -/
def Undisturbed (h : Headset) : CompanionEvent → Prop
  | .sync cfg settings wifi _ =>
    Ready cfg settings h.settled ∧
      (h.pending = [] ∨ wifi.first = .unreachable ∧ wifi.second = .unreachable)
  | _ => True

/-- The selection of the last call. -/
def lastSync (es : List CompanionEvent) : Option Selection :=
  (es.filterMap fun
    | .sync _ settings _ _ => some settings
    | _ => none).getLast?

variable {launchable toInt} {settings : Selection} {cfg : QuestAppConfig} {wifi : WifiFates}
  {adb : AdbFate} {h : Headset}

/-- A call that reports success was answered over Wi-Fi, or started an intent. -/
theorem syncCompanionConfig_ok
    (hok : (syncCompanionConfig launchable cfg settings wifi adb h).2.ok = true) :
    isValidPairingKey cfg.pairingKey = true ∧
      ∃ http,
        requestOverWifi launchable cfg (companionConfigPath cfg settings) wifi h.prefs = http ∧
        (http.2.1.ok = true ∧ (syncCompanionConfig launchable cfg settings wifi adb h).1 =
            { h with prefs := http.1 } ∨
          (syncCompanionConfig launchable cfg settings wifi adb h).1 =
            ⟨http.1, h.pending ++
              (startedIntent (companionServiceCommand cfg (some settings))).toList⟩) := by
  unfold syncCompanionConfig at hok ⊢
  by_cases hinstalled : cfg.companionInstalled = true
  · by_cases hkey : isValidPairingKey cfg.pairingKey = true
    · refine ⟨hkey, _, rfl, ?_⟩
      simp only [hinstalled, hkey, Bool.not_true, Bool.false_eq_true, if_false] at hok ⊢
      split_ifs at hok ⊢ with hhttp hrun
      · exact .inl ⟨hhttp, rfl⟩
      · cases adb with
        | confirmed => exact .inr rfl
        | _ => cases hrun
    · simp [hinstalled, hkey] at hok
  · simp [hinstalled] at hok

/-- A call that nothing gets in the way of leads to the selection that it sends. -/
theorem settled_syncCompanionConfig (hok : Successful launchable h (.sync cfg settings wifi adb))
    (hclear : Undisturbed h (.sync cfg settings wifi adb)) :
    (syncCompanionConfig launchable cfg settings wifi adb h).1.settled.toSelection = settings := by
  obtain ⟨hok, hpackage, hactivity⟩ := hok
  obtain ⟨hready, hwifi⟩ := hclear
  obtain ⟨hkey, http, hhttp, hdone⟩ := syncCompanionConfig_ok hok
  have hattempt := attempted_requestOverWifi launchable hkey settings wifi h.prefs
  rw [hhttp] at hattempt
  -- The preferences before the own intent are ready, as no other intent comes after the request.
  have hsettled : Ready cfg settings (h.pending.foldl onStartCommand http.1) ∧
      (http.2.1.ok = true → h.pending = []) := by
    rcases hwifi with hidle | ⟨hfirst, hsecond⟩
    · rw [Headset.settled, hidle] at hready
      rw [hidle]
      exact ⟨hattempt.ready hready, fun _ => rfl⟩
    · obtain ⟨first, host, second⟩ := wifi
      obtain rfl : first = .unreachable := hfirst
      obtain rfl : second = .unreachable := hsecond
      have hnothing := requestOverWifi_unreachable launchable cfg (companionConfigPath cfg settings)
        host h.prefs
      rw [hhttp] at hnothing
      rw [hnothing.1]
      exact ⟨hready, fun hok => by simp [hnothing.2] at hok⟩
  rcases hdone with ⟨hanswered, hstate⟩ | hstate
  · have hidle := hsettled.2 hanswered
    rw [Headset.settled, hidle] at hready
    rw [hstate, Headset.settled, hidle]
    dsimp only [List.foldl_nil]
    rw [hattempt.of_ok hanswered]
    exact hready.toSelection_receive
  · rw [hstate, startedIntent_companionServiceCommand cfg settings hkey hpackage.notMem
      hactivity.notMem, Headset.settled, Option.toList_some, List.foldl_append]
    exact hsettled.1.onStartCommand hkey

variable {es : List CompanionEvent}

/-- In a run in which nothing gets in the way, the intents that are pending lead to the selection
of the last call. -/
theorem settled_of_run {h : Headset}
    (hrun : (companionMachine launchable toInt).RunIf
      (fun h e => Successful launchable h e ∧ Undisturbed h e) es h)
    (hlast : lastSync es = some settings) : h.settled.toSelection = settings := by
  revert settings
  refine Machine.RunIf.history_invariant
    (I := fun es h => ∀ {settings}, lastSync es = some settings →
      h.settled.toSelection = settings) hrun ?_ ?_
  · intro h _ settings hlast
    cases hlast
  · intro es h e h' ih hguard hstep settings hlast
    cases e with
    | sync cfg sentSettings wifi adb =>
      cases hstep
      obtain rfl : sentSettings = settings := by
        simpa [lastSync] using hlast
      exact settled_syncCompanionConfig hguard.1 hguard.2
    | query cfg fates =>
      cases hstep
      rw [(queryCompanionSettings_spec launchable h.prefs toInt cfg fates).1]
      exact ih (by simpa [lastSync] using hlast)
    | deliver =>
      have hlast' : lastSync es = some settings := by simpa [lastSync] using hlast
      obtain ⟨prefs, pending⟩ := h
      cases pending with
      | nil => cases hstep
      | cons i pending =>
        cases hstep
        exact ih hlast'

/-- After any calls that succeed, with nothing in the way of them, the service has stored the
selection of the last call once no intent is pending, and a query that succeeds returns it. -/
theorem stored_eq_lastSync {h : Headset} (hrun : (companionMachine launchable toInt).RunIf
      (fun h e => Successful launchable h e ∧ Undisturbed h e) es h)
    {settings : Selection} (hlast : lastSync es = some settings) (hidle : h.pending = []) :
    h.prefs.toSelection = settings ∧ ∀ cfg fates,
      (queryCompanionSettings launchable toInt cfg fates h.prefs).2.result.ok = true →
        (queryCompanionSettings launchable toInt cfg fates h.prefs).2.settings.toSelection =
          settings := by
  have hstored : h.prefs.toSelection = settings := by
    have hsettled := settled_of_run hrun hlast
    rw [Headset.settled, hidle] at hsettled
    exact hsettled
  refine ⟨hstored, ?_⟩
  intro cfg fates hok
  rw [(queryCompanionSettings_spec launchable h.prefs toInt cfg fates).2 hok, hstored]

end Runs

section Example

/-- A headset in the same network as the overlay, paired and without a selection. -/
def pairedConfig : QuestAppConfig where
  pairingKey := List.replicate 64 97
  companionHost := ascii "10.0.0.2"
  companionInstalled := true

def pairedHeadset : Headset := ⟨{ pairingKey := List.replicate 64 97 }, []⟩

/-- A call that is answered over Wi-Fi. -/
def syncOverWifi (settings : Selection) : CompanionEvent :=
  .sync pairedConfig settings { first := .answered 11 } .failed

def gameSelection : Selection := ⟨true, ascii "org.game", ascii "Main"⟩

theorem successful_game :
    Successful (fun _ _ => true) pairedHeadset (syncOverWifi gameSelection) := by
  refine ⟨by decide +kernel, ?_, ?_⟩
  · show ∀ c ∈ gameSelection.selectedPackage, isNameChar c = true
    exact List.all_eq_true.1 (by decide)
  · show ∀ c ∈ gameSelection.selectedActivity, isNameChar c = true
    exact List.all_eq_true.1 (by decide)

theorem stored_eq_lastSync_game :
    (syncCompanionConfig (fun _ _ => true) pairedConfig gameSelection { first := .answered 11 }
      .failed pairedHeadset).1.prefs.toSelection = gameSelection := by
  have hclear : Undisturbed pairedHeadset (syncOverWifi gameSelection) :=
    ⟨⟨.inr rfl, fun _ => rfl, fun _ => rfl⟩, .inl rfl⟩
  have hrun : (companionMachine (fun _ _ => true) fun _ => 0).RunIf
      (fun h e => Successful (fun _ _ => true) h e ∧ Undisturbed h e)
        [syncOverWifi gameSelection] _ :=
    @Machine.RunIf.step _ _ _ _ [] _ _ _ (.init (Set.mem_univ pairedHeadset))
      ⟨successful_game, hclear⟩ rfl
  exact (stored_eq_lastSync hrun rfl (by decide +kernel)).1

/-- A selection without a package, after one with a package: the service keeps the package, and
returns it. -/
theorem empty_selection_not_stored : ∃ es h,
    (companionMachine (fun _ _ => true) fun _ => 0).RunIf (Successful fun _ _ => true) es h ∧
      lastSync es = some {} ∧ h.pending = [] ∧ h.prefs.selectedPackage = ascii "org.game" ∧
        ∃ fates, (queryCompanionSettings (fun _ _ => true) (fun _ => 0) pairedConfig fates
            h.prefs).2.result.ok = true ∧
          (queryCompanionSettings (fun _ _ => true) (fun _ => 0) pairedConfig fates
            h.prefs).2.settings.selectedPackage = ascii "org.game" := by
  have hfirst : (companionMachine (fun _ _ => true) fun _ => 0).RunIf (Successful fun _ _ => true)
      [syncOverWifi gameSelection] _ :=
    @Machine.RunIf.step _ _ _ _ [] _ _ _ (.init (Set.mem_univ pairedHeadset)) successful_game rfl
  have hsecond := hfirst.step (a := syncOverWifi {})
    ⟨by decide +kernel, by simp [IsName], by simp [IsName]⟩ rfl
  refine ⟨_, _, hsecond, rfl, by decide +kernel, by decide +kernel,
    { first := .answered 400 }, by decide +kernel, by decide +kernel⟩

end Example

end WKOpenVR.Quest
