/-
**The desktop's configuration behind the engine.**

Each synced key has a field of its own in the configuration. The adapter reads a relay value as
`json.Unmarshal` does, checks or filters it for some keys, and opens it with the account key for the
two sealed ones. Without an account key it passes a sealed value over.

* `PrefKey`, `Config`, `Desktop` — the fields of the synced keys, their stamps and the keyring;
* `applyPortableConfigValue`, `writeValue`, `readValue` — the adapter's code;
* `writeValue_error_iff` — which values the adapter refuses.
-/

import Atterm.Prefs.Relay

namespace Atterm.Prefs

open Atterm.Foundation
open Std (ExtTreeMap)

/-- A JSON value. A number is an integer literal or another one. -/
inductive Json where
  | null
  | bool (value : Bool)
  | int (value : ℤ)
  | decimal (value : ℚ)
  | string (value : String)
  | array (values : List Json)
  | object (fields : List (String × Json))

/-! ### Reading JSON -/

def unmarshalError : String := "json: cannot unmarshal"

/-- `json.Unmarshal` into a variable of a scalar type. A null leaves what is there. -/
def unmarshal {α : Type} (read : Json → Option α) (held : α) : Json → Except String α
  | .null => .ok held
  | value =>
    match read value with
    | some result => .ok result
    | none => .error unmarshalError

def Json.asString : Json → Option String
  | .string value => some value
  | _ => none

def Json.asBool : Json → Option Bool
  | .bool value => some value
  | _ => none

/-- An integer literal that fits 64 bits. -/
def Json.asInt : Json → Option ℤ
  | .int value => if -2 ^ 63 ≤ value ∧ value < 2 ^ 63 then some value else none
  | _ => none

/-- A number, rounded as `strconv.ParseFloat` does. -/
def Json.asFloat (float64 : ℚ → Option ℚ) : Json → Option ℚ
  | .int value => float64 value
  | .decimal value => float64 value
  | _ => none

/-- `json.Unmarshal` into a slice, which a null makes nil. -/
def unmarshalSlice {α : Type} (read : Json → Except String α) : Json → Except String (Option (List α))
  | .null => .ok none
  | .array values => (values.mapM read).map some
  | _ => .error unmarshalError

/-- A field of an object, by its name in any case. The last one counts. -/
def unmarshalField {α : Type} (name : String) (read : Json → Option α) (zero : α)
    (fields : List (String × Json)) : Except String α :=
  fields.foldlM
    (fun held field => if field.1.toLower = name then unmarshal read held field.2 else .ok held) zero

/-- `json.Unmarshal` into a map of strings, which a null makes nil. -/
def unmarshalMap : Json → Except String (Option (ExtTreeMap String String))
  | .null => .ok none
  | .object fields => (fields.foldlM (fun (held : ExtTreeMap String String) field =>
    (unmarshal Json.asString "" field.2).map fun text => held.insert field.1 text) ∅).map some
  | _ => .error unmarshalError

/-! ### The configuration -/

structure QuickTemplate where
  id : String := ""
  label : String := ""
  text : String := ""
  hotkey : String := ""
deriving DecidableEq, Repr

structure SSHHost where
  id : String
  aliasName : String
  host : String
  port : String
  user : String
  authKind : String
  keyId : String
deriving DecidableEq, Repr

structure SSHKey where
  id : String
  name : String
  keyType : String
deriving DecidableEq, Repr

structure SSHKeySecret where
  privateKey : String := ""
  passphrase : String := ""
deriving DecidableEq, Repr

structure SessionProfile where
  id : String
  name : String
  shell : String
  cwd : String
  startupCmd : String
  env : List (String × String)
  syncEnv : Bool
deriving DecidableEq, Repr

inductive PrefKey where
  | localePreference
  | trafficTimeZone
  | quickTemplates
  | notificationsEnabled
  | aiNotificationsOnly
  | commandNotifyThresholdSeconds
  | shellIntegrationEnabled
  | pinnedSessionIds
  | sshHostsEncrypted
  | terminalTheme
  | terminalFontHead
  | terminalFontSize
  | terminalLineHeight
  | terminalCursorStyle
  | terminalCursorBlink
  | terminalScrollback
  | shortcutBindings
  | profilesEncrypted
deriving DecidableEq, Repr

namespace PrefKey

def all : List PrefKey :=
  [localePreference, trafficTimeZone, quickTemplates, notificationsEnabled, aiNotificationsOnly,
    commandNotifyThresholdSeconds, shellIntegrationEnabled, pinnedSessionIds, sshHostsEncrypted,
    terminalTheme, terminalFontHead, terminalFontSize, terminalLineHeight, terminalCursorStyle,
    terminalCursorBlink, terminalScrollback, shortcutBindings, profilesEncrypted]

def name : PrefKey → String
  | localePreference => "locale_preference"
  | trafficTimeZone => "traffic_time_zone"
  | quickTemplates => "quick_templates"
  | notificationsEnabled => "notifications_enabled"
  | aiNotificationsOnly => "ai_notifications_only"
  | commandNotifyThresholdSeconds => "command_notify_threshold_seconds"
  | shellIntegrationEnabled => "shell_integration_enabled"
  | pinnedSessionIds => "pinned_session_ids"
  | sshHostsEncrypted => "ssh_hosts_encrypted"
  | terminalTheme => "terminal_theme"
  | terminalFontHead => "terminal_font_head"
  | terminalFontSize => "terminal_font_size"
  | terminalLineHeight => "terminal_line_height"
  | terminalCursorStyle => "terminal_cursor_style"
  | terminalCursorBlink => "terminal_cursor_blink"
  | terminalScrollback => "terminal_scrollback"
  | shortcutBindings => "shortcut_bindings"
  | profilesEncrypted => "profiles_encrypted"

def ofName? (name : String) : Option PrefKey := all.find? fun key => key.name = name

def Field : PrefKey → Type
  | localePreference | trafficTimeZone | terminalTheme | terminalFontHead | terminalCursorStyle =>
    String
  | quickTemplates => Option (List QuickTemplate)
  | notificationsEnabled | aiNotificationsOnly | shellIntegrationEnabled | terminalCursorBlink =>
    Option Bool
  | commandNotifyThresholdSeconds => Option ℤ
  | pinnedSessionIds => Option (List String)
  | sshHostsEncrypted => List SSHHost × List SSHKey
  | terminalFontSize | terminalScrollback => ℤ
  | terminalLineHeight => ℚ
  | shortcutBindings => Option (ExtTreeMap String String)
  | profilesEncrypted => List SessionProfile × String

theorem names : all.map name = syncedKeys := rfl

theorem mem_all (key : PrefKey) : key ∈ all := by cases key <;> decide

theorem name_injective : Function.Injective name := by
  intro first second same
  exact List.inj_on_of_nodup_map (names ▸ (by decide : syncedKeys.Nodup)) (mem_all first)
    (mem_all second) same

theorem ofName?_eq_some_iff {text : String} {key : PrefKey} :
    ofName? text = some key ↔ key.name = text := by
  constructor
  · intro found
    simpa using List.find?_some found
  · rintro rfl
    cases found : ofName? key.name with
    | none => exact absurd (decide_eq_true rfl) (List.find?_eq_none.mp found key (mem_all key))
    | some other =>
      have same : other.name = key.name := by simpa using List.find?_some found
      rw [name_injective same]

end PrefKey

abbrev Config := (key : PrefKey) → key.Field

/-- The hosts with their passwords, and the keys with their secrets. -/
structure SSHSyncPayload where
  hosts : List (SSHHost × String)
  keys : List (SSHKey × SSHKeySecret)
deriving DecidableEq, Repr

/-- The time zones, the rounding of numbers, and what seals a value under an account key. -/
structure Platform (K : Type) where
  loadsLocation : String → Bool
  float64 : ℚ → Option ℚ
  openSSHHosts : K → Json → Except String SSHSyncPayload
  openProfiles : K → Json → Except String (List SessionProfile × String)
  sealSSHHosts : K → ℕ → SSHSyncPayload → Option Json
  sealProfiles : K → ℕ → List SessionProfile → String → Option Json

/-- What a call finds: the unlocked account key, a nonce, and whether the keyring can be written. -/
structure Machine (K : Type) where
  accountKey : Option K
  nonce : ℕ := 0
  keyring : Bool := true

structure Desktop where
  config : Config
  prefsMeta : String → Meta
  sshCredential : String → String
  sshKeySecret : String → SSHKeySecret
  /-- The keys whose last row from the relay was passed over, for want of an account key. -/
  unopened : String → Bool

/-! ### Checks and filters -/

/-- `unicode.IsSpace`. -/
def isSpace (char : Char) : Bool :=
  char.toNat ∈ [0x09, 0x0A, 0x0B, 0x0C, 0x0D, 0x20, 0x85, 0xA0, 0x1680, 0x2028, 0x2029, 0x202F, 0x205F,
    0x3000] ∨ (0x2000 ≤ char.toNat ∧ char.toNat ≤ 0x200A)

/-- `strings.TrimSpace`. -/
def trimSpace (text : String) : List Char :=
  ((text.toList.dropWhile isSpace).reverse.dropWhile isSpace).reverse

def validTrafficTimeZone (loadsLocation : String → Bool) (zone : String) : Bool :=
  let zone := String.ofList (trimSpace zone)
  zone ≠ "" ∧ zone ≠ "Local" ∧ loadsLocation zone

def codeTokens : List String :=
  ["KeyA", "KeyB", "KeyC", "KeyD", "KeyE", "KeyF", "KeyG", "KeyH", "KeyI", "KeyJ", "KeyK", "KeyL", "KeyM",
    "KeyN", "KeyO", "KeyP", "KeyQ", "KeyR", "KeyS", "KeyT", "KeyU", "KeyV", "KeyW", "KeyX", "KeyY", "KeyZ",
    "Digit0", "Digit1", "Digit2", "Digit3", "Digit4", "Digit5", "Digit6", "Digit7", "Digit8", "Digit9",
    "ArrowLeft", "ArrowRight", "ArrowUp", "ArrowDown", "BracketLeft", "BracketRight", "Enter", "Minus",
    "Equal", "Backquote", "Comma", "Period", "Slash", "Semicolon", "Quote", "Backslash"]

def dropModifier (modifier : String) (text : List Char) : List Char :=
  if modifier.toList.isPrefixOf text then text.drop modifier.length else text

/-- The empty binding, or at least one modifier and a code. -/
def isValidShortcutBinding (binding : String) : Bool :=
  let text := binding.toList
  binding = "" ∨
    (("Mod+".toList.isPrefixOf text ∨ "Alt+".toList.isPrefixOf text ∨ "Shift+".toList.isPrefixOf text) ∧
      String.ofList (dropModifier "Shift+" (dropModifier "Alt+" (dropModifier "Mod+" text))) ∈ codeTokens)

/-- The entries of an inbound binding map that the setter would take. -/
def filterBindings (bindings : ExtTreeMap String String) : ExtTreeMap String String :=
  bindings.filter fun actionID binding => actionID ≠ "" ∧ isValidShortcutBinding binding

/-- Profiles with an id of their own and a name, in order. -/
def filterValidProfiles (profiles : List SessionProfile) : List SessionProfile :=
  (profiles.foldl (fun (kept : List (List Char) × List SessionProfile) profile =>
    let id := trimSpace profile.id
    if id = [] ∨ trimSpace profile.name = [] ∨ id ∈ kept.1 then kept
    else (id :: kept.1, kept.2 ++ [profile])) ([], [])).2

/-- An inbound profile without an environment keeps the one this machine has. The last local profile
of an id counts. -/
def mergeProfiles (held incoming : List SessionProfile) : List SessionProfile :=
  incoming.map fun profile =>
    if profile.env = [] then
      match held.reverse.find? fun other => other.id = profile.id with
      | some other => { profile with env := other.env }
      | none => profile
    else profile

def resolveDefaultProfileID (id : String) (profiles : List SessionProfile) : String :=
  if id = "" then "" else if profiles.any fun profile => profile.id = id then id else ""

def stripUnsyncedEnv (profiles : List SessionProfile) : List SessionProfile :=
  profiles.map fun profile => if profile.syncEnv then profile else { profile with env := [] }

/-! ### The adapter -/

section Adapter

variable {K : Type} (P : Platform K)

/-- The elements of a slice are read into zero values. -/
def readTemplate : Json → Except String QuickTemplate
  | .null => .ok {}
  | .object fields => do
      let id ← unmarshalField "id" Json.asString "" fields
      let label ← unmarshalField "label" Json.asString "" fields
      let text ← unmarshalField "text" Json.asString "" fields
      let hotkey ← unmarshalField "hotkey" Json.asString "" fields
      return ⟨id, label, text, hotkey⟩
  | _ => .error unmarshalError

/-- The field a relay value of an unsealed key leads to. -/
def applyPortableConfigValue : (key : PrefKey) → key.Field → Json → Except String key.Field
  | .localePreference, held, value => unmarshal Json.asString held value
  | .trafficTimeZone, _, value => do
      let zone ← unmarshal Json.asString "" value
      if ¬ validTrafficTimeZone P.loadsLocation zone then
        .error ("invalid traffic time zone " ++ zone.quote)
      else .ok zone
  | .quickTemplates, _, value => unmarshalSlice readTemplate value
  | .notificationsEnabled, _, value => (unmarshal Json.asBool false value).map some
  | .aiNotificationsOnly, _, value => (unmarshal Json.asBool false value).map some
  | .commandNotifyThresholdSeconds, _, value => (unmarshal Json.asInt 0 value).map some
  | .shellIntegrationEnabled, _, value => (unmarshal Json.asBool false value).map some
  | .pinnedSessionIds, _, value => unmarshalSlice (unmarshal Json.asString "") value
  | .terminalTheme, held, value => unmarshal Json.asString held value
  | .terminalFontHead, held, value => unmarshal Json.asString held value
  | .terminalFontSize, held, value => unmarshal Json.asInt held value
  | .terminalLineHeight, held, value => unmarshal (Json.asFloat P.float64) held value
  | .terminalCursorStyle, held, value => unmarshal Json.asString held value
  | .terminalCursorBlink, _, value => unmarshal (fun value => value.asBool.map some) none value
  | .terminalScrollback, held, value => unmarshal Json.asInt held value
  | .shortcutBindings, _, value => (unmarshalMap value).map fun bindings =>
    some (filterBindings (bindings.getD ∅))
  -- The caller takes the sealed keys apart.
  | .sshHostsEncrypted, _, _ => .error "unknown key ssh_hosts_encrypted"
  | .profilesEncrypted, _, _ => .error "unknown key profiles_encrypted"

/-- Save each value under its id, the last one for an id. An empty id has no slot. -/
def saveSlots {α : Type} (held : String → α) (values : List (String × α)) : String → α :=
  values.foldl (fun held entry => if entry.1 = "" then held
    else Function.update held entry.1 entry.2) held

def Desktop.storeHosts (state : Desktop) (payload : SSHSyncPayload) : Desktop :=
  { state with
    sshCredential := saveSlots state.sshCredential
      (payload.hosts.map fun entry => (entry.1.id, entry.2))
    sshKeySecret := saveSlots state.sshKeySecret
      (payload.keys.map fun entry => (entry.1.id, entry.2))
    config := Function.update state.config .sshHostsEncrypted
      (payload.hosts.map Prod.fst, payload.keys.map Prod.fst)
    unopened := Function.update state.unopened (PrefKey.name .sshHostsEncrypted) false }

def Desktop.storeProfiles (state : Desktop) (incoming : List SessionProfile) (defaultID : String) :
    Desktop :=
  let profiles := mergeProfiles (state.config .profilesEncrypted).1 (filterValidProfiles incoming)
  { state with
    config := Function.update state.config .profilesEncrypted
      (profiles, resolveDefaultProfileID defaultID profiles)
    unopened := Function.update state.unopened (PrefKey.name .profilesEncrypted) false }

theorem storeHosts_config (state : Desktop) (payload : SSHSyncPayload) :
    (state.storeHosts payload).config .sshHostsEncrypted
      = (payload.hosts.map Prod.fst, payload.keys.map Prod.fst) := rfl

theorem storeProfiles_config (state : Desktop) (incoming : List SessionProfile)
    (defaultID : String) : (state.storeProfiles incoming defaultID).config .profilesEncrypted
      = (mergeProfiles (state.config .profilesEncrypted).1 (filterValidProfiles incoming),
        resolveDefaultProfileID defaultID (mergeProfiles (state.config .profilesEncrypted).1
          (filterValidProfiles incoming))) := rfl

/-- What the adapter does with a sealed value. Without an account key nothing is stored, and the
engine is told that all went well. -/
def writeSealed (machine : Machine K) (state : Desktop) (name : String)
    (store : K → Except String Desktop) : Option String × Desktop :=
  match machine.accountKey with
  | none => (none, { state with unopened := Function.update state.unopened name true })
  | some accountKey =>
    match store accountKey with
    | .error error => (some error, state)
    | .ok state => (none, state)

def writeValue (machine : Machine K) (state : Desktop) (name : String) (value : Json) :
    Option String × Desktop :=
  match PrefKey.ofName? name with
  | none => (some ("unknown key " ++ name), state)
  | some .sshHostsEncrypted =>
    writeSealed machine state name fun accountKey => do
      let payload ← P.openSSHHosts accountKey value
      if ¬ machine.keyring then .error "keychain set"
      else .ok (state.storeHosts payload)
  | some .profilesEncrypted =>
    writeSealed machine state name fun accountKey => do
      let (incoming, defaultID) ← P.openProfiles accountKey value
      return state.storeProfiles incoming defaultID
  | some key =>
    match applyPortableConfigValue P key (state.config key) value with
    | .error error => (some error, state)
    | .ok field => (none, { state with config := Function.update state.config key field })

def writeMeta (state : Desktop) (name : String) (stamp : Meta) : Option String × Desktop :=
  (none, { state with prefsMeta := Function.update state.prefsMeta name stamp })

/-! ### Writing JSON -/

def marshalTemplate (template : QuickTemplate) : Json :=
  .object ([("id", .string template.id), ("label", .string template.label),
    ("text", .string template.text)] ++
      if template.hotkey = "" then [] else [("hotkey", .string template.hotkey)])

def marshalSlice {α : Type} (write : α → Json) : Option (List α) → Json
  | none => .null
  | some values => .array (values.map write)

def marshalField : (key : PrefKey) → key.Field → Option Json
  | .localePreference, (held : String) => some (.string held)
  | .trafficTimeZone, (held : String) => if held = "" then none else some (.string held)
  | .quickTemplates, held => some (marshalSlice marshalTemplate held)
  | .notificationsEnabled, (held : Option Bool) => held.map .bool
  | .aiNotificationsOnly, (held : Option Bool) => held.map .bool
  | .commandNotifyThresholdSeconds, (held : Option ℤ) => held.map .int
  | .shellIntegrationEnabled, (held : Option Bool) => held.map .bool
  | .pinnedSessionIds, held => some (marshalSlice .string held)
  | .terminalTheme, (held : String) => some (.string held)
  | .terminalFontHead, (held : String) => some (.string held)
  | .terminalFontSize, (held : ℤ) => some (.int held)
  | .terminalLineHeight, (held : ℚ) => some (.decimal held)
  | .terminalCursorStyle, (held : String) => some (.string held)
  | .terminalCursorBlink, (held : Option Bool) => held.map .bool
  | .terminalScrollback, (held : ℤ) => some (.int held)
  | .shortcutBindings, none => some .null
  | .shortcutBindings, some (held : ExtTreeMap String String) =>
    some (.object (held.toList.map fun entry => (entry.1, .string entry.2)))
  | .sshHostsEncrypted, _ => none
  | .profilesEncrypted, _ => none

def readValue (machine : Machine K) (state : Desktop) (name : String) : Option Json :=
  match PrefKey.ofName? name with
  | none => none
  | some .sshHostsEncrypted =>
    machine.accountKey.bind fun accountKey =>
      P.sealSSHHosts accountKey machine.nonce
        ⟨(state.config .sshHostsEncrypted).1.map fun host => (host, state.sshCredential host.id),
          (state.config .sshHostsEncrypted).2.map fun key => (key, state.sshKeySecret key.id)⟩
  | some .profilesEncrypted =>
    machine.accountKey.bind fun accountKey =>
      P.sealProfiles accountKey machine.nonce
        (stripUnsyncedEnv (state.config .profilesEncrypted).1) (state.config .profilesEncrypted).2
  | some key => marshalField key (state.config key)

def desktopAdapter (machine : Machine K) : Adapter Desktop Json where
  readValue := readValue P machine
  writeValue := writeValue P machine
  readMeta := fun state key => state.prefsMeta key
  writeMeta := writeMeta
  keys := sortedKeys

/-! ### What the adapter refuses -/

def PrefKey.zero : (key : PrefKey) → key.Field
  | .localePreference | .trafficTimeZone | .terminalTheme | .terminalFontHead
  | .terminalCursorStyle => ("" : String)
  | .quickTemplates => (none : Option (List QuickTemplate))
  | .notificationsEnabled | .aiNotificationsOnly | .shellIntegrationEnabled
  | .terminalCursorBlink => (none : Option Bool)
  | .commandNotifyThresholdSeconds => (none : Option ℤ)
  | .pinnedSessionIds => (none : Option (List String))
  | .sshHostsEncrypted => (([], []) : List SSHHost × List SSHKey)
  | .terminalFontSize | .terminalScrollback => (0 : ℤ)
  | .terminalLineHeight => (0 : ℚ)
  | .shortcutBindings => (none : Option (ExtTreeMap String String compare))
  | .profilesEncrypted => (([], "") : List SessionProfile × String)

/-- A machine on which nothing was ever set. -/
def Desktop.fresh : Desktop := ⟨PrefKey.zero, fun _ => {}, fun _ => "", fun _ => {}, fun _ => false⟩

/-- The client can apply a row: it knows the key and can read the value. A sealed value counts if
there is no account key. -/
def applicable (machine : Machine K) (name : String) (value : Json) : Bool :=
  match PrefKey.ofName? name with
  | none => false
  | some .sshHostsEncrypted =>
    machine.accountKey.all fun accountKey =>
      (P.openSSHHosts accountKey value).isOk && machine.keyring
  | some .profilesEncrypted =>
    machine.accountKey.all fun accountKey => (P.openProfiles accountKey value).isOk
  | some key => (applyPortableConfigValue P key key.zero value).isOk

theorem unmarshal_isOk {α : Type} (read : Json → Option α) (first second : α) (value : Json) :
    (unmarshal read first value).isOk = (unmarshal read second value).isOk := by
  cases value with
  | null => rfl
  | _ => rfl

theorem applyPortableConfigValue_isOk (key : PrefKey) (first second : key.Field) (value : Json) :
    (applyPortableConfigValue P key first value).isOk
      = (applyPortableConfigValue P key second value).isOk := by
  cases key with
  | localePreference | terminalTheme | terminalFontHead | terminalCursorStyle | terminalFontSize
  | terminalLineHeight | terminalScrollback => exact unmarshal_isOk _ first second value
  | _ => rfl

variable {P}

/-- **The adapter refuses exactly what it cannot apply.** -/
theorem writeValue_error_iff (machine : Machine K) (state : Desktop) (name : String) (value : Json) :
    (writeValue P machine state name value).1 = none ↔ applicable P machine name value := by
  have sealed : ∀ store : K → Except String Desktop,
      (writeSealed machine state name store).1 = none ↔
        machine.accountKey.all fun accountKey => (store accountKey).isOk := by
    intro store
    unfold writeSealed
    cases machine.accountKey with
    | none => exact iff_of_true rfl rfl
    | some accountKey =>
      show (match store accountKey with
        | .error error => (some error, state)
        | .ok state => (none, state)).1 = none ↔ (store accountKey).isOk
      cases store accountKey with
      | error error => exact iff_of_false (Option.some_ne_none error) Bool.false_ne_true
      | ok after => exact iff_of_true rfl rfl
  unfold writeValue applicable
  cases known : PrefKey.ofName? name with
  | none => exact iff_of_false (Option.some_ne_none _) Bool.false_ne_true
  | some key =>
    have portable : ((match applyPortableConfigValue P key (state.config key) value with
        | .error error => (some error, state)
        | .ok field =>
          (none, { state with config := Function.update state.config key field })).1 = none) ↔
        (applyPortableConfigValue P key key.zero value).isOk := by
      rw [← applyPortableConfigValue_isOk P key (state.config key)]
      cases applyPortableConfigValue P key (state.config key) value with
      | error error => exact iff_of_false (Option.some_ne_none error) Bool.false_ne_true
      | ok field => exact iff_of_true rfl rfl
    cases key with
    | sshHostsEncrypted =>
      refine (sealed _).trans (Eq.to_iff ?_)
      congr 2
      funext accountKey
      cases P.openSSHHosts accountKey value with
      | error error => rfl
      | ok payload =>
        show (if ¬ machine.keyring then _ else _ : Except String Desktop).isOk = machine.keyring
        cases machine.keyring with
        | false => rfl
        | true => rfl
    | profilesEncrypted =>
      refine (sealed _).trans (Eq.to_iff ?_)
      congr 2
      funext accountKey
      cases P.openProfiles accountKey value with
      | error error => rfl
      | ok opened => rfl
    | _ => exact portable

/-- **What a write does**: it refuses, passes a sealed value over, or stores. -/
theorem writeValue_cases (machine : Machine K) (state : Desktop) (name : String) (value : Json) :
    (∃ error, writeValue P machine state name value = (some error, state)) ∨
    (machine.accountKey = none ∧ writeValue P machine state name value =
      (none, { state with unopened := Function.update state.unopened name true })) ∨
    (∃ key : PrefKey, key.name = name ∧ key ≠ .sshHostsEncrypted ∧ key ≠ .profilesEncrypted ∧
      ∃ field, applyPortableConfigValue P key (state.config key) value = .ok field ∧
        writeValue P machine state name value =
          (none, { state with config := Function.update state.config key field })) ∨
    (name = PrefKey.name .sshHostsEncrypted ∧ ∃ accountKey payload,
      P.openSSHHosts accountKey value = .ok payload ∧
        writeValue P machine state name value = (none, state.storeHosts payload)) ∨
    (name = PrefKey.name .profilesEncrypted ∧ ∃ accountKey incoming defaultID,
      P.openProfiles accountKey value = .ok (incoming, defaultID) ∧
        writeValue P machine state name value
          = (none, state.storeProfiles incoming defaultID)) := by
  unfold writeValue
  cases known : PrefKey.ofName? name with
  | none => exact .inl ⟨_, rfl⟩
  | some key =>
    have named := PrefKey.ofName?_eq_some_iff.mp known
    by_cases hosts : key = .sshHostsEncrypted
    · subst hosts
      unfold writeSealed
      cases unlocked : machine.accountKey with
      | none => exact .inr (.inl ⟨rfl, rfl⟩)
      | some accountKey =>
        cases opened : P.openSSHHosts accountKey value with
        | error error => exact .inl ⟨error, by simp only [opened]; rfl⟩
        | ok payload =>
          cases machine.keyring with
          | false => exact .inl ⟨"keychain set", by simp only [opened]; rfl⟩
          | true =>
            refine .inr (.inr (.inr (.inl ⟨named.symm, accountKey, payload, opened, ?_⟩)))
            simp only [opened]
            rfl
    · by_cases profiles : key = .profilesEncrypted
      · subst profiles
        unfold writeSealed
        cases unlocked : machine.accountKey with
        | none => exact .inr (.inl ⟨rfl, rfl⟩)
        | some accountKey =>
          cases opened : P.openProfiles accountKey value with
          | error error => exact .inl ⟨error, by simp only [opened]; rfl⟩
          | ok result =>
            refine .inr (.inr (.inr (.inr ⟨named.symm, accountKey, result.1, result.2, opened, ?_⟩)))
            simp only [opened]
            rfl
      · have portable : writeValue P machine state name value =
            match applyPortableConfigValue P key (state.config key) value with
            | .error error => (some error, state)
            | .ok field =>
              (none, { state with config := Function.update state.config key field }) := by
          unfold writeValue
          rw [known]
          cases key with
          | sshHostsEncrypted => exact absurd rfl hosts
          | profilesEncrypted => exact absurd rfl profiles
          | _ => rfl
        unfold writeValue at portable
        rw [known] at portable
        cases applied : applyPortableConfigValue P key (state.config key) value with
        | error error =>
          rw [applied] at portable
          exact .inl ⟨error, portable⟩
        | ok field =>
          rw [applied] at portable
          exact .inr (.inr (.inl ⟨key, named, hosts, profiles, field, applied, portable⟩))

@[simp] theorem writeValue_prefsMeta (machine : Machine K) (state : Desktop) (name : String)
    (value : Json) : (writeValue P machine state name value).2.prefsMeta = state.prefsMeta := by
  rcases writeValue_cases (P := P) machine state name value with ⟨_, same⟩ | ⟨_, same⟩ |
    ⟨_, _, _, _, _, _, same⟩ | ⟨_, _, _, _, same⟩ | ⟨_, _, _, _, _, same⟩
  all_goals rw [same]
  · rfl
  · rfl

end Adapter

end Atterm.Prefs
