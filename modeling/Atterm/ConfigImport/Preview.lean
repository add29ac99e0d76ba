/-
**What an import would do.**

The preview goes over the file key by key. An entry is compared with the record of its id, a profile after
its environment has been filled in from the record where the file leaves it out. Nothing is said of records
that the file does not list.

* `Machine` — what the app calls for: reading a value, the other preferences, writing, the keyring;
* `previewSSHHosts`, `previewProfiles`, `PreviewConfigImport` — the code.
-/

import Atterm.ConfigImport.Payload
import Atterm.Foundation.Keyed
import Atterm.Prefs.Desktop

namespace Atterm.ConfigImport

open Atterm.Foundation
open Atterm.Hosts (SSHHost)
open Std (ExtTreeMap)

/-! ### Changes -/

inductive ChangeAction where
  | add
  | replace
  | unchanged
deriving DecidableEq, Repr

inductive ChangeKey where
  | sshHost (id : String)
  | sshKey (id : String)
  | profile (id : String)
  | defaultProfileID
  | setting (key : String)
deriving DecidableEq, Repr

def ChangeKey.text : ChangeKey → String
  | sshHost id => "ssh_host:" ++ id
  | sshKey id => "ssh_key:" ++ id
  | profile id => "profile:" ++ id
  | defaultProfileID => "profiles:default_profile_id"
  | setting key => key

structure ImportChange where
  key : ChangeKey
  action : ChangeAction
  detail : String
deriving DecidableEq, Repr

structure ImportPreview where
  changes : List ImportChange
  skipped : List String

/-! ### What the app calls for -/

inductive Write where
  | sshHosts
  | profiles
  | defaultProfileID
  | setting (key : String)
deriving DecidableEq, Repr

/-- What the import calls: the verb `%q`, `json.Unmarshal`, the preferences with one value each, the writes
of the configuration file and the keyring. The last two say why a write or a clear fails. -/
structure Machine (J S : Type) where
  quote : String → String
  readSSHHosts : J → Except String SSHHostsExportPayload
  readProfiles : J → Except String ProfilesExportPayload
  previewScalarPref : S → String → J → Except String ChangeAction
  applyScalarPref : S → String → J → Except String S
  writeError : Write → Option String
  clearError : String → Option String

/-! ### Hosts and keys -/

/-- The rule for an entry of a list, from the record of its id. -/
def listAction {α : Type} [DecidableEq α] (existing : Option α) (incoming : α) : ChangeAction :=
  match existing with
  | none => .add
  | some held => if held = incoming then .unchanged else .replace

theorem listAction_eq_unchanged_iff {α : Type} [DecidableEq α] (existing : Option α) (incoming : α) :
    listAction existing incoming = .unchanged ↔ existing = some incoming := by
  cases existing with
  | none => simp [listAction]
  | some held => by_cases same : held = incoming <;> simp [listAction, same]

def hostDetail (h : SSHHost) : String :=
  let target := h.user ++ "@" ++ h.host ++ (if h.port ≠ "" then ":" ++ h.port else "")
  if h.alias ≠ "" then h.alias ++ " (" ++ target ++ ")" else target

def hostTargetChanged (old incoming : SSHHost) : Bool :=
  old.host ≠ incoming.host || old.port ≠ incoming.port || old.user ≠ incoming.user

section Preview

variable {J S : Type} (machine : Machine J S) (cfg : AppConfig S)

def previewHost (h : SSHHost) : ImportChange where
  key := .sshHost h.id
  action := listAction (lastWith SSHHost.id h.id cfg.sshHosts) h
  detail := hostDetail h

def previewKey (k : SSHKey) : ImportChange where
  key := .sshKey k.id
  action := listAction (lastWith SSHKey.id k.id cfg.sshKeys) k
  detail := k.name

def previewSSHHosts (raw : J) : List ImportChange × List String :=
  match machine.readSSHHosts raw with
  | .error err => ([], ["ssh_hosts: " ++ err])
  | .ok payload =>
    let (hosts, keys, skipped) := validateSSHHostsPayload machine.quote payload
    (hosts.map (previewHost cfg) ++ keys.map (previewKey cfg), skipped)

/-! ### Profiles -/

/-- The entry with the environment of the record, where it has none and does not share one. -/
def profileMergeCandidate (existing incoming : SessionProfile) : SessionProfile :=
  if incoming.noEnv && !incoming.syncEnv then { incoming with env := existing.env } else incoming

def profileDiffFields (existing merged : SessionProfile) : List String :=
  (if existing.name ≠ merged.name then ["name"] else []) ++
    (if existing.shell ≠ merged.shell then ["shell"] else []) ++
    (if existing.cwd ≠ merged.cwd then ["cwd"] else []) ++
    (if existing.startupCmd ≠ merged.startupCmd then ["startup_cmd"] else []) ++
    (if existing.syncEnv ≠ merged.syncEnv then ["sync_env"] else []) ++
    (if existing.env ≠ merged.env then ["env"] else [])

def previewProfile (p : SessionProfile) : ImportChange :=
  match lastWith SessionProfile.id p.id cfg.profiles with
  | none => ⟨.profile p.id, .add, p.name⟩
  | some existing =>
    let merged := profileMergeCandidate existing p
    if existing = merged then ⟨.profile p.id, .unchanged, p.name⟩
    else ⟨.profile p.id, .replace, ", ".intercalate (profileDiffFields existing merged)⟩

def previewDefaultProfileID (defaultProfileID : String) : List ImportChange :=
  if defaultProfileID = "" then []
  else
    let action : ChangeAction :=
      if cfg.defaultProfileID = "" then .add
      else if cfg.defaultProfileID ≠ defaultProfileID then .replace
      else .unchanged
    [⟨.defaultProfileID, action, defaultProfileID⟩]

def previewProfiles (raw : J) : List ImportChange × List String :=
  match machine.readProfiles raw with
  | .error err => ([], ["profiles: " ++ err])
  | .ok payload =>
    let (profiles, defaultProfileID, skipped) := validateProfilesPayload machine.quote payload
    (profiles.map (previewProfile cfg) ++ previewDefaultProfileID cfg defaultProfileID, skipped)

/-! ### The file -/

/-- The synced keys with a value each: all but the two sealed ones. -/
def settingKeys : List String :=
  (Prefs.PrefKey.all.filter fun key => key ≠ .sshHostsEncrypted ∧ key ≠ .profilesEncrypted).map
    Prefs.PrefKey.name

/-- The keys of a file. What is sealed elsewhere has a name of its own in a file. -/
def knownImportKeys : List String := ["ssh_hosts", "profiles"] ++ settingKeys

def previewPreference (key : String) (raw : J) : List ImportChange × List String :=
  if key ∉ knownImportKeys then ([], [key ++ ": unknown preference key"])
  else if key = "ssh_hosts" then previewSSHHosts machine cfg raw
  else if key = "profiles" then previewProfiles machine cfg raw
  else
    match machine.previewScalarPref cfg.settings key raw with
    | .error err => ([], [key ++ ": " ++ err])
    | .ok action => ([⟨.setting key, action, ""⟩], [])

def previewChanges (file : ConfigExport J) : List ImportChange :=
  file.preferences.toList.flatMap fun entry => (previewPreference machine cfg entry.1 entry.2).1

def previewSkips (file : ConfigExport J) : List String :=
  file.preferences.toList.flatMap fun entry => (previewPreference machine cfg entry.1 entry.2).2

def PreviewConfigImport (parsed : Except String (ConfigExport J)) : Except String ImportPreview :=
  match parsed with
  | .error err => .error ("parse config export: " ++ err)
  | .ok file =>
    if file.version ≠ configExportVersion then
      .error ("unsupported config export version " ++ toString file.version ++ " (this build reads version " ++
        toString configExportVersion ++ ")")
    else .ok ⟨previewChanges machine cfg file, previewSkips machine cfg file⟩

end Preview

end Atterm.ConfigImport
