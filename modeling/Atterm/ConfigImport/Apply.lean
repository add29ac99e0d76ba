/-
**The import.**

What the preview reports as added or replaced is written: the hosts and keys in one write, then the profiles
in one, then the other preferences one by one. The configuration in memory is replaced even where the write
fails, and a failed write of the hosts ends the import.

* `applySSHHostsImport`, `applyProfilesImport`, `ApplyConfigImport` — the code;
* `mergeProfiles`, `resolveDefaultProfileID`, `SetProfiles` — what the profiles go through;
-/

import Atterm.ConfigImport.Preview

namespace Atterm.ConfigImport

open Atterm.Foundation
open Atterm.Hosts (SSHHost)
open Std (ExtTreeMap)

/-- The app: its configuration in memory, and the credentials in the keyring, by host id. -/
structure App (S C : Type) where
  config : AppConfig S
  credentials : String → Option C

structure ImportReport where
  applied : List ImportChange
  skipped : List String

def actionable (changes : List ImportChange) (key : ChangeKey) : Bool :=
  changes.any fun c => c.key = key && c.action ≠ .unchanged

section Apply

variable {J S C : Type} (machine : Machine J S)

/-! ### Hosts and keys -/

/-- The hosts, and the credentials to clear and the keys written so far. -/
structure HostsImport where
  hosts : List SSHHost
  credentialsToClear : List String
  applied : List ChangeKey

def importHost (act : ChangeKey → Bool) (held : HostsImport) (h : SSHHost) : HostsImport :=
  if act (.sshHost h.id) then
    { hosts := put SSHHost.id held.hosts h
      credentialsToClear :=
        match lastWith SSHHost.id h.id held.hosts with
        | some old =>
          if hostTargetChanged old h then held.credentialsToClear ++ [h.id] else held.credentialsToClear
        | none => held.credentialsToClear
      applied := held.applied ++ [.sshHost h.id] }
  else held

def importKey (act : ChangeKey → Bool) (held : List SSHKey × List ChangeKey) (k : SSHKey) :
    List SSHKey × List ChangeKey :=
  if act (.sshKey k.id) then (put SSHKey.id held.1 k, held.2 ++ [.sshKey k.id]) else held

/-- The credentials behind a clear, and what is said of the clears that failed. -/
def clearCredential (held : (String → Option C) × List String) (id : String) :
    (String → Option C) × List String :=
  match machine.clearError id with
  | none => (Function.update held.1 id none, held.2)
  | some err =>
    (held.1, held.2 ++ ["ssh_hosts: could not clear the stored credential for host id=" ++ id ++
      " after its address changed — it is still attached to the new address: " ++ err])

def clearCredentials (credentials : String → Option C) (ids : List String) :
    (String → Option C) × List String :=
  ids.foldl (clearCredential machine) (credentials, [])

def applySSHHostsImport (raw : J) (act : ChangeKey → Bool) (app : App S C) :
    App S C × Except String (List ChangeKey × List String) :=
  match machine.readSSHHosts raw with
  | .error _ => (app, .ok ([], []))
  | .ok payload =>
    let (hosts, keys, _) := validateSSHHostsPayload machine.quote payload
    let imported := hosts.foldl (importHost act) ⟨app.config.sshHosts, [], []⟩
    let (sshKeys, applied) := keys.foldl (importKey act) (app.config.sshKeys, imported.applied)
    if applied = [] then (app, .ok ([], []))
    else
      let stored : App S C :=
        { app with config := { app.config with sshHosts := imported.hosts, sshKeys := sshKeys } }
      match machine.writeError .sshHosts with
      | some err => (stored, .error err)
      | none =>
        let (credentials, skipped) :=
          clearCredentials machine stored.credentials imported.credentialsToClear
        ({ stored with credentials := credentials }, .ok (applied, skipped))

/-! ### Profiles -/

def resolveDefaultProfileID (id : String) (profiles : List SessionProfile) : String :=
  if id = "" then "" else if profiles.any fun p => p.id = id then id else ""

/-- An incoming profile without an environment keeps the one that is held. -/
def mergeProfile (held : List SessionProfile) (incoming : SessionProfile) : SessionProfile :=
  if incoming.noEnv then
    match lastWith SessionProfile.id incoming.id held with
    | some l => if l.noEnv then incoming else { incoming with env := l.env }
    | none => incoming
  else incoming

def mergeProfiles (held incoming : List SessionProfile) : List SessionProfile :=
  incoming.map (mergeProfile held)

/-- What `SetProfiles` says against a list of profiles. -/
def checkProfiles (quote : String → String) : List String → List SessionProfile → Option String
  | _, [] => none
  | seen, p :: rest =>
    let id := trim p.id
    if id = "" then some "profiles: id must be non-empty"
    else if id ∈ seen then some ("profiles: duplicate id " ++ quote id)
    else if trim p.name = "" then some ("profiles[" ++ quote id ++ "]: name must be non-empty")
    else checkProfiles quote (id :: seen) rest

def SetProfiles (profiles : List SessionProfile) (app : App S C) : App S C × Option String :=
  match checkProfiles machine.quote [] profiles with
  | some err => (app, some err)
  | none =>
    ({ app with config := { app.config with
        profiles := profiles
        defaultProfileID := resolveDefaultProfileID app.config.defaultProfileID profiles } },
      machine.writeError .profiles)

def SetDefaultProfileID (id : String) (app : App S C) : App S C × Option String :=
  ({ app with config := { app.config with defaultProfileID := id } }, machine.writeError .defaultProfileID)

/-- Whether an environment is shared goes with the environment: where the one held is kept, so is that. -/
def pinSyncEnv (held : List SessionProfile) (p : SessionProfile) : SessionProfile :=
  if p.noEnv then
    match lastWith SessionProfile.id p.id held with
    | some l => if l.noEnv then p else { p with syncEnv := l.syncEnv }
    | none => p
  else p

/-- The profiles of the file, and those held that it does not list. -/
def incomingProfiles (held fileProfiles : List SessionProfile) : List SessionProfile :=
  fileProfiles.map (pinSyncEnv held) ++
    held.filter fun l => !fileProfiles.any fun p => p.id = l.id

def importedProfiles (held fileProfiles : List SessionProfile) : List SessionProfile :=
  mergeProfiles held (incomingProfiles held fileProfiles)

def applyDefaultProfileID (defaultProfileID : String) (merged : List SessionProfile)
    (applied : List ChangeKey) (app : App S C) : App S C × Except String (List ChangeKey × List String) :=
  let resolved := resolveDefaultProfileID defaultProfileID merged
  if resolved = "" then
    (app, .ok (applied, ["profiles:default_profile_id: " ++ machine.quote defaultProfileID ++
      " not present in the merged profile list, local default kept"]))
  else
    match SetDefaultProfileID machine resolved app with
    | (app, some err) => (app, .error ("apply default profile id: " ++ err))
    | (app, none) => (app, .ok (applied ++ [.defaultProfileID], []))

def applyProfilesImport (raw : J) (act : ChangeKey → Bool) (app : App S C) :
    App S C × Except String (List ChangeKey × List String) :=
  match machine.readProfiles raw with
  | .error _ => (app, .ok ([], []))
  | .ok payload =>
    let (fileProfiles, defaultProfileID, _) := validateProfilesPayload machine.quote payload
    let applied := (fileProfiles.map fun p => ChangeKey.profile p.id).filter act
    let hasDefaultChange := act .defaultProfileID
    if applied = [] ∧ hasDefaultChange = false then (app, .ok ([], []))
    else
      let merged := importedProfiles app.config.profiles fileProfiles
      match SetProfiles machine merged app with
      | (app, some err) => (app, .error ("apply profiles: " ++ err))
      | (app, none) =>
        if hasDefaultChange then applyDefaultProfileID machine defaultProfileID merged applied app
        else (app, .ok (applied, []))

/-! ### The whole import -/

def ChangeKey.ofSSH : ChangeKey → Bool
  | .sshHost _ => true
  | .sshKey _ => true
  | _ => false

def ChangeKey.ofProfiles : ChangeKey → Bool
  | .profile _ => true
  | .defaultProfileID => true
  | _ => false

/-- The part of the import that writes the value of one key, where anything of it is to be written. -/
def importPart (file : ConfigExport J) (key : String) (needed : Bool)
    (apply : J → App S C → App S C × Except String (List ChangeKey × List String)) (app : App S C) :
    App S C × Except String (List ChangeKey × List String) :=
  if needed then
    match file.preferences[key]? with
    | some raw => apply raw app
    | none => (app, .ok ([], []))
  else (app, .ok ([], []))

def applySetting (file : ConfigExport J) (c : ImportChange) (key : String) (held : AppConfig S × ImportReport) :
    AppConfig S × ImportReport :=
  match file.preferences[key]? with
  | none => held
  | some raw =>
    match machine.applyScalarPref held.1.settings key raw with
    | .error err => (held.1, { held.2 with skipped := held.2.skipped ++ [key ++ ": " ++ err] })
    | .ok settings =>
      ({ held.1 with settings := settings },
        match machine.writeError (.setting key) with
        | some err => { held.2 with skipped := held.2.skipped ++ [key ++ ": " ++ err] }
        | none => { held.2 with applied := held.2.applied ++ [c] })

/-- What is reported of a change; a change of one of the other preferences is made here. -/
def reportChange (file : ConfigExport J) (applied explicitSkips : List ChangeKey)
    (held : AppConfig S × ImportReport) (c : ImportChange) : AppConfig S × ImportReport :=
  if c.action = .unchanged then held
  else
    match c.key with
    | .setting key => applySetting machine file c key held
    | key =>
      if key ∈ applied then (held.1, { held.2 with applied := held.2.applied ++ [c] })
      else if key ∈ explicitSkips then held
      else (held.1, { held.2 with skipped := held.2.skipped ++ [key.text ++ ": not applied"] })

/-- The skips that are said of the default profile. -/
def explicitSkips (skipped : List String) : List ChangeKey :=
  if skipped.any fun s => "profiles:default_profile_id:".toList.isPrefixOf s.toList then [.defaultProfileID]
  else []

/-- The import of a previewed file: what is behind it, the report and the error. -/
def applyPreview (file : ConfigExport J) (preview : ImportPreview) (app : App S C) :
    App S C × ImportReport × Option String :=
  let act := actionable preview.changes
  let needed := fun (ofPart : ChangeKey → Bool) =>
    preview.changes.any fun c => ofPart c.key && c.action ≠ .unchanged
  match importPart file "ssh_hosts" (needed ChangeKey.ofSSH) (applySSHHostsImport machine · act) app with
  | (app, .error err) => (app, ⟨[], preview.skipped⟩, some err)
  | (app, .ok (sshApplied, sshSkips)) =>
    match importPart file "profiles" (needed ChangeKey.ofProfiles) (applyProfilesImport machine · act)
      app with
    | (app, .error err) => (app, ⟨[], preview.skipped ++ sshSkips⟩, some err)
    | (app, .ok (profilesApplied, skipped)) =>
      let (config, report) :=
        preview.changes.foldl (reportChange machine file (sshApplied ++ profilesApplied) (explicitSkips skipped))
          (app.config, ⟨[], preview.skipped ++ sshSkips ++ skipped⟩)
      ({ app with config := config }, report, none)

def ApplyConfigImport (parsed : Except String (ConfigExport J)) (app : App S C) :
    App S C × ImportReport × Option String :=
  match PreviewConfigImport machine app.config parsed, parsed with
  | .ok preview, .ok file => applyPreview machine file preview app
  | .ok _, .error err => (app, ⟨[], []⟩, some ("parse config export: " ++ err))
  | .error err, _ => (app, ⟨[], []⟩, some err)

end Apply

end Atterm.ConfigImport
