/-
**What leaves the machine.**

A plain export for the user, and the two values that are sealed for the other devices. Both have the profiles
without the environments that are not shared; an export may have them all, where the user asks for it.

* `stripUnsyncedEnv`, `BuildConfigExport`, `sealedSSHHosts`, `sealedProfiles` — the code;
* `Shown`, `shown_export`, `shown_sealed` — what of an app the exported and sealed forms depend on.
-/

import Atterm.ConfigImport.Apply

namespace Atterm.ConfigImport

open Atterm.Hosts (SSHHost)
open Std (ExtTreeMap)

/-- A profile without an environment that it does not share. -/
def stripUnsynced (p : SessionProfile) : SessionProfile := if p.syncEnv then p else { p with env := none }

def stripUnsyncedEnv (profiles : List SessionProfile) : List SessionProfile := profiles.map stripUnsynced

structure SSHSyncPayload (C K : Type) where
  hosts : List (SSHHost × Option C)
  keys : List (SSHKey × Option K)

/-- What an export calls: reading a preference that the user has set, `json.Marshal`, sealing with the account
key, and the secrets of the keys. -/
structure Exporter (J S C K : Type) where
  readSetting : S → String → Option J
  marshalSSHHosts : SSHHostsExportPayload → J
  marshalProfiles : ProfilesExportPayload → J
  sealSSHHosts : List UInt8 → SSHSyncPayload C K → Option J
  sealProfiles : List UInt8 → ProfilesExportPayload → Option J
  keySecret : String → Option K

section Export

variable {J S C K : Type} (exporter : Exporter J S C K)

def exportSettings (settings : S) : ExtTreeMap String J :=
  settingKeys.foldl (fun prefs key =>
    match exporter.readSetting settings key with
    | some raw => prefs.insert key raw
    | none => prefs) ∅

def exportSSHHosts (cfg : AppConfig S) (prefs : ExtTreeMap String J) : ExtTreeMap String J :=
  if cfg.sshHosts ≠ [] ∨ cfg.sshKeys ≠ [] then
    prefs.insert "ssh_hosts" (exporter.marshalSSHHosts ⟨cfg.sshHosts, cfg.sshKeys⟩)
  else prefs

def exportProfiles (includeLocalEnv : Bool) (cfg : AppConfig S) (prefs : ExtTreeMap String J) :
    ExtTreeMap String J :=
  let profiles := if includeLocalEnv then cfg.profiles else stripUnsyncedEnv cfg.profiles
  if profiles ≠ [] ∨ cfg.defaultProfileID ≠ "" then
    prefs.insert "profiles" (exporter.marshalProfiles ⟨profiles, cfg.defaultProfileID⟩)
  else prefs

def BuildConfigExport (includeLocalEnv : Bool) (cfg : AppConfig S) : ConfigExport J where
  version := configExportVersion
  preferences :=
    exportProfiles exporter includeLocalEnv cfg
      (exportSSHHosts exporter cfg (exportSettings exporter cfg.settings))

/-- The value of `ssh_hosts_encrypted`, with the credentials. -/
def sealedSSHHosts (accountKey : List UInt8) (app : App S C) : Option J :=
  if accountKey = [] then none
  else
    exporter.sealSSHHosts accountKey
      ⟨app.config.sshHosts.map fun h => (h, app.credentials h.id),
        app.config.sshKeys.map fun k => (k, exporter.keySecret k.id)⟩

/-- The value of `profiles_encrypted`. -/
def sealedProfiles (accountKey : List UInt8) (cfg : AppConfig S) : Option J :=
  if accountKey = [] then none
  else exporter.sealProfiles accountKey ⟨stripUnsyncedEnv cfg.profiles, cfg.defaultProfileID⟩

/-! ### What is shown -/

/-- The two apps are the same but for environments that are not shared. -/
structure Shown (app app' : App S C) : Prop where
  hosts : app'.config.sshHosts = app.config.sshHosts
  keys : app'.config.sshKeys = app.config.sshKeys
  profiles : stripUnsyncedEnv app'.config.profiles = stripUnsyncedEnv app.config.profiles
  defaultProfileID : app'.config.defaultProfileID = app.config.defaultProfileID
  settings : app'.config.settings = app.config.settings
  credentials : app'.credentials = app.credentials

variable {app app' : App S C}

/-- **The export depends on nothing else.** -/
theorem shown_export (shown : Shown app app') :
    BuildConfigExport exporter false app'.config = BuildConfigExport exporter false app.config := by
  rw [BuildConfigExport, BuildConfigExport, exportProfiles, exportProfiles, exportSSHHosts, exportSSHHosts,
    shown.hosts, shown.keys, shown.settings, shown.defaultProfileID]
  simp only [Bool.false_eq_true, if_false, shown.profiles]

/-- **Nor do the sealed values.** -/
theorem shown_sealed (shown : Shown app app') (accountKey : List UInt8) :
    sealedSSHHosts exporter accountKey app' = sealedSSHHosts exporter accountKey app ∧
      sealedProfiles exporter accountKey app'.config = sealedProfiles exporter accountKey app.config := by
  rw [sealedSSHHosts, sealedSSHHosts, sealedProfiles, sealedProfiles, shown.hosts, shown.keys,
    shown.credentials, shown.profiles, shown.defaultProfileID]
  exact ⟨rfl, rfl⟩

end Export

end Atterm.ConfigImport
