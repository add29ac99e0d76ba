/-
**The file of an import, and the configuration it is imported into.**

The file lists hosts, keys and session profiles, and has a value for each other preference. An entry without
an id, or without what it is shown as, is passed over, and so is an entry whose id an earlier one has.

* `SSHKey`, `SessionProfile`, `AppConfig` — the records, and where they are kept;
* `SSHHostsExportPayload`, `ProfilesExportPayload`, `ConfigExport` — the file;
* `validateSSHHostsPayload`, `validateProfilesPayload` — the entries that count, and why the others do not.
-/

import Atterm.Hosts.Saved
import Atterm.Terminal.Command

namespace Atterm.ConfigImport

open Atterm.Hosts (SSHHost)
open Atterm.Terminal (trimSpace)
open Std (ExtTreeMap)

/-! ### The records -/

structure SSHKey where
  id : String
  name : String
  keyType : String
deriving DecidableEq

/-- A way to open a terminal. A map of Go that is nil differs from an empty one when records are compared. -/
structure SessionProfile where
  id : String
  name : String
  shell : String
  cwd : String
  startupCmd : String
  env : Option (ExtTreeMap String String)
  syncEnv : Bool
deriving DecidableEq

/-- `len(p.Env) == 0` -/
def SessionProfile.noEnv (p : SessionProfile) : Bool := p.env.all (·.isEmpty)

/-- The configuration. The other preferences are `settings`. -/
structure AppConfig (S : Type) where
  sshHosts : List SSHHost
  sshKeys : List SSHKey
  profiles : List SessionProfile
  defaultProfileID : String
  settings : S

/-! ### The file -/

structure SSHHostsExportPayload where
  hosts : List SSHHost
  keys : List SSHKey
deriving DecidableEq

structure ProfilesExportPayload where
  profiles : List SessionProfile
  defaultProfileID : String
deriving DecidableEq

structure ConfigExport (J : Type) where
  version : ℤ
  preferences : ExtTreeMap String J

def configExportVersion : ℤ := 1

/-! ### The entries that count -/

/-- `strings.TrimSpace` -/
def trim (text : String) : String := String.ofList (trimSpace text.toList)

/-- A kind of entry: its id, what it is shown as, and what is said of an entry that is passed over. -/
structure EntryKind (α : Type) where
  id : α → String
  withID : α → String → α
  shown : α → String
  missingID : α → String
  missingShown : String → String
  duplicate : String → String
  id_withID : ∀ entry text, id (withID entry text) = text := by intros; rfl

section Check

variable {α : Type} (kind : EntryKind α)

/-- The entries that count, behind those whose ids are in `seen`, and why the others do not. -/
def checkEntries : List String → List α → List α × List String
  | _, [] => ([], [])
  | seen, e :: rest =>
    let id := trim (kind.id e)
    if id = "" then
      let (entries, skipped) := checkEntries seen rest
      (entries, kind.missingID e :: skipped)
    else if trim (kind.shown e) = "" then
      let (entries, skipped) := checkEntries seen rest
      (entries, kind.missingShown id :: skipped)
    else if id ∈ seen then
      let (entries, skipped) := checkEntries seen rest
      (entries, kind.duplicate id :: skipped)
    else
      let (entries, skipped) := checkEntries (id :: seen) rest
      (kind.withID e id :: entries, skipped)

theorem checkEntries_cons (seen : List String) (e : α) (rest : List α) :
    (checkEntries kind seen (e :: rest)).1 = (checkEntries kind seen rest).1 ∨
      trim (kind.id e) ∉ seen ∧ (checkEntries kind seen (e :: rest)).1 =
        kind.withID e (trim (kind.id e)) :: (checkEntries kind (trim (kind.id e) :: seen) rest).1 := by
  rw [checkEntries]
  split_ifs with _ _ listed
  · exact .inl rfl
  · exact .inl rfl
  · exact .inl rfl
  · exact .inr ⟨listed, rfl⟩

theorem id_notMem_seen (seen : List String) (entries : List α) :
    ∀ e ∈ (checkEntries kind seen entries).1, kind.id e ∉ seen := by
  induction entries generalizing seen with
  | nil => exact fun _ listed => nomatch listed
  | cons e rest ih =>
    rcases checkEntries_cons kind seen e rest with same | ⟨fresh, kept⟩
    · exact same ▸ ih seen
    · intro other listed
      rw [kept, List.mem_cons] at listed
      rcases listed with rfl | later
      · rwa [kind.id_withID]
      · exact fun inside => ih _ other later (List.mem_cons_of_mem _ inside)

/-- **No id counts twice.** -/
theorem checkEntries_distinct (seen : List String) (entries : List α) :
    ((checkEntries kind seen entries).1.map kind.id).Nodup := by
  induction entries generalizing seen with
  | nil => exact List.nodup_nil
  | cons e rest ih =>
    rcases checkEntries_cons kind seen e rest with same | ⟨_, kept⟩
    · exact same ▸ ih seen
    · rw [kept, List.map_cons, List.nodup_cons, kind.id_withID]
      refine ⟨fun listed => ?_, ih _⟩
      obtain ⟨other, later, same⟩ := List.mem_map.mp listed
      exact id_notMem_seen kind _ rest other later (same ▸ List.mem_cons_self)

end Check

/-! ### Hosts, keys and profiles -/

section Validate

-- the verb `%q`
variable (quote : String → String)

def hostEntry : EntryKind SSHHost where
  id := SSHHost.id
  withID := fun h id => { h with id := id }
  shown := SSHHost.host
  missingID := fun h => "ssh_hosts: host " ++ quote h.alias ++ " missing id"
  missingShown := fun id => "ssh_hosts: host id=" ++ id ++ " missing host"
  duplicate := fun id => "ssh_hosts: host id=" ++ id ++ " duplicate in file, first occurrence kept"

def keyEntry : EntryKind SSHKey where
  id := SSHKey.id
  withID := fun k id => { k with id := id }
  shown := SSHKey.name
  missingID := fun k => "ssh_hosts: key " ++ quote k.name ++ " missing id"
  missingShown := fun id => "ssh_hosts: key id=" ++ id ++ " missing name"
  duplicate := fun id => "ssh_hosts: key id=" ++ id ++ " duplicate in file, first occurrence kept"

def profileEntry : EntryKind SessionProfile where
  id := SessionProfile.id
  withID := fun p id => { p with id := id }
  shown := SessionProfile.name
  missingID := fun p => "profiles: profile " ++ quote p.name ++ " missing id"
  missingShown := fun id => "profiles: profile id=" ++ id ++ " missing name"
  duplicate := fun id => "profiles: profile id=" ++ id ++ " duplicate in file, first occurrence kept"

def validateSSHHostsPayload (payload : SSHHostsExportPayload) :
    List SSHHost × List SSHKey × List String :=
  let (hosts, hostSkips) := checkEntries (hostEntry quote) [] payload.hosts
  let (keys, keySkips) := checkEntries (keyEntry quote) [] payload.keys
  (hosts, keys, hostSkips ++ keySkips)

def validateProfilesPayload (payload : ProfilesExportPayload) :
    List SessionProfile × String × List String :=
  let (profiles, skipped) := checkEntries (profileEntry quote) [] payload.profiles
  (profiles, payload.defaultProfileID, skipped)

theorem validHosts_distinct (payload : SSHHostsExportPayload) :
    ((validateSSHHostsPayload quote payload).1.map SSHHost.id).Nodup :=
  checkEntries_distinct (hostEntry quote) [] payload.hosts

theorem validKeys_distinct (payload : SSHHostsExportPayload) :
    ((validateSSHHostsPayload quote payload).2.1.map SSHKey.id).Nodup :=
  checkEntries_distinct (keyEntry quote) [] payload.keys

theorem validProfiles_distinct (payload : ProfilesExportPayload) :
    ((validateProfilesPayload quote payload).1.map SessionProfile.id).Nodup :=
  checkEntries_distinct (profileEntry quote) [] payload.profiles

end Validate

end Atterm.ConfigImport
