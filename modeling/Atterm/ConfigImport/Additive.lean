/-
**An import keeps what there is.**

No id of a host, key or profile is lost, a second import of the file changes nothing, and a credential stays
with a host only where its target does. The last two fail where the hosts are in memory and their write
failed: the credentials are not cleared any more, and the profiles come only with the next import.

* `Additive`, `Idempotent`, `Bound` — what is asked of an import;
* `additive`, `idempotent_iff`, `bound_iff` — the first always holds, the others in these cases;
* `import_keeps_iff` — all three together.
-/

import Atterm.ConfigImport.Effect
import Atterm.ConfigImport.Merge

namespace Atterm.ConfigImport

open Atterm.Foundation
open Atterm.Hosts (SSHHost)
open Std (ExtTreeMap)

/-! ### What is asked -/

structure Additive {S : Type} (before after : AppConfig S) : Prop where
  hosts : ∀ h ∈ before.sshHosts, h.id ∈ after.sshHosts.map SSHHost.id
  keys : ∀ k ∈ before.sshKeys, k.id ∈ after.sshKeys.map SSHKey.id
  profiles : ∀ p ∈ before.profiles, p.id ∈ after.profiles.map SessionProfile.id

/-- The hosts, keys and profiles are the same. -/
structure SameRecords {S : Type} (before after : AppConfig S) : Prop where
  hosts : after.sshHosts = before.sshHosts
  keys : after.sshKeys = before.sshKeys
  profiles : after.profiles = before.profiles

/-- The same address, port and user. -/
structure SameTarget (old new : SSHHost) : Prop where
  host : new.host = old.host
  port : new.port = old.port
  user : new.user = old.user

/-- A host that still has a credential has the target that it had. -/
def Bound {S C : Type} (before after : App S C) : Prop :=
  ∀ (i : ℕ) (old new : SSHHost), before.config.sshHosts[i]? = some old →
    after.config.sshHosts[i]? = some new → after.credentials old.id ≠ none → new.id = old.id ∧ SameTarget old new

section

variable {J S C : Type} (machine : Machine J S)

/-- A second import changes nothing, whatever becomes of its writes. -/
def Idempotent (parsed : Except String (ConfigExport J)) (app : App S C) : Prop :=
  ∀ writeError clearError,
    SameRecords (ApplyConfigImport machine parsed app).1.config
      (ApplyConfigImport { machine with writeError := writeError, clearError := clearError } parsed
        (ApplyConfigImport machine parsed app).1).1.config

variable {file : ConfigExport J} (version : file.version = configExportVersion) (app : App S C)

/-! ### No id is lost -/

theorem additive_profilesBehind (cfg : AppConfig S) :
    ∀ p ∈ cfg.profiles, p.id ∈ (profilesBehind machine cfg file).map SessionProfile.id := by
  intro p inside
  rw [profilesBehind]
  split_ifs
  · exact mem_ids_importedProfiles _ inside
  · exact List.mem_map_of_mem inside

include version

theorem additive : Additive app.config (ApplyConfigImport machine (.ok file) app).1.config where
  hosts := by
    intro h inside
    rw [sshHosts_apply machine app version]
    exact (keys_prefix_putAll _ _).subset (List.mem_map_of_mem inside)
  keys := by
    intro k inside
    rw [sshKeys_apply machine app version]
    exact (keys_prefix_putAll _ _).subset (List.mem_map_of_mem inside)
  profiles := by
    intro p inside
    rw [profiles_apply machine app version]
    split_ifs
    · exact List.mem_map_of_mem inside
    · exact additive_profilesBehind machine app.config p inside

/-! ### A second import -/

theorem newHosts_again :
    newHosts machine (ApplyConfigImport machine (.ok file) app).1.config file = [] := by
  rw [newHosts, List.filter_eq_nil_iff]
  intro h listed
  rw [sshHosts_apply machine app version]
  exact fun differs => of_decide_eq_true differs
    (lastWith_putDiffering app.config.sshHosts (fileHosts_distinct machine file) listed)

theorem newKeys_again :
    newKeys machine (ApplyConfigImport machine (.ok file) app).1.config file = [] := by
  rw [newKeys, List.filter_eq_nil_iff]
  intro k listed
  rw [sshKeys_apply machine app version]
  exact fun differs => of_decide_eq_true differs
    (lastWith_putDiffering app.config.sshKeys (fileKeys_distinct machine file) listed)

omit version in
theorem profileChanges_congr {cfg cfg' : AppConfig S} (profiles : cfg'.profiles = cfg.profiles)
    (default : cfg'.defaultProfileID = cfg.defaultProfileID) :
    profileChanges machine cfg' file = profileChanges machine cfg file := by
  have one : previewProfile cfg' = previewProfile cfg := by
    funext p
    rw [previewProfile, previewProfile, profiles]
  rw [profileChanges, profileChanges, one, previewDefaultProfileID, previewDefaultProfileID, default]

omit version in
theorem profilesBehind_congr {cfg cfg' : AppConfig S} (profiles : cfg'.profiles = cfg.profiles)
    (default : cfg'.defaultProfileID = cfg.defaultProfileID) :
    profilesBehind machine cfg' file = profilesBehind machine cfg file := by
  have stored : Stored machine cfg' file ↔ Stored machine cfg file := by
    rw [Stored, Stored, profileChanges_congr machine profiles default, profiles]
  rw [profilesBehind, profilesBehind, profiles]
  simp only [stored]

/-- **Behind an import that was not cut short, the profiles of the file are in place.** -/
theorem profilesBehind_again (uncut : ¬CutShort machine app.config file) :
    profilesBehind machine (ApplyConfigImport machine (.ok file) app).1.config file =
      (ApplyConfigImport machine (.ok file) app).1.config.profiles := by
  have profiles := profiles_apply machine app version
  have default := defaultProfileID_apply machine app version
  rw [if_neg uncut, profilesBehind] at profiles
  by_cases stored : Stored machine app.config file
  · rw [if_pos stored] at profiles
    rw [profilesBehind, profiles, importedProfiles_again (checkProfiles_distinct _ _ stored.2).1]
    exact ite_self _
  · rw [if_neg stored] at profiles
    rw [if_neg fun both => stored both.2] at default
    rw [profilesBehind_congr machine profiles default, profilesBehind, if_neg stored, profiles]

theorem sameRecords_again_iff (writeError : Write → Option String) (clearError : String → Option String) :
    SameRecords (ApplyConfigImport machine (.ok file) app).1.config
        (ApplyConfigImport { machine with writeError := writeError, clearError := clearError } (.ok file)
          (ApplyConfigImport machine (.ok file) app).1).1.config ↔
      profilesBehind machine (ApplyConfigImport machine (.ok file) app).1.config file =
        (ApplyConfigImport machine (.ok file) app).1.config.profiles := by
  have noHosts := newHosts_again machine version app
  have noKeys := newKeys_again machine version app
  generalize (ApplyConfigImport machine (.ok file) app).1 = behind at noHosts noKeys ⊢
  let again : Machine J S := { machine with writeError := writeError, clearError := clearError }
  have hosts := sshHosts_apply again behind version
  have keys := sshKeys_apply again behind version
  have profiles := profiles_apply again behind version
  have uncut : ¬CutShort again behind.config file := fun cut =>
    ((neededSSH_iff again behind.config file).mp cut.1).elim (· noHosts) (· noKeys)
  rw [show newHosts again behind.config file = [] from noHosts] at hosts
  rw [show newKeys again behind.config file = [] from noKeys] at keys
  rw [if_neg uncut] at profiles
  exact ⟨fun same => profiles.symm.trans same.profiles, fun same => ⟨hosts, keys, profiles.trans same⟩⟩

/-- **A second import changes nothing, save that it makes up for one that was cut short.** -/
theorem idempotent_iff :
    Idempotent machine (.ok file) app ↔
      (CutShort machine app.config file →
        profilesBehind machine app.config file = app.config.profiles) := by
  have second : Idempotent machine (.ok file) app ↔
      profilesBehind machine (ApplyConfigImport machine (.ok file) app).1.config file =
        (ApplyConfigImport machine (.ok file) app).1.config.profiles :=
    ⟨fun idempotent => (sameRecords_again_iff machine version app _ _).mp
        (idempotent machine.writeError machine.clearError),
      fun settled _ _ => (sameRecords_again_iff machine version app _ _).mpr settled⟩
  rw [second]
  by_cases cut : CutShort machine app.config file
  · have profiles := profiles_apply machine app version
    have default := defaultProfileID_apply machine app version
    rw [if_pos cut] at profiles
    rw [if_neg fun both => both.1 cut] at default
    rw [profilesBehind_congr machine profiles default, profiles]
    exact ⟨fun settled _ => settled, fun settled => settled cut⟩
  · exact ⟨fun _ other => absurd other cut, fun _ => profilesBehind_again machine version app cut⟩

/-! ### Credentials -/

omit version in
theorem mem_repointed_iff (cfg : AppConfig S) (h : SSHHost) :
    h ∈ repointed machine cfg file ↔ h ∈ newHosts machine cfg file ∧
      ∃ old, lastWith SSHHost.id h.id cfg.sshHosts = some old ∧ ¬SameTarget old h := by
  rw [repointed, List.mem_filter, Option.any_eq_true]
  refine and_congr_right fun _ => exists_congr fun old => and_congr_right fun _ => ?_
  rw [hostTargetChanged]
  constructor
  · rintro changed ⟨host, port, user⟩
    simp [host, port, user] at changed
  · intro differs
    by_contra same
    simp only [Bool.or_eq_true, decide_eq_true_iff, not_or, ne_eq, not_not] at same
    exact differs ⟨same.1.1.symm, same.1.2.symm, same.2.symm⟩

/-- **A credential stays only with its target, save where the write of a new one failed.** -/
theorem bound_iff (cleared : ∀ id, machine.clearError id = none) :
    Bound app (ApplyConfigImport machine (.ok file) app).1 ↔
      (CutShort machine app.config file →
        ∀ h ∈ repointed machine app.config file, app.credentials h.id = none) := by
  have distinct : ((newHosts machine app.config file).map SSHHost.id).Nodup :=
    (fileHosts_distinct machine file).sublist (List.filter_sublist.map SSHHost.id)
  simp only [Bound, sshHosts_apply machine app version, credentials_apply machine app version, cleared,
    and_true]
  constructor
  · intro bound cut h listed
    obtain ⟨new, old, found, moved⟩ := (mem_repointed_iff machine app.config h).mp listed
    obtain ⟨i, before, after⟩ := putAll_place distinct new found
    by_contra kept
    have same := (lastWith_mem found).2
    refine moved (bound i old h before after ?_).2
    rwa [if_neg fun both => both.1 cut, same]
  · intro safe i old new before after kept
    rcases getElem?_putAll distinct before with same | ⟨h, listed, put, found⟩
    · rw [after] at same
      cases same
      exact ⟨rfl, rfl, rfl, rfl⟩
    · rw [after] at put
      cases put
      have same := (lastWith_mem found).2
      refine ⟨same.symm, ?_⟩
      by_contra moved
      have repoints := (mem_repointed_iff machine app.config new).mpr ⟨listed, old, found, moved⟩
      by_cases cut : CutShort machine app.config file
      · rw [if_neg fun both => both.1 cut, same, safe cut new repoints] at kept
        exact kept rfl
      · rw [if_pos ⟨cut, same ▸ List.mem_map_of_mem repoints⟩] at kept
        exact kept rfl

omit version in
theorem keeps_same (parsed : Except String (ConfigExport J))
    (nothing : ∀ clearError writeError, (ApplyConfigImport { machine with
      writeError := writeError, clearError := clearError } parsed app).1 = app) :
    Additive app.config (ApplyConfigImport machine parsed app).1.config ∧ Idempotent machine parsed app ∧
      Bound app (ApplyConfigImport machine parsed app).1 := by
  have first : (ApplyConfigImport machine parsed app).1 = app := nothing machine.clearError machine.writeError
  refine ⟨?_, fun writeError clearError => ?_, ?_⟩
  · rw [first]
    exact ⟨fun _ => List.mem_map_of_mem, fun _ => List.mem_map_of_mem, fun _ => List.mem_map_of_mem⟩
  · rw [first, nothing clearError writeError]
    exact ⟨rfl, rfl, rfl⟩
  · rw [first]
    rintro i old new before after _
    rw [before] at after
    cases after
    exact ⟨rfl, rfl, rfl, rfl⟩

omit version in
/-- **An import keeps what there is**, unless its write of the hosts and keys fails while it gives a host with a
credential another target, or while there are profiles to store. -/
theorem import_keeps_iff (parsed : Except String (ConfigExport J)) (app : App S C)
    (cleared : ∀ id, machine.clearError id = none) :
    (Additive app.config (ApplyConfigImport machine parsed app).1.config ∧ Idempotent machine parsed app ∧
        Bound app (ApplyConfigImport machine parsed app).1) ↔
      ∀ file, parsed = .ok file → file.version = configExportVersion → CutShort machine app.config file →
        profilesBehind machine app.config file = app.config.profiles ∧
          ∀ h ∈ repointed machine app.config file, app.credentials h.id = none := by
  cases parsed with
  | error err =>
    exact ⟨fun _ _ other => (nomatch other), fun _ => keeps_same machine app _ fun _ _ => rfl⟩
  | ok file =>
    by_cases version : file.version = configExportVersion
    · constructor
      · rintro ⟨_, idempotent, bound⟩ _ ⟨⟩ _ cut
        exact ⟨(idempotent_iff machine version app).mp idempotent cut,
          (bound_iff machine version app cleared).mp bound cut⟩
      · intro holds
        exact ⟨additive machine version app,
          (idempotent_iff machine version app).mpr fun cut => (holds file rfl version cut).1,
          (bound_iff machine version app cleared).mpr fun cut => (holds file rfl version cut).2⟩
    · refine ⟨?_, fun _ => keeps_same machine app _ fun _ _ => applyConfigImport_other _ file app version⟩
      rintro _ _ ⟨⟩ same
      exact absurd same version

end

/-! ### A host that moves -/

def movedHost (address : String) : SSHHost where
  id := "01J"
  «alias» := "build"
  host := address
  port := "22"
  user := "ci"
  authKind := "password"
  keyID := ""
  tags := none
  note := ""
  startupCommand := ""
  startupDelayMs := 0
  identityFile := ""
  proxyJump := ""
  proxyCommand := ""
  forwards := none

/-- A machine that reads the payloads of hosts, writes nothing where it is told so, and clears credentials. -/
def hostsMachine (failure : Option String) : Machine SSHHostsExportPayload Unit where
  quote := id
  readSSHHosts := .ok
  readProfiles := fun _ => .error "json: cannot unmarshal"
  previewScalarPref := fun _ _ _ => .error "unknown preference key"
  applyScalarPref := fun settings _ _ => .ok settings
  writeError := fun _ => failure
  clearError := fun _ => none

def movedFile : ConfigExport SSHHostsExportPayload where
  version := 1
  preferences := ExtTreeMap.ofList [("ssh_hosts", SSHHostsExportPayload.mk [movedHost "10.0.0.9"] [])]

def movedApp : App Unit String where
  config := ⟨[movedHost "10.0.0.1"], [], [], "", ()⟩
  credentials := fun id => if id = "01J" then some "secret" else none

theorem import_keeps_moved :
    Additive movedApp.config (ApplyConfigImport (hostsMachine none) (.ok movedFile) movedApp).1.config ∧
      Idempotent (hostsMachine none) (.ok movedFile) movedApp ∧
      Bound movedApp (ApplyConfigImport (hostsMachine none) (.ok movedFile) movedApp).1 :=
  (import_keeps_iff (hostsMachine none) (.ok movedFile) movedApp fun _ => rfl).mpr
    fun _ _ _ cut => absurd rfl cut.2

/-- Where it fails, the host has the new address and the credential, though clears would succeed. -/
theorem credential_follows :
    (∀ id, (hostsMachine (some "no space left on device")).clearError id = none) ∧
      ¬Bound movedApp (ApplyConfigImport (hostsMachine (some "no space left on device")) (.ok movedFile)
        movedApp).1 := by
  refine ⟨fun _ => rfl, fun bound => ?_⟩
  have moved := bound 0 (movedHost "10.0.0.1") (movedHost "10.0.0.9") rfl (by decide +kernel) (by decide +kernel)
  exact absurd moved.2.host (by decide)

end Atterm.ConfigImport
