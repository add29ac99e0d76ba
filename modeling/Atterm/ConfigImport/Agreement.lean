/-
**Whether the preview says what the import does.**

It does for hosts and keys. A profile of the file without an environment is stored with the one that is held
and with its switch, whatever the file says; the preview has it so only where the file does not share it.

* `Agrees`, `PreviewAgrees` — a change names what becomes of the record; all of a preview do;
* `Foreseen` — the pairs of a record and a profile of the file on which the two rules agree;
* `previewAgrees_iff` — the previews that say what the import does.
-/

import Atterm.ConfigImport.Effect
import Atterm.ConfigImport.Merge

namespace Atterm.ConfigImport

open Atterm.Foundation
open Atterm.Hosts (SSHHost)
open Std (ExtTreeMap)

/-! ### What becomes of a record -/

/-- A record that was not there is added; one that was is replaced, unless it is the same. -/
def recordAction {α : Type} [DecidableEq α] (before after : Option α) : Option ChangeAction :=
  match before, after with
  | none, some _ => some .add
  | some old, some new => some (if old = new then .unchanged else .replace)
  | _, none => none

theorem recordAction_some {α : Type} [DecidableEq α] (before : Option α) (new : α) :
    recordAction before (some new) = some (listAction before new) := by
  cases before <;> rfl

/-- A change of a host, key or profile names what becomes of the record of its id. -/
def Agrees {S : Type} (before after : AppConfig S) (c : ImportChange) : Prop :=
  match c.key with
  | .sshHost id =>
    recordAction (lastWith SSHHost.id id before.sshHosts) (lastWith SSHHost.id id after.sshHosts) =
      some c.action
  | .sshKey id =>
    recordAction (lastWith SSHKey.id id before.sshKeys) (lastWith SSHKey.id id after.sshKeys) = some c.action
  | .profile id =>
    recordAction (lastWith SessionProfile.id id before.profiles) (lastWith SessionProfile.id id after.profiles) =
      some c.action
  | _ => True

/-! ### The two rules for a profile -/

structure SameLaunch (l p : SessionProfile) : Prop where
  name : l.name = p.name
  shell : l.shell = p.shell
  cwd : l.cwd = p.cwd
  startupCmd : l.startupCmd = p.startupCmd

/-- The preview of a profile of the file foresees what becomes of the record: the file has an environment, or
launches otherwise, or neither shares its environment and the record's is not a nil map for an empty one. -/
def Foreseen (l p : SessionProfile) : Prop :=
  p.noEnv = true → SameLaunch l p →
    if l.noEnv = true then p.syncEnv = false → l.syncEnv = false → l.env = p.env
    else p.syncEnv = false ∧ l.syncEnv = false

theorem profile_eq_iff (l p : SessionProfile) (sameID : l.id = p.id) :
    l = p ↔ SameLaunch l p ∧ l.env = p.env ∧ l.syncEnv = p.syncEnv := by
  constructor
  · rintro rfl
    exact ⟨⟨rfl, rfl, rfl, rfl⟩, rfl, rfl⟩
  · rintro ⟨⟨name, shell, cwd, startupCmd⟩, env, syncEnv⟩
    cases l
    cases p
    simp_all

theorem noEnv_congr {l p : SessionProfile} (env : l.env = p.env) : l.noEnv = p.noEnv := by
  rw [SessionProfile.noEnv, SessionProfile.noEnv, env]

theorem eq_candidate_iff {l p : SessionProfile} (sameID : l.id = p.id) :
    l = profileMergeCandidate l p ↔
      SameLaunch l p ∧ l.syncEnv = p.syncEnv ∧ (l.env = p.env ∨ p.noEnv = true ∧ p.syncEnv = false) := by
  rw [profileMergeCandidate]
  split_ifs with kept
  · obtain ⟨empty, unshared⟩ : p.noEnv = true ∧ p.syncEnv = false := by simpa using kept
    rw [profile_eq_iff l { p with env := l.env } sameID]
    exact ⟨fun ⟨launch, _, syncEnv⟩ => ⟨⟨launch.1, launch.2, launch.3, launch.4⟩, syncEnv, .inr ⟨empty, unshared⟩⟩,
      fun ⟨launch, syncEnv, _⟩ => ⟨⟨launch.1, launch.2, launch.3, launch.4⟩, rfl, syncEnv⟩⟩
  · have filled : ¬(p.noEnv = true ∧ p.syncEnv = false) := by simpa using kept
    rw [profile_eq_iff l p sameID, or_iff_left filled, and_comm (a := l.env = p.env)]

theorem eq_imported_iff {held : List SessionProfile} {l p : SessionProfile}
    (found : lastWith SessionProfile.id p.id held = some l) :
    l = importedProfile held p ↔ SameLaunch l p ∧
      (p.noEnv = true ∧ l.noEnv = false ∨ l.env = p.env ∧ l.syncEnv = p.syncEnv) := by
  have sameID : l.id = p.id := (lastWith_mem found).2
  rw [importedProfile_of_found found]
  split_ifs with kept
  · rw [profile_eq_iff l { p with syncEnv := l.syncEnv, env := l.env } sameID]
    exact ⟨fun ⟨launch, _⟩ => ⟨⟨launch.1, launch.2, launch.3, launch.4⟩, .inl kept⟩,
      fun ⟨launch, _⟩ => ⟨⟨launch.1, launch.2, launch.3, launch.4⟩, rfl, rfl⟩⟩
  · rw [profile_eq_iff l p sameID, or_iff_right kept]

theorem unchanged_or_replace_iff (a b : Prop) [Decidable a] [Decidable b] :
    (if a then ChangeAction.unchanged else .replace) = (if b then .unchanged else .replace) ↔ (a ↔ b) := by
  by_cases left : a <;> by_cases right : b <;> simp [left, right]

/-- **When the preview's rule and the import's rule agree.** -/
theorem foreseen_iff {held : List SessionProfile} {l p : SessionProfile}
    (found : lastWith SessionProfile.id p.id held = some l) :
    Foreseen l p ↔ (l = profileMergeCandidate l p ↔ l = importedProfile held p) := by
  rw [eq_candidate_iff (lastWith_mem found).2, eq_imported_iff found, Foreseen]
  have sameEnv : l.env = p.env → l.noEnv = p.noEnv := noEnv_congr
  by_cases launch : SameLaunch l p
  · by_cases env : l.env = p.env
    · rw [sameEnv env]
      cases p.noEnv <;> cases p.syncEnv <;> cases l.syncEnv <;> simp [launch, env]
    · cases p.noEnv <;> cases l.noEnv <;> cases p.syncEnv <;> cases l.syncEnv <;> simp [launch, env]
  · simp [launch]

/-! ### The preview and the import -/

section

variable {J S C : Type} (machine : Machine J S)

/-- Each change of the preview names what becomes of its record. -/
def PreviewAgrees (parsed : Except String (ConfigExport J)) (app : App S C) : Prop :=
  ∀ preview, PreviewConfigImport machine app.config parsed = .ok preview →
    ∀ c ∈ preview.changes, Agrees app.config (ApplyConfigImport machine parsed app).1.config c

/-- Where the profiles are stored, each is foreseen; where they are not, there is none to store. -/
def Predictable (cfg : AppConfig S) (file : ConfigExport J) : Prop :=
  if ¬CutShort machine cfg file ∧ Stored machine cfg file then
    ∀ p ∈ fileProfiles machine file, ∀ l, lastWith SessionProfile.id p.id cfg.profiles = some l → Foreseen l p
  else
    ∀ p ∈ fileProfiles machine file,
      ∃ l, lastWith SessionProfile.id p.id cfg.profiles = some l ∧ l = profileMergeCandidate l p

variable {file : ConfigExport J} (version : file.version = configExportVersion) (app : App S C)

include version

theorem agrees_sshHost {h : SSHHost} (listed : h ∈ fileHosts machine file) :
    Agrees app.config (ApplyConfigImport machine (.ok file) app).1.config (previewHost app.config h) := by
  change recordAction _ (lastWith SSHHost.id h.id _) = some (listAction _ h)
  rw [sshHosts_apply machine app version, newHosts,
    lastWith_putDiffering _ (fileHosts_distinct machine file) listed, recordAction_some]

theorem agrees_sshKey {k : SSHKey} (listed : k ∈ fileKeys machine file) :
    Agrees app.config (ApplyConfigImport machine (.ok file) app).1.config (previewKey app.config k) := by
  change recordAction _ (lastWith SSHKey.id k.id _) = some (listAction _ k)
  rw [sshKeys_apply machine app version, newKeys,
    lastWith_putDiffering _ (fileKeys_distinct machine file) listed, recordAction_some]

omit version in
theorem previewProfile_action (cfg : AppConfig S) (p : SessionProfile) :
    (previewProfile cfg p).action =
      match lastWith SessionProfile.id p.id cfg.profiles with
      | none => .add
      | some l => if l = profileMergeCandidate l p then .unchanged else .replace := by
  rw [previewProfile]
  cases lastWith SessionProfile.id p.id cfg.profiles with
  | none => rfl
  | some l =>
    dsimp only
    split_ifs <;> rfl

theorem agrees_profile_iff {p : SessionProfile} (listed : p ∈ fileProfiles machine file) :
    Agrees app.config (ApplyConfigImport machine (.ok file) app).1.config (previewProfile app.config p) ↔
      if ¬CutShort machine app.config file ∧ Stored machine app.config file then
        ∀ l, lastWith SessionProfile.id p.id app.config.profiles = some l → Foreseen l p
      else
        ∃ l, lastWith SessionProfile.id p.id app.config.profiles = some l ∧ l = profileMergeCandidate l p := by
  rw [Agrees, previewProfile_key]
  dsimp only
  rw [previewProfile_action, profiles_apply machine app version, profilesBehind]
  by_cases stores : ¬CutShort machine app.config file ∧ Stored machine app.config file
  · rw [if_pos stores, if_neg stores.1, if_pos stores.2,
      lastWith_importedProfiles _ (fileProfiles_distinct machine file) listed, recordAction_some]
    cases found : lastWith SessionProfile.id p.id app.config.profiles with
    | none => simp [listAction]
    | some l =>
      simp only [listAction, Option.some.injEq, forall_eq', foreseen_iff found]
      rw [unchanged_or_replace_iff]
      exact Iff.comm
  · have same : (if CutShort machine app.config file then app.config.profiles
        else if Stored machine app.config file then
          importedProfiles app.config.profiles (fileProfiles machine file)
        else app.config.profiles) = app.config.profiles := by
      split_ifs with cut stored
      · rfl
      · exact absurd ⟨cut, stored⟩ stores
      · rfl
    rw [if_neg stores, same]
    cases found : lastWith SessionProfile.id p.id app.config.profiles with
    | none => simp [recordAction]
    | some l =>
      by_cases unchanged : l = profileMergeCandidate l p
      · simp [recordAction, ← unchanged]
      · simp [recordAction, unchanged]

theorem previewChanges_agree_iff :
    (∀ c ∈ previewChanges machine app.config file,
        Agrees app.config (ApplyConfigImport machine (.ok file) app).1.config c) ↔
      Predictable machine app.config file := by
  have each : Predictable machine app.config file ↔ ∀ p ∈ fileProfiles machine file,
      Agrees app.config (ApplyConfigImport machine (.ok file) app).1.config (previewProfile app.config p) := by
    rw [Predictable]
    by_cases stores : ¬CutShort machine app.config file ∧ Stored machine app.config file
    · rw [if_pos stores]
      refine forall₂_congr fun p listed => ?_
      rw [agrees_profile_iff machine version app listed, if_pos stores]
    · rw [if_neg stores]
      refine forall₂_congr fun p listed => ?_
      rw [agrees_profile_iff machine version app listed, if_neg stores]
  rw [each]
  constructor
  · intro all p listed
    refine all _ ((mem_profileChanges_iff machine app.config file _).mp ?_).1
    exact List.mem_append_left _ (List.mem_map_of_mem listed)
  · intro profiles c inside
    rcases mem_previewChanges machine app.config file inside with ssh | ofProfiles | ⟨key, setting⟩
    · rcases List.mem_append.mp ssh with ofHost | ofKey
      · obtain ⟨h, listed, rfl⟩ := List.mem_map.mp ofHost
        exact agrees_sshHost machine version app listed
      · obtain ⟨k, listed, rfl⟩ := List.mem_map.mp ofKey
        exact agrees_sshKey machine version app listed
    · rcases List.mem_append.mp ofProfiles with ofProfile | ofDefault
      · obtain ⟨p, listed, rfl⟩ := List.mem_map.mp ofProfile
        exact profiles p listed
      · rw [Agrees, previewDefaultProfileID_key app.config ofDefault]
        trivial
    · rw [Agrees, setting]
      trivial

omit version in
/-- **The preview says what the import does** exactly where each profile of the file is foreseen, or the
profiles are not stored and none of them differs. -/
theorem previewAgrees_iff (parsed : Except String (ConfigExport J)) (app : App S C) :
    PreviewAgrees machine parsed app ↔
      ∀ file, parsed = .ok file → file.version = configExportVersion →
        Predictable machine app.config file := by
  constructor
  · rintro agrees file rfl version
    exact (previewChanges_agree_iff machine version app).mp
      (agrees _ (PreviewConfigImport_ok machine app.config file version))
  · intro predictable preview previewed
    cases parsed with
    | error err => cases previewed
    | ok file =>
      by_cases version : file.version = configExportVersion
      · rw [PreviewConfigImport_ok machine app.config file version] at previewed
        cases previewed
        exact (previewChanges_agree_iff machine version app).mpr (predictable file rfl version)
      · simp [PreviewConfigImport, version] at previewed

end

/-! ### A profile that shares its environment -/

def sharedProfile (env : Option (ExtTreeMap String String)) : SessionProfile where
  id := "dev"
  name := "dev"
  shell := ""
  cwd := ""
  startupCmd := ""
  env := env
  syncEnv := true

/-- A machine that reads the payloads of profiles, and whose writes go through. -/
def profilesMachine : Machine ProfilesExportPayload Unit where
  quote := id
  readSSHHosts := fun _ => .error "json: cannot unmarshal"
  readProfiles := .ok
  previewScalarPref := fun _ _ _ => .error "unknown preference key"
  applyScalarPref := fun settings _ _ => .ok settings
  writeError := fun _ => none
  clearError := fun _ => none

def sharedFile : ConfigExport ProfilesExportPayload where
  version := 1
  preferences := ExtTreeMap.ofList [("profiles", ProfilesExportPayload.mk [sharedProfile none] "")]

def sharedApp : App Unit String where
  config := ⟨[], [], [sharedProfile (some (ExtTreeMap.ofList [("TOKEN", "1")]))], "", ()⟩
  credentials := fun _ => none

/-- The file has no environment where the record has one, and both share it: the preview announces that the
record is replaced, and it is left as it was. -/
theorem replaced_is_kept : ¬PreviewAgrees profilesMachine (.ok sharedFile) sharedApp := by
  intro agrees
  have announced : ⟨.profile "dev", .replace, "env"⟩ ∈
      previewChanges profilesMachine sharedApp.config sharedFile := by decide +kernel
  have replaced : recordAction (lastWith SessionProfile.id "dev" sharedApp.config.profiles)
      (lastWith SessionProfile.id "dev"
        (ApplyConfigImport profilesMachine (.ok sharedFile) sharedApp).1.config.profiles) = some .replace :=
    agrees _ (PreviewConfigImport_ok profilesMachine sharedApp.config sharedFile rfl) _ announced
  have kept : recordAction (lastWith SessionProfile.id "dev" sharedApp.config.profiles)
      (lastWith SessionProfile.id "dev"
        (ApplyConfigImport profilesMachine (.ok sharedFile) sharedApp).1.config.profiles) =
      some .unchanged := by decide +kernel
  cases kept.symm.trans replaced

end Atterm.ConfigImport
