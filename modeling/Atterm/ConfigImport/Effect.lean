/-
**What an import leaves behind.**

The entries of a file that count, and which of them are written. The hosts and keys of a file are in memory
whatever becomes of the write; a credential is cleared, and the profiles are stored, only where that write
went through.

* `newHosts`, `newKeys` — what the preview reports as added or replaced;
* `CutShort` — the hosts or keys were to be written, and the write failed;
* `sshHosts_apply`, `sshKeys_apply`, `credentials_apply`, `profiles_apply` — the app behind an import.
-/

import Atterm.ConfigImport.Apply

namespace Atterm.ConfigImport

open Atterm.Foundation
open Atterm.Hosts (SSHHost)
open Std (ExtTreeMap)

variable {J S C : Type} (machine : Machine J S) (cfg : AppConfig S) (file : ConfigExport J)

/-! ### The entries of a file -/

def readValue {α : Type} (read : J → Except String α) (key : String) : Option α :=
  (file.preferences[key]?).bind fun raw => (read raw).toOption

def fileHosts : List SSHHost :=
  (readValue file machine.readSSHHosts "ssh_hosts").elim []
    fun payload => (validateSSHHostsPayload machine.quote payload).1

def fileKeys : List SSHKey :=
  (readValue file machine.readSSHHosts "ssh_hosts").elim []
    fun payload => (validateSSHHostsPayload machine.quote payload).2.1

def fileProfiles : List SessionProfile :=
  (readValue file machine.readProfiles "profiles").elim []
    fun payload => (validateProfilesPayload machine.quote payload).1

def fileDefaultProfileID : String :=
  (readValue file machine.readProfiles "profiles").elim "" ProfilesExportPayload.defaultProfileID

theorem fileHosts_distinct : ((fileHosts machine file).map SSHHost.id).Nodup := by
  rw [fileHosts]
  cases readValue file machine.readSSHHosts "ssh_hosts" with
  | none => exact List.nodup_nil
  | some payload => exact validHosts_distinct machine.quote payload

theorem fileKeys_distinct : ((fileKeys machine file).map SSHKey.id).Nodup := by
  rw [fileKeys]
  cases readValue file machine.readSSHHosts "ssh_hosts" with
  | none => exact List.nodup_nil
  | some payload => exact validKeys_distinct machine.quote payload

theorem fileProfiles_distinct : ((fileProfiles machine file).map SessionProfile.id).Nodup := by
  rw [fileProfiles]
  cases readValue file machine.readProfiles "profiles" with
  | none => exact List.nodup_nil
  | some payload => exact validProfiles_distinct machine.quote payload

/-! ### What is reported -/

def sshChanges : List ImportChange :=
  (fileHosts machine file).map (previewHost cfg) ++ (fileKeys machine file).map (previewKey cfg)

def profileChanges : List ImportChange :=
  (fileProfiles machine file).map (previewProfile cfg) ++
    previewDefaultProfileID cfg (fileDefaultProfileID machine file)

theorem previewSSHHosts_eq {raw : J} (there : file.preferences["ssh_hosts"]? = some raw) :
    (previewSSHHosts machine cfg raw).1 = sshChanges machine cfg file := by
  rw [previewSSHHosts, sshChanges, fileHosts, fileKeys, readValue, there, Option.bind_some]
  cases machine.readSSHHosts raw <;> rfl

theorem previewProfiles_eq {raw : J} (there : file.preferences["profiles"]? = some raw) :
    (previewProfiles machine cfg raw).1 = profileChanges machine cfg file := by
  rw [previewProfiles, profileChanges, fileProfiles, fileDefaultProfileID, readValue, there, Option.bind_some]
  cases machine.readProfiles raw <;> rfl

theorem sshChanges_absent (absent : file.preferences["ssh_hosts"]? = none) :
    sshChanges machine cfg file = [] := by
  rw [sshChanges, fileHosts, fileKeys, readValue, absent]
  rfl

theorem profileChanges_absent (absent : file.preferences["profiles"]? = none) :
    profileChanges machine cfg file = [] := by
  rw [profileChanges, fileProfiles, fileDefaultProfileID, readValue, absent]
  rfl

theorem notOfProfiles {key : ChangeKey} (ofSSH : key.ofSSH = true) : ¬key.ofProfiles = true := by
  cases key <;> simp_all [ChangeKey.ofSSH, ChangeKey.ofProfiles]

theorem ofSSH_of_mem {c : ImportChange} (listed : c ∈ sshChanges machine cfg file) : c.key.ofSSH = true := by
  rcases List.mem_append.mp listed with ofHost | ofKey
  · obtain ⟨h, _, rfl⟩ := List.mem_map.mp ofHost
    rfl
  · obtain ⟨k, _, rfl⟩ := List.mem_map.mp ofKey
    rfl

theorem previewProfile_key (p : SessionProfile) : (previewProfile cfg p).key = .profile p.id := by
  rw [previewProfile]
  split
  · rfl
  · dsimp only
    split_ifs <;> rfl

theorem previewDefaultProfileID_key {defaultProfileID : String} {c : ImportChange}
    (listed : c ∈ previewDefaultProfileID cfg defaultProfileID) : c.key = .defaultProfileID := by
  rw [previewDefaultProfileID] at listed
  split_ifs at listed
  · cases listed
  all_goals rw [List.mem_singleton.mp listed]

theorem ofProfiles_of_mem {c : ImportChange} (listed : c ∈ profileChanges machine cfg file) :
    c.key.ofProfiles = true := by
  rcases List.mem_append.mp listed with ofProfile | ofDefault
  · obtain ⟨p, _, rfl⟩ := List.mem_map.mp ofProfile
    rw [previewProfile_key]
    rfl
  · rw [previewDefaultProfileID_key cfg ofDefault]
    rfl

/-- **The changes of a preview**: those of the hosts and keys, those of the profiles, and others. -/
theorem mem_previewChanges {c : ImportChange} (listed : c ∈ previewChanges machine cfg file) :
    c ∈ sshChanges machine cfg file ∨ c ∈ profileChanges machine cfg file ∨ ∃ key, c.key = .setting key := by
  obtain ⟨⟨key, raw⟩, inside, of⟩ := List.mem_flatMap.mp listed
  have there := ExtTreeMap.mem_toList_iff_getElem?_eq_some.mp inside
  rw [previewPreference] at of
  split_ifs at of with _ hosts profiles
  · obtain rfl : key = "ssh_hosts" := hosts
    exact .inl (previewSSHHosts_eq machine cfg file there ▸ of)
  · obtain rfl : key = "profiles" := profiles
    exact .inr (.inl (previewProfiles_eq machine cfg file there ▸ of))
  · split at of
    · cases of
    · rw [List.mem_singleton.mp of]
      exact .inr (.inr ⟨key, rfl⟩)
  · cases of

theorem mem_previewChanges_of_key {key : String} {raw : J} (there : file.preferences[key]? = some raw)
    {c : ImportChange} (of : c ∈ (previewPreference machine cfg key raw).1) :
    c ∈ previewChanges machine cfg file :=
  List.mem_flatMap.mpr ⟨(key, raw), ExtTreeMap.mem_toList_iff_getElem?_eq_some.mpr there, of⟩

theorem mem_sshChanges_iff (c : ImportChange) :
    c ∈ sshChanges machine cfg file ↔ c ∈ previewChanges machine cfg file ∧ c.key.ofSSH = true := by
  constructor
  · refine fun listed => ⟨?_, ofSSH_of_mem machine cfg file listed⟩
    cases there : file.preferences["ssh_hosts"]? with
    | none => exact absurd listed (sshChanges_absent machine cfg file there ▸ List.not_mem_nil)
    | some raw =>
      refine mem_previewChanges_of_key machine cfg file there ?_
      rwa [previewPreference, if_neg (by decide), if_pos rfl, previewSSHHosts_eq machine cfg file there]
  · rintro ⟨listed, ofSSH⟩
    rcases mem_previewChanges machine cfg file listed with ssh | profiles | ⟨key, setting⟩
    · exact ssh
    · exact absurd (ofProfiles_of_mem machine cfg file profiles) (notOfProfiles ofSSH)
    · rw [setting] at ofSSH
      cases ofSSH

theorem mem_profileChanges_iff (c : ImportChange) :
    c ∈ profileChanges machine cfg file ↔
      c ∈ previewChanges machine cfg file ∧ c.key.ofProfiles = true := by
  constructor
  · refine fun listed => ⟨?_, ofProfiles_of_mem machine cfg file listed⟩
    cases there : file.preferences["profiles"]? with
    | none => exact absurd listed (profileChanges_absent machine cfg file there ▸ List.not_mem_nil)
    | some raw =>
      refine mem_previewChanges_of_key machine cfg file there ?_
      rwa [previewPreference, if_neg (by decide), if_neg (by decide), if_pos rfl,
        previewProfiles_eq machine cfg file there]
  · rintro ⟨listed, ofProfiles⟩
    rcases mem_previewChanges machine cfg file listed with ssh | profiles | ⟨key, setting⟩
    · exact absurd ofProfiles (notOfProfiles (ofSSH_of_mem machine cfg file ssh))
    · exact profiles
    · rw [setting] at ofProfiles
      cases ofProfiles

/-! ### What is written -/

def newHosts : List SSHHost :=
  (fileHosts machine file).filter fun h => lastWith SSHHost.id h.id cfg.sshHosts ≠ some h

def newKeys : List SSHKey :=
  (fileKeys machine file).filter fun k => lastWith SSHKey.id k.id cfg.sshKeys ≠ some k

/-- The hosts that take the place of a record with another address, port or user. -/
def repointed : List SSHHost :=
  (newHosts machine cfg file).filter fun h =>
    (lastWith SSHHost.id h.id cfg.sshHosts).any fun old => hostTargetChanged old h

/-- Something of these changes is to be written. -/
def Needed (changes : List ImportChange) : Prop := ∃ c ∈ changes, c.action ≠ .unchanged

instance (changes : List ImportChange) : Decidable (Needed changes) := by
  unfold Needed
  infer_instance

theorem needed_iff (ofPart : ChangeKey → Bool) {changes : List ImportChange}
    (part : ∀ c, c ∈ changes ↔ c ∈ previewChanges machine cfg file ∧ ofPart c.key = true) :
    ((previewChanges machine cfg file).any fun c => ofPart c.key && c.action ≠ .unchanged) =
      decide (Needed changes) := by
  rw [Bool.eq_iff_iff, List.any_eq_true, decide_eq_true_iff, Needed]
  simp [part, and_assoc]

theorem actionable_iff (changes : List ImportChange) (key : ChangeKey) :
    actionable changes key = true ↔ ∃ c ∈ changes, c.key = key ∧ c.action ≠ .unchanged := by
  simp [actionable]

/-- **A host is written exactly where it differs from the record of its id.** -/
theorem actionable_sshHost {h : SSHHost} (listed : h ∈ fileHosts machine file) :
    actionable (previewChanges machine cfg file) (.sshHost h.id) =
      decide (lastWith SSHHost.id h.id cfg.sshHosts ≠ some h) := by
  rw [Bool.eq_iff_iff, actionable_iff, decide_eq_true_iff, ne_eq, ← listAction_eq_unchanged_iff]
  constructor
  · rintro ⟨c, inside, same, changed⟩
    have ssh := (mem_sshChanges_iff machine cfg file c).mpr ⟨inside, by rw [same]; rfl⟩
    rcases List.mem_append.mp ssh with ofHost | ofKey
    · obtain ⟨h', listed', rfl⟩ := List.mem_map.mp ofHost
      cases List.inj_on_of_nodup_map (fileHosts_distinct machine file) listed' listed
        (ChangeKey.sshHost.inj same)
      exact changed
    · obtain ⟨k, _, rfl⟩ := List.mem_map.mp ofKey
      cases same
  · intro changed
    have ssh : previewHost cfg h ∈ sshChanges machine cfg file :=
      List.mem_append_left _ (List.mem_map_of_mem listed)
    exact ⟨previewHost cfg h, ((mem_sshChanges_iff machine cfg file _).mp ssh).1, rfl, changed⟩

theorem actionable_sshKey {k : SSHKey} (listed : k ∈ fileKeys machine file) :
    actionable (previewChanges machine cfg file) (.sshKey k.id) =
      decide (lastWith SSHKey.id k.id cfg.sshKeys ≠ some k) := by
  rw [Bool.eq_iff_iff, actionable_iff, decide_eq_true_iff, ne_eq, ← listAction_eq_unchanged_iff]
  constructor
  · rintro ⟨c, inside, same, changed⟩
    have ssh := (mem_sshChanges_iff machine cfg file c).mpr ⟨inside, by rw [same]; rfl⟩
    rcases List.mem_append.mp ssh with ofHost | ofKey
    · obtain ⟨h, _, rfl⟩ := List.mem_map.mp ofHost
      cases same
    · obtain ⟨k', listed', rfl⟩ := List.mem_map.mp ofKey
      cases List.inj_on_of_nodup_map (fileKeys_distinct machine file) listed' listed
        (ChangeKey.sshKey.inj same)
      exact changed
  · intro changed
    have ssh : previewKey cfg k ∈ sshChanges machine cfg file :=
      List.mem_append_right _ (List.mem_map_of_mem listed)
    exact ⟨previewKey cfg k, ((mem_sshChanges_iff machine cfg file _).mp ssh).1, rfl, changed⟩

theorem newHosts_eq :
    newHosts machine cfg file =
      (fileHosts machine file).filter fun h =>
        actionable (previewChanges machine cfg file) (.sshHost h.id) :=
  List.filter_congr fun _ listed => (actionable_sshHost machine cfg file listed).symm

theorem newKeys_eq :
    newKeys machine cfg file =
      (fileKeys machine file).filter fun k =>
        actionable (previewChanges machine cfg file) (.sshKey k.id) :=
  List.filter_congr fun _ listed => (actionable_sshKey machine cfg file listed).symm

theorem neededSSH_iff :
    Needed (sshChanges machine cfg file) ↔ newHosts machine cfg file ≠ [] ∨ newKeys machine cfg file ≠ [] := by
  simp only [Needed, sshChanges, List.mem_append, or_and_right, exists_or, newHosts, newKeys]
  refine or_congr ?_ ?_
  · simp [List.filter_eq_nil_iff, previewHost, listAction_eq_unchanged_iff]
  · simp [List.filter_eq_nil_iff, previewKey, listAction_eq_unchanged_iff]

def CutShort : Prop := Needed (sshChanges machine cfg file) ∧ machine.writeError .sshHosts ≠ none

instance : Decidable (CutShort machine cfg file) := by
  unfold CutShort
  infer_instance

/-! ### The loops of the hosts and the keys -/

section Loops

variable (act : ChangeKey → Bool)

theorem importHosts_hosts (hosts : List SSHHost) (held : HostsImport) :
    (hosts.foldl (importHost act) held).hosts =
      (hosts.filter fun h => act (.sshHost h.id)).foldl (put SSHHost.id) held.hosts := by
  induction hosts generalizing held with
  | nil => rfl
  | cons h hosts ih =>
    rw [List.foldl_cons, ih, List.filter_cons, importHost]
    split_ifs <;> rfl

theorem importHosts_applied (hosts : List SSHHost) (held : HostsImport) :
    (hosts.foldl (importHost act) held).applied =
      held.applied ++ (hosts.filter fun h => act (.sshHost h.id)).map fun h => .sshHost h.id := by
  induction hosts generalizing held with
  | nil => exact (List.append_nil _).symm
  | cons h hosts ih =>
    rw [List.foldl_cons, ih, List.filter_cons, importHost]
    split_ifs
    · rw [List.map_cons, List.append_assoc, List.singleton_append]
    · rfl

theorem importHosts_credentialsToClear {hosts : List SSHHost} (distinct : (hosts.map SSHHost.id).Nodup)
    (held : HostsImport) :
    (hosts.foldl (importHost act) held).credentialsToClear =
      held.credentialsToClear ++ ((hosts.filter fun h => act (.sshHost h.id)).filter fun h =>
        (lastWith SSHHost.id h.id held.hosts).any fun old => hostTargetChanged old h).map SSHHost.id := by
  induction hosts generalizing held with
  | nil => exact (List.append_nil _).symm
  | cons h hosts ih =>
    rw [List.map_cons, List.nodup_cons] at distinct
    rw [List.foldl_cons, ih distinct.2, List.filter_cons, importHost]
    split_ifs with acted
    · have later : ∀ h' ∈ hosts.filter fun h => act (.sshHost h.id),
          lastWith SSHHost.id h'.id (put SSHHost.id held.hosts h) =
            lastWith SSHHost.id h'.id held.hosts := by
        intro h' listed
        rw [lastWith_put, if_neg]
        exact fun same => distinct.1
          (List.mem_map.mpr ⟨h', (List.mem_filter.mp listed).1, same⟩)
      rw [List.filter_congr fun h' listed => by rw [later h' listed], List.filter_cons]
      cases lastWith SSHHost.id h.id held.hosts with
      | none => rfl
      | some old => cases changed : hostTargetChanged old h <;> simp [changed]
    · rfl

theorem importKeys_eq (keys : List SSHKey) (held : List SSHKey × List ChangeKey) :
    keys.foldl (importKey act) held =
      ((keys.filter fun k => act (.sshKey k.id)).foldl (put SSHKey.id) held.1,
        held.2 ++ (keys.filter fun k => act (.sshKey k.id)).map fun k => .sshKey k.id) := by
  induction keys generalizing held with
  | nil => exact Prod.ext rfl (List.append_nil _).symm
  | cons k keys ih =>
    rw [List.foldl_cons, ih, List.filter_cons, importKey]
    split_ifs
    · rw [List.map_cons, List.foldl_cons, List.append_assoc, List.singleton_append]
    · rfl

end Loops

theorem clearCredential_foldl (held : (String → Option C) × List String) (ids : List String) (id : String) :
    (ids.foldl (clearCredential machine) held).1 id =
      if id ∈ ids ∧ machine.clearError id = none then none else held.1 id := by
  induction ids generalizing held with
  | nil => simp
  | cons first ids ih =>
    rw [List.foldl_cons, ih, clearCredential]
    cases cleared : machine.clearError first with
    | none =>
      by_cases same : id = first
      · simp [same, cleared]
      · simp [same]
    | some err =>
      by_cases same : id = first
      · simp [same, cleared]
      · simp [same]

/-! ### The parts -/

variable (app : App S C)

/-- The app with the hosts and keys of the file in memory. -/
def withSSH : App S C :=
  { app with config := { app.config with
      sshHosts := (newHosts machine app.config file).foldl (put SSHHost.id) app.config.sshHosts
      sshKeys := (newKeys machine app.config file).foldl (put SSHKey.id) app.config.sshKeys } }

/-- The same, with the credentials cleared of the hosts whose target changes. -/
def withSSHCleared : App S C :=
  { withSSH machine file app with
    credentials := (clearCredentials machine app.credentials
      ((repointed machine app.config file).map SSHHost.id)).1 }

theorem exists_sshPayload (needed : Needed (sshChanges machine cfg file)) :
    ∃ raw payload, file.preferences["ssh_hosts"]? = some raw ∧ machine.readSSHHosts raw = .ok payload ∧
      fileHosts machine file = (validateSSHHostsPayload machine.quote payload).1 ∧
      fileKeys machine file = (validateSSHHostsPayload machine.quote payload).2.1 := by
  obtain ⟨c, listed, _⟩ := needed
  rw [fileHosts, fileKeys, readValue]
  cases there : file.preferences["ssh_hosts"]? with
  | none => exact absurd listed (sshChanges_absent machine cfg file there ▸ List.not_mem_nil)
  | some raw =>
    cases read : machine.readSSHHosts raw with
    | error err =>
      rw [sshChanges, fileHosts, fileKeys, readValue, there, Option.bind_some, read] at listed
      exact absurd listed List.not_mem_nil
    | ok payload =>
      rw [Option.bind_some, read]
      exact ⟨raw, payload, rfl, read, rfl, rfl⟩

def sshPart : App S C × Except String (List ChangeKey × List String) :=
  importPart file "ssh_hosts" (decide (Needed (sshChanges machine app.config file)))
    (applySSHHostsImport machine · (actionable (previewChanges machine app.config file))) app

/-- **It is left out, is ended by a failed write, or goes through.** -/
theorem sshPart_cases :
    (¬Needed (sshChanges machine app.config file) ∧ sshPart machine file app = (app, .ok ([], []))) ∨
      (CutShort machine app.config file ∧
        ∃ err, sshPart machine file app = (withSSH machine file app, .error err)) ∨
      (Needed (sshChanges machine app.config file) ∧ ¬CutShort machine app.config file ∧
        ∃ reported, sshPart machine file app = (withSSHCleared machine file app, .ok reported)) := by
  by_cases needed : Needed (sshChanges machine app.config file)
  · obtain ⟨raw, payload, there, read, hosts, keys⟩ := exists_sshPayload machine app.config file needed
    have distinct := fileHosts_distinct machine file
    rw [hosts] at distinct
    have toPut := newHosts_eq machine app.config file
    have toPutKeys := newKeys_eq machine app.config file
    rw [hosts] at toPut
    rw [keys] at toPutKeys
    have reached : sshPart machine file app = applySSHHostsImport machine raw
        (actionable (previewChanges machine app.config file)) app := by
      rw [sshPart, importPart, if_pos (decide_eq_true needed), there]
    rw [applySSHHostsImport, read] at reached
    dsimp only at reached
    rw [importKeys_eq, importHosts_hosts, importHosts_applied, importHosts_credentialsToClear _ distinct,
      ← toPut, ← toPutKeys, if_neg] at reached
    · cases wrote : machine.writeError .sshHosts with
      | some err =>
        rw [wrote] at reached
        exact .inr (.inl ⟨⟨needed, by rw [wrote]; exact Option.some_ne_none err⟩, err, reached⟩)
      | none =>
        rw [wrote] at reached
        exact .inr (.inr ⟨needed, fun cut => cut.2 wrote, _, reached⟩)
    · rw [List.nil_append, List.append_eq_nil_iff, List.map_eq_nil_iff, List.map_eq_nil_iff]
      rintro ⟨noHosts, noKeys⟩
      rcases (neededSSH_iff machine app.config file).mp needed with hosts | keys
      · exact hosts noHosts
      · exact keys noKeys
  · refine .inl ⟨needed, ?_⟩
    rw [sshPart, importPart, if_neg (by simpa using needed)]

/-- The profiles of the file are stored: something of them is to be written, and the list is accepted. -/
def Stored : Prop :=
  Needed (profileChanges machine cfg file) ∧
    checkProfiles machine.quote [] (importedProfiles cfg.profiles (fileProfiles machine file)) = none

instance : Decidable (Stored machine cfg file) := by
  unfold Stored
  infer_instance

def profilesBehind : List SessionProfile :=
  if Stored machine cfg file then importedProfiles cfg.profiles (fileProfiles machine file) else cfg.profiles

/-- The part of the profiles, from an app whose profiles are those of the preview. -/
def profilesPart : App S C × Except String (List ChangeKey × List String) :=
  importPart file "profiles" (decide (Needed (profileChanges machine cfg file)))
    (applyProfilesImport machine · (actionable (previewChanges machine cfg file))) app

theorem exists_profilesPayload (needed : Needed (profileChanges machine cfg file)) :
    ∃ raw payload, file.preferences["profiles"]? = some raw ∧ machine.readProfiles raw = .ok payload ∧
      fileProfiles machine file = (validateProfilesPayload machine.quote payload).1 ∧
      fileDefaultProfileID machine file = payload.defaultProfileID := by
  obtain ⟨c, listed, _⟩ := needed
  rw [fileProfiles, fileDefaultProfileID, readValue]
  cases there : file.preferences["profiles"]? with
  | none => exact absurd listed (profileChanges_absent machine cfg file there ▸ List.not_mem_nil)
  | some raw =>
    cases read : machine.readProfiles raw with
    | error err =>
      rw [profileChanges, fileProfiles, fileDefaultProfileID, readValue, there, Option.bind_some,
        read] at listed
      exact absurd listed List.not_mem_nil
    | ok payload =>
      rw [Option.bind_some, read]
      exact ⟨raw, payload, rfl, read, rfl, rfl⟩

/-- The default profile behind a stored list: the one of the file where it is to be written and found. -/
def defaultBehind : String :=
  let merged := importedProfiles cfg.profiles (fileProfiles machine file)
  let kept := resolveDefaultProfileID cfg.defaultProfileID merged
  let resolved := resolveDefaultProfileID (fileDefaultProfileID machine file) merged
  if machine.writeError .profiles = none ∧ resolved ≠ "" ∧
      actionable (previewChanges machine cfg file) .defaultProfileID = true then resolved
  else kept

theorem applyDefaultProfileID_fst (defaultProfileID : String) (merged : List SessionProfile)
    (applied : List ChangeKey) :
    (applyDefaultProfileID machine defaultProfileID merged applied app).1 =
      if resolveDefaultProfileID defaultProfileID merged = "" then app
      else { app with config := { app.config with
        defaultProfileID := resolveDefaultProfileID defaultProfileID merged } } := by
  rw [applyDefaultProfileID]
  dsimp only
  split_ifs
  · rfl
  · rw [SetDefaultProfileID]
    cases machine.writeError .defaultProfileID <;> rfl

theorem anyProfile_of_needed (needed : Needed (profileChanges machine cfg file)) :
    ¬(((fileProfiles machine file).map fun p => ChangeKey.profile p.id).filter
        (actionable (previewChanges machine cfg file)) = [] ∧
      actionable (previewChanges machine cfg file) .defaultProfileID = false) := by
  obtain ⟨c, listed, changed⟩ := needed
  have acted : actionable (previewChanges machine cfg file) c.key = true :=
    (actionable_iff _ _).mpr ⟨c, ((mem_profileChanges_iff machine cfg file c).mp listed).1, rfl, changed⟩
  rintro ⟨noProfile, noDefault⟩
  rcases List.mem_append.mp listed with ofProfile | ofDefault
  · obtain ⟨p, inside, rfl⟩ := List.mem_map.mp ofProfile
    rw [previewProfile_key] at acted
    exact List.filter_eq_nil_iff.mp noProfile _ (List.mem_map_of_mem inside) acted
  · rw [previewDefaultProfileID_key cfg ofDefault, noDefault] at acted
    cases acted

/-- **The part of the profiles**: nothing, or the imported list and a default profile. -/
theorem profilesPart_fst (profiles : app.config.profiles = cfg.profiles)
    (default : app.config.defaultProfileID = cfg.defaultProfileID) :
    (profilesPart machine cfg file app).1 =
      if Stored machine cfg file then
        { app with config := { app.config with
          profiles := importedProfiles cfg.profiles (fileProfiles machine file)
          defaultProfileID := defaultBehind machine cfg file } }
      else app := by
  rw [profilesPart, importPart]
  by_cases needed : Needed (profileChanges machine cfg file)
  · obtain ⟨raw, payload, there, read, listed, named⟩ := exists_profilesPayload machine cfg file needed
    have written := anyProfile_of_needed machine cfg file needed
    rw [if_pos (decide_eq_true needed), there]
    dsimp only
    rw [applyProfilesImport, read, defaultBehind]
    dsimp only [validateProfilesPayload] at listed ⊢
    rw [← named, ← listed, if_neg written, profiles, SetProfiles]
    cases checked : checkProfiles machine.quote []
        (importedProfiles cfg.profiles (fileProfiles machine file)) with
    | some err => rw [if_neg fun stored => Option.some_ne_none err (checked.symm.trans stored.2)]
    | none =>
      rw [if_pos ⟨needed, checked⟩]
      cases wrote : machine.writeError .profiles with
      | some err => simp [default]
      | none =>
        cases acted : actionable (previewChanges machine cfg file) .defaultProfileID with
        | false => simp [default]
        | true =>
          dsimp only
          rw [if_pos rfl, applyDefaultProfileID_fst]
          split_ifs <;> simp_all
  · rw [if_neg (by simpa using needed), if_neg fun stored => needed stored.1]

/-! ### The other preferences -/

/-- The other preferences behind a change of the preview. -/
def settingBehind (held : S) (change : ChangeKey × ChangeAction) : S :=
  if change.2 = .unchanged then held
  else
    match change.1 with
    | .setting key =>
      match file.preferences[key]? with
      | none => held
      | some raw =>
        match machine.applyScalarPref held key raw with
        | .error _ => held
        | .ok settings => settings
    | _ => held

def ImportChange.kind (c : ImportChange) : ChangeKey × ChangeAction := (c.key, c.action)

theorem reportChange_fst (applied skips : List ChangeKey) (held : AppConfig S × ImportReport)
    (c : ImportChange) :
    (reportChange machine file applied skips held c).1 =
      { held.1 with settings := settingBehind machine file held.1.settings c.kind } := by
  rw [reportChange, settingBehind, ImportChange.kind]
  split_ifs with same
  · rfl
  · cases c.key with
    | setting key =>
      dsimp only
      rw [applySetting]
      cases file.preferences[key]? with
      | none => rfl
      | some raw =>
        dsimp only
        cases machine.applyScalarPref held.1.settings key raw <;> rfl
    | _ => dsimp only; split_ifs <;> rfl

theorem reportChange_foldl_fst (applied skips : List ChangeKey) (changes : List ImportChange)
    (held : AppConfig S × ImportReport) :
    (changes.foldl (reportChange machine file applied skips) held).1 =
      { held.1 with settings :=
          (changes.map ImportChange.kind).foldl (settingBehind machine file) held.1.settings } := by
  induction changes generalizing held with
  | nil => rfl
  | cons c changes ih => rw [List.foldl_cons, ih, reportChange_fst, List.map_cons, List.foldl_cons]

/-- The other preferences behind the changes of the preview. -/
def settingsBehind (held : S) : S :=
  ((previewChanges machine cfg file).map ImportChange.kind).foldl (settingBehind machine file) held

/-! ### The whole import -/

theorem withSSHCleared_of_not_needed (unneeded : ¬Needed (sshChanges machine app.config file)) :
    withSSHCleared machine file app = app := by
  obtain ⟨noHosts, noKeys⟩ : newHosts machine app.config file = [] ∧ newKeys machine app.config file = [] := by
    simpa [neededSSH_iff] using unneeded
  rw [withSSHCleared, withSSH, repointed, noHosts, noKeys]
  rfl

theorem PreviewConfigImport_ok (version : file.version = configExportVersion) :
    PreviewConfigImport machine cfg (.ok file) =
      .ok ⟨previewChanges machine cfg file, previewSkips machine cfg file⟩ := by
  rw [PreviewConfigImport]
  exact if_neg fun other => other version

theorem applyPreview_fst :
    (applyPreview machine file ⟨previewChanges machine app.config file, previewSkips machine app.config file⟩
        app).1 =
      match sshPart machine file app with
      | (behind, .error _) => behind
      | (behind, .ok _) =>
        match profilesPart machine app.config file behind with
        | (behind, .error _) => behind
        | (behind, .ok _) =>
          { behind with config := { behind.config with
            settings := settingsBehind machine app.config file behind.config.settings } } := by
  rw [applyPreview]
  dsimp only
  rw [needed_iff machine app.config file _ (mem_sshChanges_iff machine app.config file),
    needed_iff machine app.config file _ (mem_profileChanges_iff machine app.config file)]
  rw [← sshPart]
  rcases sshPart machine file app with ⟨behind, err | ⟨sshApplied, sshSkips⟩⟩
  · rfl
  · dsimp only
    rw [← profilesPart]
    rcases profilesPart machine app.config file behind with ⟨behind, err | ⟨profilesApplied, skipped⟩⟩
    · rfl
    · dsimp only
      rw [reportChange_foldl_fst]
      rfl

section Behind

variable {file} (version : file.version = configExportVersion)

include version

theorem applyConfigImport_read :
    ApplyConfigImport machine (.ok file) app =
      applyPreview machine file
        ⟨previewChanges machine app.config file, previewSkips machine app.config file⟩ app := by
  simp only [ApplyConfigImport, PreviewConfigImport_ok machine app.config file version]

/-- **A failed write of the hosts and keys ends the import**, with them in memory. -/
theorem applyConfigImport_cut (cut : CutShort machine app.config file) :
    (ApplyConfigImport machine (.ok file) app).1 = withSSH machine file app := by
  rw [applyConfigImport_read machine app version, applyPreview_fst]
  rcases sshPart_cases machine file app with ⟨unneeded, _⟩ | ⟨_, err, ended⟩ | ⟨_, uncut, _⟩
  · exact absurd cut.1 unneeded
  · rw [ended]
  · exact absurd cut uncut

/-- **Otherwise the profiles follow**, and where they go through the other preferences. -/
theorem applyConfigImport_uncut (uncut : ¬CutShort machine app.config file) :
    (ApplyConfigImport machine (.ok file) app).1 =
      match profilesPart machine app.config file (withSSHCleared machine file app) with
      | (behind, .error _) => behind
      | (behind, .ok _) =>
        { behind with config := { behind.config with
          settings := settingsBehind machine app.config file behind.config.settings } } := by
  rw [applyConfigImport_read machine app version, applyPreview_fst]
  rcases sshPart_cases machine file app with ⟨unneeded, nothing⟩ | ⟨cut, _⟩ | ⟨_, _, reported, through⟩
  · rw [nothing, withSSHCleared_of_not_needed machine file app unneeded]
  · exact absurd cut uncut
  · rw [through]

theorem applyConfigImport_fields :
    (ApplyConfigImport machine (.ok file) app).1.config.sshHosts = (withSSH machine file app).config.sshHosts ∧
      (ApplyConfigImport machine (.ok file) app).1.config.sshKeys = (withSSH machine file app).config.sshKeys ∧
      (ApplyConfigImport machine (.ok file) app).1.config.profiles =
        (if CutShort machine app.config file then app.config.profiles
          else profilesBehind machine app.config file) ∧
      (ApplyConfigImport machine (.ok file) app).1.config.defaultProfileID =
        (if ¬CutShort machine app.config file ∧ Stored machine app.config file
          then defaultBehind machine app.config file else app.config.defaultProfileID) ∧
      (ApplyConfigImport machine (.ok file) app).1.credentials =
        (if CutShort machine app.config file then app.credentials
          else (withSSHCleared machine file app).credentials) := by
  by_cases cut : CutShort machine app.config file
  · rw [applyConfigImport_cut machine app version cut, if_pos cut, if_pos cut, if_neg fun both => both.1 cut]
    exact ⟨rfl, rfl, rfl, rfl, rfl⟩
  · rw [applyConfigImport_uncut machine app version cut, if_neg cut, if_neg cut, profilesBehind]
    simp only [cut, not_false_eq_true, true_and]
    have profiles := profilesPart_fst machine app.config file (withSSHCleared machine file app) rfl rfl
    rcases reached : profilesPart machine app.config file (withSSHCleared machine file app) with
      ⟨behind, err | reported⟩
    all_goals
      rw [reached] at profiles
      obtain rfl : behind = _ := profiles
      dsimp only
      split_ifs <;> exact ⟨rfl, rfl, rfl, rfl, rfl⟩

/-- **The hosts behind an import.** -/
theorem sshHosts_apply :
    (ApplyConfigImport machine (.ok file) app).1.config.sshHosts =
      (newHosts machine app.config file).foldl (put SSHHost.id) app.config.sshHosts :=
  (applyConfigImport_fields machine app version).1

theorem sshKeys_apply :
    (ApplyConfigImport machine (.ok file) app).1.config.sshKeys =
      (newKeys machine app.config file).foldl (put SSHKey.id) app.config.sshKeys :=
  (applyConfigImport_fields machine app version).2.1

/-- **The profiles behind an import.** -/
theorem profiles_apply :
    (ApplyConfigImport machine (.ok file) app).1.config.profiles =
      if CutShort machine app.config file then app.config.profiles
      else profilesBehind machine app.config file :=
  (applyConfigImport_fields machine app version).2.2.1

theorem defaultProfileID_apply :
    (ApplyConfigImport machine (.ok file) app).1.config.defaultProfileID =
      if ¬CutShort machine app.config file ∧ Stored machine app.config file
      then defaultBehind machine app.config file else app.config.defaultProfileID :=
  (applyConfigImport_fields machine app version).2.2.2.1

/-- **A credential behind an import.** -/
theorem credentials_apply (id : String) :
    (ApplyConfigImport machine (.ok file) app).1.credentials id =
      if ¬CutShort machine app.config file ∧
          id ∈ (repointed machine app.config file).map SSHHost.id ∧ machine.clearError id = none
      then none else app.credentials id := by
  rw [(applyConfigImport_fields machine app version).2.2.2.2]
  by_cases cut : CutShort machine app.config file
  · rw [if_pos cut, if_neg fun cleared => cleared.1 cut]
  · rw [if_neg cut, withSSHCleared]
    dsimp only
    rw [clearCredentials, clearCredential_foldl]
    simp only [cut, not_false_eq_true, true_and]

end Behind

theorem applyConfigImport_other (other : file.version ≠ configExportVersion) :
    (ApplyConfigImport machine (.ok file) app).1 = app := by
  simp [ApplyConfigImport, PreviewConfigImport, other]

end Atterm.ConfigImport
