/-
**What an import tells of an environment that is not shared.**

Two configurations that differ in such environments are imported into. What is exported and sealed afterwards
is the same, but for one thing: a file that shares a profile without giving its environment turns sharing on
only where no environment is held.

* `PrivateEnv`, `Variants` — the environments in which the configurations may differ;
* `import_hides_env` — the same is shown;
* `absence_is_told` — what is told otherwise.
-/

import Atterm.ConfigImport.Agreement
import Atterm.ConfigImport.Export

namespace Atterm.ConfigImport

open Atterm.Foundation
open Std (ExtTreeMap)

/-! ### The environments -/

/-- The two differ in an environment that is not shared and that the file does not give. -/
structure PrivateEnv (file : List SessionProfile) (p p' : SessionProfile) : Prop where
  unshared : p.syncEnv = false
  others : p' = { p with env := p'.env }
  notGiven : ∀ q ∈ file, q.id = p.id → q.noEnv = true

/-- The file that shares the profile finds an environment in both or in none. -/
def SamePresence (file : List SessionProfile) (p p' : SessionProfile) : Prop :=
  ∀ q ∈ file, q.id = p.id → q.syncEnv = true → p'.noEnv = p.noEnv

def Alike (file : List SessionProfile) (p p' : SessionProfile) : Prop :=
  p' = p ∨ PrivateEnv file p p' ∧ SamePresence file p p'

variable {file : List SessionProfile} {p p' : SessionProfile}

theorem Alike.id (alike : Alike file p p') : p'.id = p.id := by
  rcases alike with rfl | ⟨⟨_, others, _⟩, _⟩
  · rfl
  · rw [others]

theorem Alike.name (alike : Alike file p p') : p'.name = p.name := by
  rcases alike with rfl | ⟨⟨_, others, _⟩, _⟩
  · rfl
  · rw [others]

theorem Alike.strip (alike : Alike file p p') : stripUnsynced p' = stripUnsynced p := by
  rcases alike with rfl | ⟨⟨unshared, others, _⟩, _⟩
  · rfl
  · rw [others, stripUnsynced, stripUnsynced, unshared]
    rfl

/-! ### One profile of the file -/

theorem Alike.candidate {q : SessionProfile} (alike : Alike file p p') (listed : q ∈ file) (same : q.id = p.id) :
    p' = profileMergeCandidate p' q ↔ p = profileMergeCandidate p q := by
  rcases alike with rfl | ⟨⟨unshared, others, notGiven⟩, _⟩
  · rfl
  · have launch : SameLaunch p' q ↔ SameLaunch p q := by
      rw [others]
      exact ⟨fun h => ⟨h.1, h.2, h.3, h.4⟩, fun h => ⟨h.1, h.2, h.3, h.4⟩⟩
    have unshared' : p'.syncEnv = false := by rw [others, unshared]
    have sameID : p'.id = p.id := by rw [others]
    rw [eq_candidate_iff (sameID.trans same.symm), eq_candidate_iff same.symm, launch, unshared, unshared',
      notGiven q listed same]
    cases q.syncEnv <;> simp

theorem stripUnsynced_of_unshared {p : SessionProfile} (unshared : p.syncEnv = false) :
    stripUnsynced p = { p with env := none } := by
  rw [stripUnsynced, unshared]
  rfl

theorem Alike.imported {held held' : List SessionProfile} {q : SessionProfile} (alike : Alike file p p')
    (listed : q ∈ file) (found : lastWith SessionProfile.id q.id held = some p)
    (found' : lastWith SessionProfile.id q.id held' = some p') :
    stripUnsynced (importedProfile held' q) = stripUnsynced (importedProfile held q) := by
  rw [importedProfile_of_found found, importedProfile_of_found found']
  rcases alike with rfl | ⟨⟨unshared, others, notGiven⟩, samePresence⟩
  · rfl
  · have same := (lastWith_mem found).2.symm
    have empty := notGiven q listed same
    have unshared' : p'.syncEnv = false := by rw [others, unshared]
    rw [unshared, unshared']
    cases shared : q.syncEnv with
    | false =>
      -- the switch is off whether or not an environment is held
      have off : ∀ env, stripUnsynced { q with syncEnv := false, env := env } = stripUnsynced q := by
        intro env
        rw [stripUnsynced_of_unshared shared, stripUnsynced_of_unshared rfl, ← shared]
      split_ifs <;> simp only [off]
    | true =>
      rw [samePresence q listed same shared]
      split_ifs
      · rw [stripUnsynced_of_unshared rfl, stripUnsynced_of_unshared rfl]
      · rfl

/-! ### What is written -/

section Written

variable {J S C : Type} (machine : Machine J S) (cfg : AppConfig S) (file : ConfigExport J)
  {profiles : List SessionProfile}
  (alike : List.Forall₂ (Alike (fileProfiles machine file)) cfg.profiles profiles)

include alike

theorem lastWith_alike (id : String) :
    (lastWith SessionProfile.id id cfg.profiles = none ∧ lastWith SessionProfile.id id profiles = none) ∨
      ∃ l l', lastWith SessionProfile.id id cfg.profiles = some l ∧
        lastWith SessionProfile.id id profiles = some l' ∧ Alike (fileProfiles machine file) l l' :=
  lastWith_forall₂ (fun _ _ same => same.id) alike id

theorem previewProfile_alike {q : SessionProfile} (listed : q ∈ fileProfiles machine file) :
    (previewProfile { cfg with profiles := profiles } q).kind = (previewProfile cfg q).kind := by
  rw [ImportChange.kind, ImportChange.kind, previewProfile_key, previewProfile_key, previewProfile_action,
    previewProfile_action]
  rcases lastWith_alike machine cfg file alike q.id with ⟨absent, absent'⟩ | ⟨l, l', found, found', same⟩
  · rw [absent, absent']
  · rw [found, found']
    simp only [same.candidate listed (lastWith_mem found).2.symm]

theorem profileChanges_alike :
    (profileChanges machine { cfg with profiles := profiles } file).map ImportChange.kind =
      (profileChanges machine cfg file).map ImportChange.kind := by
  rw [profileChanges, profileChanges, List.map_append, List.map_append, List.map_map, List.map_map]
  congr 1
  exact List.map_congr_left fun q listed => previewProfile_alike machine cfg file alike listed

/-- **The same is reported of both**, but for the details. -/
theorem previewChanges_alike :
    (previewChanges machine { cfg with profiles := profiles } file).map ImportChange.kind =
      (previewChanges machine cfg file).map ImportChange.kind := by
  rw [previewChanges, previewChanges, List.map_flatMap, List.map_flatMap]
  refine List.flatMap_congr fun entry inside => ?_
  obtain ⟨key, raw⟩ := entry
  have there := ExtTreeMap.mem_toList_iff_getElem?_eq_some.mp inside
  rw [previewPreference, previewPreference]
  split_ifs with _ hosts ofProfiles
  · rfl
  · obtain rfl : key = "profiles" := ofProfiles
    rw [previewProfiles_eq machine _ file there, previewProfiles_eq machine _ file there,
      profileChanges_alike machine cfg file alike]
  · rfl
  · rfl

theorem actionable_alike :
    actionable (previewChanges machine { cfg with profiles := profiles } file) =
      actionable (previewChanges machine cfg file) := by
  have byKind : ∀ changes key, actionable changes key =
      (changes.map ImportChange.kind).any fun kind => kind.1 = key && kind.2 ≠ .unchanged := by
    intro changes key
    rw [actionable, List.any_map]
    rfl
  funext key
  rw [byKind, byKind, previewChanges_alike machine cfg file alike]

theorem needed_alike :
    Needed (profileChanges machine { cfg with profiles := profiles } file) ↔
      Needed (profileChanges machine cfg file) := by
  have byKind : ∀ changes, Needed changes ↔ ∃ kind ∈ changes.map ImportChange.kind, kind.2 ≠ .unchanged := by
    intro changes
    simp [Needed, ImportChange.kind]
  rw [byKind, byKind, profileChanges_alike machine cfg file alike]

omit alike in
theorem checkProfiles_congr (quote : String → String) {list list' : List SessionProfile}
    (same : list'.map (fun p => (p.id, p.name)) = list.map fun p => (p.id, p.name)) (seen : List String) :
    checkProfiles quote seen list' = checkProfiles quote seen list := by
  have byName : ∀ list, checkProfiles quote seen list =
      checkProfiles quote seen ((list.map fun p => (p.id, p.name)).map fun named =>
        ⟨named.1, named.2, "", "", "", none, false⟩) := by
    intro list
    induction list generalizing seen with
    | nil => rfl
    | cons p list ih =>
      rw [List.map_cons, List.map_cons, checkProfiles, checkProfiles, ← ih]
  rw [byName list', byName list, same]

omit alike in
theorem resolveDefaultProfileID_congr (id : String) {list list' : List SessionProfile}
    (same : list'.map SessionProfile.id = list.map SessionProfile.id) :
    resolveDefaultProfileID id list' = resolveDefaultProfileID id list := by
  have byID : ∀ list : List SessionProfile,
      (list.any fun p => decide (p.id = id)) = (list.map SessionProfile.id).any fun named => decide (named = id) :=
    fun list => by rw [List.any_map]; rfl
  rw [resolveDefaultProfileID, resolveDefaultProfileID, byID, byID, same]

omit alike in
theorem map_alike {β : Type} {given list list' : List SessionProfile}
    (alike : List.Forall₂ (Alike given) list list') {f : SessionProfile → β}
    (same : ∀ p p', Alike given p p' → f p' = f p) : list'.map f = list.map f := by
  induction alike with
  | nil => rfl
  | @cons p p' _ _ first _ ih => rw [List.map_cons, List.map_cons, same p p' first, ih]

theorem unlisted_alike :
    List.Forall₂ (Alike (fileProfiles machine file))
      (unlisted cfg.profiles (fileProfiles machine file)) (unlisted profiles (fileProfiles machine file)) := by
  refine List.rel_filter (fun l l' same => ?_) alike
  dsimp only
  rw [same.id]

theorem names_importedProfiles_alike :
    (importedProfiles profiles (fileProfiles machine file)).map (fun p => (p.id, p.name)) =
      (importedProfiles cfg.profiles (fileProfiles machine file)).map fun p => (p.id, p.name) := by
  rw [names_importedProfiles, names_importedProfiles,
    map_alike (unlisted_alike machine cfg file alike) fun p p' same => by rw [same.id, same.name]]

theorem ids_importedProfiles_alike :
    (importedProfiles profiles (fileProfiles machine file)).map SessionProfile.id =
      (importedProfiles cfg.profiles (fileProfiles machine file)).map SessionProfile.id := by
  rw [ids_importedProfiles, ids_importedProfiles,
    map_alike (unlisted_alike machine cfg file alike) fun p p' same => same.id]

/-- **The list that is stored is the same of both**, up to the environments that are not shared. -/
theorem importedProfiles_alike
    (distinct : ((importedProfiles cfg.profiles (fileProfiles machine file)).map SessionProfile.id).Nodup) :
    stripUnsyncedEnv (importedProfiles profiles (fileProfiles machine file)) =
      stripUnsyncedEnv (importedProfiles cfg.profiles (fileProfiles machine file)) := by
  have rest := unlisted_alike machine cfg file alike
  have own : ((unlisted cfg.profiles (fileProfiles machine file)).map SessionProfile.id).Nodup :=
    (List.nodup_append.mp (ids_importedProfiles _ _ ▸ distinct)).2.1
  have own' : ((unlisted profiles (fileProfiles machine file)).map SessionProfile.id).Nodup := by
    rwa [map_alike rest fun p p' same => same.id]
  rw [importedProfiles_eq, importedProfiles_eq, List.map_congr_left fun l => mergeProfile_of_unlisted own,
    List.map_congr_left fun l => mergeProfile_of_unlisted own', List.map_id', List.map_id', stripUnsyncedEnv,
    stripUnsyncedEnv, List.map_append, List.map_append, map_alike rest fun p p' same => same.strip,
    List.map_map, List.map_map]
  congr 1
  refine List.map_congr_left fun q listed => ?_
  rcases lastWith_alike machine cfg file alike q.id with ⟨absent, absent'⟩ | ⟨l, l', found, found', same⟩
  · rw [Function.comp_apply, Function.comp_apply, importedProfile_of_absent absent,
      importedProfile_of_absent absent']
  · exact same.imported listed found found'

theorem stored_alike : Stored machine { cfg with profiles := profiles } file ↔ Stored machine cfg file := by
  rw [Stored, Stored, needed_alike machine cfg file alike,
    checkProfiles_congr machine.quote (names_importedProfiles_alike machine cfg file alike)]

theorem defaultBehind_alike :
    defaultBehind machine { cfg with profiles := profiles } file = defaultBehind machine cfg file := by
  rw [defaultBehind, defaultBehind, actionable_alike machine cfg file alike,
    resolveDefaultProfileID_congr _ (ids_importedProfiles_alike machine cfg file alike),
    resolveDefaultProfileID_congr _ (ids_importedProfiles_alike machine cfg file alike)]

omit alike in
theorem applyDefaultProfileID_snd (defaultProfileID : String) {merged merged' : List SessionProfile}
    (same : merged'.map SessionProfile.id = merged.map SessionProfile.id) (applied : List ChangeKey)
    (app app' : App S C) :
    (applyDefaultProfileID machine defaultProfileID merged' applied app').2 =
      (applyDefaultProfileID machine defaultProfileID merged applied app).2 := by
  rw [applyDefaultProfileID, applyDefaultProfileID, resolveDefaultProfileID_congr _ same]
  split_ifs
  · rfl
  · rw [SetDefaultProfileID, SetDefaultProfileID]
    cases machine.writeError .defaultProfileID <;> rfl

theorem profilesPart_snd_alike (app : App S C) (held : app.config.profiles = cfg.profiles) :
    (profilesPart machine { cfg with profiles := profiles } file
        { app with config := { app.config with profiles := profiles } }).2 =
      (profilesPart machine cfg file app).2 := by
  have checked := checkProfiles_congr machine.quote (names_importedProfiles_alike machine cfg file alike) []
  rw [profilesPart, profilesPart, actionable_alike machine cfg file alike,
    decide_eq_decide.mpr (needed_alike machine cfg file alike), importPart, importPart]
  by_cases needed : Needed (profileChanges machine cfg file)
  · obtain ⟨raw, payload, there, read, listed, _⟩ := exists_profilesPayload machine cfg file needed
    rw [if_pos (decide_eq_true needed), if_pos (decide_eq_true needed), there]
    dsimp only
    rw [applyProfilesImport, applyProfilesImport, read]
    dsimp only [validateProfilesPayload] at listed ⊢
    rw [← listed, if_neg (anyProfile_of_needed machine cfg file needed),
      if_neg (anyProfile_of_needed machine cfg file needed), SetProfiles, SetProfiles, held, checked]
    cases checkProfiles machine.quote [] (importedProfiles cfg.profiles (fileProfiles machine file)) with
    | some err => rfl
    | none =>
      cases machine.writeError .profiles with
      | some err => rfl
      | none =>
        dsimp only
        split_ifs
        · exact applyDefaultProfileID_snd machine _ (ids_importedProfiles_alike machine cfg file alike) _ _ _
        · rfl
  · rw [if_neg (by simpa using needed), if_neg (by simpa using needed)]

end Written

/-! ### What is shown -/

section

variable {J S C : Type} (machine : Machine J S) {file : ConfigExport J}
  (version : file.version = configExportVersion) (app : App S C) {profiles : List SessionProfile}
  (alike : List.Forall₂ (Alike (fileProfiles machine file)) app.config.profiles profiles)

include version alike

theorem import_shown :
    Shown (ApplyConfigImport machine (.ok file) app).1
      (ApplyConfigImport machine (.ok file)
        { app with config := { app.config with profiles := profiles } }).1 := by
  let app' : App S C := { app with config := { app.config with profiles := profiles } }
  have stripped : stripUnsyncedEnv profiles = stripUnsyncedEnv app.config.profiles :=
    map_alike alike fun p p' same => same.strip
  by_cases cut : CutShort machine app.config file
  · rw [applyConfigImport_cut machine app version cut, applyConfigImport_cut machine app' version cut]
    exact ⟨rfl, rfl, stripped, rfl, rfl, rfl⟩
  · rw [applyConfigImport_uncut machine app version cut, applyConfigImport_uncut machine app' version cut]
    have first := profilesPart_fst machine app.config file (withSSHCleared machine file app) rfl rfl
    have second := profilesPart_fst machine app'.config file (withSSHCleared machine file app') rfl rfl
    have outcome := profilesPart_snd_alike machine app.config file alike (withSSHCleared machine file app) rfl
    have settings : settingsBehind machine app'.config file = settingsBehind machine app.config file := by
      funext held
      rw [settingsBehind, settingsBehind, previewChanges_alike machine app.config file alike]
    have shown : Shown (profilesPart machine app.config file (withSSHCleared machine file app)).1
        (profilesPart machine app'.config file (withSSHCleared machine file app')).1 := by
      rw [first, second]
      by_cases stored : Stored machine app.config file
      · rw [if_pos stored, if_pos ((stored_alike machine app.config file alike).mpr stored)]
        refine ⟨rfl, rfl, ?_, defaultBehind_alike machine app.config file alike, rfl, rfl⟩
        exact importedProfiles_alike machine app.config file alike (checkProfiles_distinct _ _ stored.2).1
      · rw [if_neg stored, if_neg fun other => stored ((stored_alike machine app.config file alike).mp other)]
        exact ⟨rfl, rfl, stripped, rfl, rfl, rfl⟩
    change (profilesPart machine app'.config file (withSSHCleared machine file app')).2 = _ at outcome
    rcases reached : profilesPart machine app.config file (withSSHCleared machine file app) with
      ⟨behind, err | reported⟩
    all_goals
      rcases reached' : profilesPart machine app'.config file (withSSHCleared machine file app') with
        ⟨behind', err' | reported'⟩
      all_goals rw [reached, reached'] at outcome shown
    · exact shown
    · cases outcome
    · cases outcome
    · refine ⟨shown.hosts, shown.keys, shown.profiles, shown.defaultProfileID, ?_, shown.credentials⟩
      exact (congrFun settings _).trans (congrArg _ shown.settings)

end

def parsedProfiles {J S : Type} (machine : Machine J S) (parsed : Except String (ConfigExport J)) :
    List SessionProfile :=
  match parsed with
  | .ok file => fileProfiles machine file
  | .error _ => []

/-- The two apps differ only in environments that are not shared and that the file does not give. -/
structure Variants {S C : Type} (file : List SessionProfile) (app app' : App S C) : Prop where
  others : app' = { app with config := { app.config with profiles := app'.config.profiles } }
  profiles : List.Forall₂ (fun p p' => p' = p ∨ PrivateEnv file p p') app.config.profiles app'.config.profiles

theorem alike_of_variants {file list list' : List SessionProfile}
    (variants : List.Forall₂ (fun p p' => p' = p ∨ PrivateEnv file p p') list list')
    (presence : List.Forall₂ (SamePresence file) list list') : List.Forall₂ (Alike file) list list' := by
  induction variants with
  | nil => exact .nil
  | cons first _ ih =>
    cases presence with
    | cons here later => exact .cons (first.imp_right fun differ => ⟨differ, here⟩) (ih later)

/-- **What is exported and sealed after an import tells nothing of an environment that is not shared**, unless
the file gives it, or shares the profile without one. -/
theorem import_hides_env {J S C K : Type} (machine : Machine J S) (exporter : Exporter J S C K)
    (accountKey : List UInt8) (parsed : Except String (ConfigExport J)) (app app' : App S C)
    (variants : Variants (parsedProfiles machine parsed) app app')
    (presence : List.Forall₂ (SamePresence (parsedProfiles machine parsed)) app.config.profiles
      app'.config.profiles) :
    BuildConfigExport exporter false (ApplyConfigImport machine parsed app').1.config =
        BuildConfigExport exporter false (ApplyConfigImport machine parsed app).1.config ∧
      sealedSSHHosts exporter accountKey (ApplyConfigImport machine parsed app').1 =
        sealedSSHHosts exporter accountKey (ApplyConfigImport machine parsed app).1 ∧
      sealedProfiles exporter accountKey (ApplyConfigImport machine parsed app').1.config =
        sealedProfiles exporter accountKey (ApplyConfigImport machine parsed app).1.config := by
  have alike := alike_of_variants variants.profiles presence
  have unchanged : Shown app app' := by
    rw [variants.others]
    exact ⟨rfl, rfl, map_alike alike fun p p' same => same.strip, rfl, rfl, rfl⟩
  have shown : Shown (ApplyConfigImport machine parsed app).1 (ApplyConfigImport machine parsed app').1 := by
    cases parsed with
    | error err => exact unchanged
    | ok file =>
      by_cases version : file.version = configExportVersion
      · rw [variants.others]
        exact import_shown machine version app alike
      · rw [applyConfigImport_other machine file app version, applyConfigImport_other machine file app' version]
        exact unchanged
  exact ⟨shown_export exporter shown, shown_sealed exporter shown accountKey⟩

/-! ### A file that shares a profile without its environment -/

def tokenApp (token : Option String) : App Unit String where
  config := ⟨[], [], [{ sharedProfile (token.map fun t => ExtTreeMap.ofList [("TOKEN", t)]) with
    syncEnv := false }], "", ()⟩
  credentials := fun _ => none

def profilesExporter : Exporter ProfilesExportPayload Unit String String where
  readSetting := fun _ _ => none
  marshalSSHHosts := fun _ => ⟨[], ""⟩
  marshalProfiles := id
  sealSSHHosts := fun _ _ => none
  sealProfiles := fun _ payload => some payload
  keySecret := fun _ => none

theorem variants_tokenApp (token token' : Option String) :
    Variants (parsedProfiles profilesMachine (.ok sharedFile)) (tokenApp token) (tokenApp token') where
  others := rfl
  profiles := by
    refine .cons (.inr ⟨rfl, rfl, ?_⟩) .nil
    have bare : ∀ q ∈ parsedProfiles profilesMachine (.ok sharedFile), q.noEnv = true := by decide +kernel
    exact fun q listed _ => bare q listed

theorem import_hides_env_token :
    BuildConfigExport profilesExporter false
        (ApplyConfigImport profilesMachine (.ok sharedFile) (tokenApp (some "2"))).1.config =
      BuildConfigExport profilesExporter false
        (ApplyConfigImport profilesMachine (.ok sharedFile) (tokenApp (some "1"))).1.config :=
  (import_hides_env profilesMachine profilesExporter [] (.ok sharedFile) (tokenApp (some "1"))
    (tokenApp (some "2")) (variants_tokenApp _ _) (.cons (fun _ _ _ _ => by decide +kernel) .nil)).1

/-- Where one configuration holds an environment and the other none, the file turns sharing on for the latter. -/
theorem absence_is_told :
    Variants (parsedProfiles profilesMachine (.ok sharedFile)) (tokenApp (some "1")) (tokenApp none) ∧
      BuildConfigExport profilesExporter false
          (ApplyConfigImport profilesMachine (.ok sharedFile) (tokenApp none)).1.config ≠
        BuildConfigExport profilesExporter false
          (ApplyConfigImport profilesMachine (.ok sharedFile) (tokenApp (some "1"))).1.config := by
  refine ⟨variants_tokenApp _ _, fun same => ?_⟩
  have told : (BuildConfigExport profilesExporter false
        (ApplyConfigImport profilesMachine (.ok sharedFile) (tokenApp none)).1.config).preferences["profiles"]? ≠
      (BuildConfigExport profilesExporter false
        (ApplyConfigImport profilesMachine (.ok sharedFile)
          (tokenApp (some "1"))).1.config).preferences["profiles"]? := by decide +kernel
  exact told (congrArg (fun file => file.preferences["profiles"]?) same)

end Atterm.ConfigImport
