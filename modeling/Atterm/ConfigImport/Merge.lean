/-
**The merge of the profiles.**

A profile of the file that has no environment takes the one that is held, and with it whether it is shared. A
list that was accepted is what it becomes when it is imported once more.

* `importedProfile`, `importedProfile_cases` — a profile of the file behind the merge;
* `lastWith_importedProfiles` — it is the record of its id;
* `ids_importedProfiles` — no id that is held is lost.
-/

import Atterm.ConfigImport.Apply

namespace Atterm.ConfigImport

open Atterm.Foundation

/-! ### One profile -/

def importedProfile (held : List SessionProfile) (p : SessionProfile) : SessionProfile :=
  mergeProfile held (pinSyncEnv held p)

theorem mergeProfile_of_env {held : List SessionProfile} {p : SessionProfile} (env : p.noEnv = false) :
    mergeProfile held p = p := by
  rw [mergeProfile, env, if_neg (by decide)]

theorem mergeProfile_cases (held : List SessionProfile) (p : SessionProfile) :
    mergeProfile held p = p ∨ ∃ l, lastWith SessionProfile.id p.id held = some l ∧ p.noEnv = true ∧
      l.noEnv = false ∧ mergeProfile held p = { p with env := l.env } := by
  rw [mergeProfile]
  split_ifs with empty
  · cases found : lastWith SessionProfile.id p.id held with
    | none => exact .inl rfl
    | some l =>
      dsimp only
      split_ifs with heldEmpty
      · exact .inl rfl
      · exact .inr ⟨l, rfl, empty, Bool.eq_false_iff.mpr heldEmpty, rfl⟩
  · exact .inl rfl

/-- **A profile of the file as it is, or with the environment that is held.** -/
theorem importedProfile_cases (held : List SessionProfile) (p : SessionProfile) :
    (importedProfile held p = p ∧
        ∀ l, lastWith SessionProfile.id p.id held = some l → p.noEnv = true → l.noEnv = true) ∨
      ∃ l, lastWith SessionProfile.id p.id held = some l ∧ p.noEnv = true ∧ l.noEnv = false ∧
        importedProfile held p = { p with syncEnv := l.syncEnv, env := l.env } := by
  cases empty : p.noEnv with
  | false =>
    have kept : pinSyncEnv held p = p := by rw [pinSyncEnv, empty, if_neg (by decide)]
    rw [importedProfile, kept, mergeProfile_of_env empty]
    exact .inl ⟨rfl, fun _ _ other => nomatch other⟩
  | true =>
    cases found : lastWith SessionProfile.id p.id held with
    | none =>
      refine .inl ⟨?_, fun _ other => nomatch other⟩
      rw [importedProfile, pinSyncEnv, found, if_pos empty, mergeProfile, found, if_pos empty]
    | some l =>
      cases heldEmpty : l.noEnv with
      | true =>
        refine .inl ⟨?_, fun l' same _ => Option.some.inj same ▸ heldEmpty⟩
        simp [importedProfile, pinSyncEnv, mergeProfile, found, empty, heldEmpty]
      | false =>
        refine .inr ⟨l, rfl, rfl, heldEmpty, ?_⟩
        have pinned : pinSyncEnv held p = { p with syncEnv := l.syncEnv } := by
          simp [pinSyncEnv, found, empty, heldEmpty]
        have still : ({ p with syncEnv := l.syncEnv } : SessionProfile).noEnv = true := empty
        rw [importedProfile, pinned, mergeProfile, if_pos still]
        simp [found, heldEmpty]

theorem importedProfile_of_found {held : List SessionProfile} {l p : SessionProfile}
    (found : lastWith SessionProfile.id p.id held = some l) :
    importedProfile held p =
      if p.noEnv = true ∧ l.noEnv = false then { p with syncEnv := l.syncEnv, env := l.env } else p := by
  rcases importedProfile_cases held p with ⟨same, empty⟩ | ⟨l', found', empty, heldEnv, merged⟩
  · rw [same, if_neg fun both => Bool.false_ne_true (both.2.symm.trans (empty l found both.1))]
  · rw [found] at found'
    cases found'
    rw [merged, if_pos ⟨empty, heldEnv⟩]

theorem importedProfile_of_absent {held : List SessionProfile} {p : SessionProfile}
    (absent : lastWith SessionProfile.id p.id held = none) : importedProfile held p = p := by
  rcases importedProfile_cases held p with ⟨same, _⟩ | ⟨l, found, _⟩
  · exact same
  · cases absent.symm.trans found

@[simp] theorem mergeProfile_id (held : List SessionProfile) (p : SessionProfile) :
    (mergeProfile held p).id = p.id := by
  rcases mergeProfile_cases held p with same | ⟨l, _, _, _, merged⟩
  · rw [same]
  · rw [merged]

@[simp] theorem importedProfile_id (held : List SessionProfile) (p : SessionProfile) :
    (importedProfile held p).id = p.id := by
  rcases importedProfile_cases held p with ⟨same, _⟩ | ⟨l, _, _, _, merged⟩
  · rw [same]
  · rw [merged]

@[simp] theorem mergeProfile_name (held : List SessionProfile) (p : SessionProfile) :
    (mergeProfile held p).name = p.name := by
  rcases mergeProfile_cases held p with same | ⟨l, _, _, _, merged⟩
  · rw [same]
  · rw [merged]

@[simp] theorem importedProfile_name (held : List SessionProfile) (p : SessionProfile) :
    (importedProfile held p).name = p.name := by
  rcases importedProfile_cases held p with ⟨same, _⟩ | ⟨l, _, _, _, merged⟩
  · rw [same]
  · rw [merged]

/-! ### The list -/

def unlisted (held fileProfiles : List SessionProfile) : List SessionProfile :=
  held.filter fun l => !fileProfiles.any fun p => p.id = l.id

theorem mem_unlisted_iff (held fileProfiles : List SessionProfile) (l : SessionProfile) :
    l ∈ unlisted held fileProfiles ↔ l ∈ held ∧ ∀ p ∈ fileProfiles, p.id ≠ l.id := by
  simp [unlisted]

theorem importedProfiles_eq (held fileProfiles : List SessionProfile) :
    importedProfiles held fileProfiles =
      fileProfiles.map (importedProfile held) ++ (unlisted held fileProfiles).map (mergeProfile held) := by
  rw [importedProfiles, mergeProfiles, incomingProfiles, List.map_append, List.map_map]
  rfl

theorem ids_importedProfiles (held fileProfiles : List SessionProfile) :
    (importedProfiles held fileProfiles).map SessionProfile.id =
      fileProfiles.map SessionProfile.id ++ (unlisted held fileProfiles).map SessionProfile.id := by
  rw [importedProfiles_eq, List.map_append, List.map_map, List.map_map]
  congr 1 <;> exact List.map_congr_left fun p _ => by simp

theorem names_importedProfiles (held fileProfiles : List SessionProfile) :
    (importedProfiles held fileProfiles).map (fun p => (p.id, p.name)) =
      fileProfiles.map (fun p => (p.id, p.name)) ++
        (unlisted held fileProfiles).map fun p => (p.id, p.name) := by
  rw [importedProfiles_eq, List.map_append, List.map_map, List.map_map]
  congr 1 <;> exact List.map_congr_left fun p _ => by simp

theorem mergeProfile_of_unlisted {held fileProfiles : List SessionProfile}
    (distinct : ((unlisted held fileProfiles).map SessionProfile.id).Nodup) {l : SessionProfile}
    (inside : l ∈ unlisted held fileProfiles) : mergeProfile held l = l := by
  rcases mergeProfile_cases held l with same | ⟨x, found, empty, heldEnv, _⟩
  · exact same
  · obtain ⟨there, sameID⟩ := lastWith_mem found
    have outside : x ∈ unlisted held fileProfiles :=
      (mem_unlisted_iff _ _ _).mpr ⟨there, sameID ▸ ((mem_unlisted_iff _ _ _).mp inside).2⟩
    cases List.inj_on_of_nodup_map distinct outside inside sameID
    cases empty.symm.trans heldEnv

theorem mem_ids_importedProfiles {held : List SessionProfile} (fileProfiles : List SessionProfile)
    {l : SessionProfile} (inside : l ∈ held) :
    l.id ∈ (importedProfiles held fileProfiles).map SessionProfile.id := by
  rw [ids_importedProfiles, List.mem_append]
  by_cases listed : ∃ p ∈ fileProfiles, p.id = l.id
  · obtain ⟨p, of, same⟩ := listed
    exact .inl (List.mem_map.mpr ⟨p, of, same⟩)
  · refine .inr (List.mem_map_of_mem ((mem_unlisted_iff _ _ _).mpr ⟨inside, fun p of same => ?_⟩))
    exact listed ⟨p, of, same⟩

/-- **A profile of the file is the record of its id.** -/
theorem lastWith_importedProfiles (held : List SessionProfile) {fileProfiles : List SessionProfile}
    (distinct : (fileProfiles.map SessionProfile.id).Nodup) {p : SessionProfile} (listed : p ∈ fileProfiles) :
    lastWith SessionProfile.id p.id (importedProfiles held fileProfiles) =
      some (importedProfile held p) := by
  have elsewhere : lastWith SessionProfile.id p.id ((unlisted held fileProfiles).map (mergeProfile held)) =
      none := by
    rw [lastWith_eq_none_iff, List.forall_mem_map]
    intro l inside same
    exact ((mem_unlisted_iff _ _ _).mp inside).2 p listed ((mergeProfile_id held l).symm.trans same).symm
  have ids : (fileProfiles.map (importedProfile held)).map SessionProfile.id =
      fileProfiles.map SessionProfile.id := by
    rw [List.map_map]
    exact List.map_congr_left fun p _ => importedProfile_id held p
  have here := lastWith_of_mem (ids ▸ distinct) (List.mem_map_of_mem (f := importedProfile held) listed)
  rw [importedProfile_id] at here
  rw [importedProfiles_eq, lastWith_append, elsewhere, here, Option.none_or]

/-! ### Once more -/

theorem checkProfiles_distinct (quote : String → String) (seen : List String)
    {profiles : List SessionProfile} (accepted : checkProfiles quote seen profiles = none) :
    (profiles.map SessionProfile.id).Nodup ∧ ∀ p ∈ profiles, trim p.id ∉ seen := by
  induction profiles generalizing seen with
  | nil => exact ⟨List.nodup_nil, fun _ listed => nomatch listed⟩
  | cons p rest ih =>
    rw [checkProfiles] at accepted
    split_ifs at accepted with _ listed _
    obtain ⟨distinct, fresh⟩ := ih _ accepted
    refine ⟨List.nodup_cons.mpr ⟨fun again => ?_, distinct⟩, ?_⟩
    · obtain ⟨other, later, same⟩ := List.mem_map.mp again
      exact fresh other later (same ▸ List.mem_cons_self)
    · intro other inside
      rcases List.mem_cons.mp inside with rfl | later
      · exact listed
      · exact fun old => fresh other later (List.mem_cons_of_mem _ old)

theorem mergeProfile_of_mem {held : List SessionProfile} (distinct : (held.map SessionProfile.id).Nodup)
    {p : SessionProfile} (inside : p ∈ held) : mergeProfile held p = p := by
  rcases mergeProfile_cases held p with same | ⟨l, found, empty, heldEnv, _⟩
  · exact same
  · rw [lastWith_of_mem distinct inside] at found
    cases found
    cases empty.symm.trans heldEnv

theorem unlisted_importedProfiles (held fileProfiles : List SessionProfile) :
    unlisted (importedProfiles held fileProfiles) fileProfiles =
      (unlisted held fileProfiles).map (mergeProfile held) := by
  have ofFile : (fileProfiles.map (importedProfile held)).filter
      (fun l => !fileProfiles.any fun p => p.id = l.id) = [] := by
    rw [List.filter_eq_nil_iff, List.forall_mem_map]
    intro p listed
    simpa using ⟨p, listed, rfl⟩
  have rest : ((unlisted held fileProfiles).map (mergeProfile held)).filter
      (fun l => !fileProfiles.any fun p => p.id = l.id) =
        (unlisted held fileProfiles).map (mergeProfile held) := by
    rw [List.filter_eq_self, List.forall_mem_map]
    intro l inside
    simpa using ((mem_unlisted_iff _ _ _).mp inside).2
  rw [unlisted, importedProfiles_eq, List.filter_append, ofFile, rest, List.nil_append]

/-- **An imported list is what it becomes when it is imported once more.** -/
theorem importedProfiles_again {held fileProfiles : List SessionProfile}
    (distinct : ((importedProfiles held fileProfiles).map SessionProfile.id).Nodup) :
    importedProfiles (importedProfiles held fileProfiles) fileProfiles =
      importedProfiles held fileProfiles := by
  have listed : (fileProfiles.map SessionProfile.id).Nodup :=
    (List.nodup_append.mp (ids_importedProfiles held fileProfiles ▸ distinct)).1
  rw [importedProfiles_eq (importedProfiles held fileProfiles), unlisted_importedProfiles, List.map_map]
  conv_rhs => rw [importedProfiles_eq]
  congr 1
  · refine List.map_congr_left fun p inside => ?_
    have found := lastWith_importedProfiles held listed inside
    rcases importedProfile_cases held p with ⟨same, none⟩ | ⟨l, _, empty, heldEnv, merged⟩
    · rcases importedProfile_cases (importedProfiles held fileProfiles) p with
        ⟨again, _⟩ | ⟨l', found', empty, heldEnv, _⟩
      · rw [again, same]
      · rw [found, same] at found'
        cases found'
        cases empty.symm.trans heldEnv
    · rcases importedProfile_cases (importedProfiles held fileProfiles) p with
        ⟨_, none⟩ | ⟨l', found', _, _, again⟩
      · have := none _ found empty
        rw [merged] at this
        cases this.symm.trans heldEnv
      · rw [found] at found'
        cases found'
        rw [again, merged]
  · refine List.map_congr_left fun l inside => mergeProfile_of_mem distinct ?_
    rw [importedProfiles_eq]
    exact List.mem_append_right _ (List.mem_map_of_mem inside)

end Atterm.ConfigImport
