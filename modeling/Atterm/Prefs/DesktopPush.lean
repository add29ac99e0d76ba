/-
**What a push of the desktop reconciles.**

The answer to a push lists every row of the user, also rows of keys the client does not sync. A row is
tried if the stamp of its key is the one that was sent, and zero counts as sent for a key that was not
sent. The first row that cannot be applied ends the push.

* `DesktopEdit` — an edit of the configuration while the push is under way;
* `Clear` — nothing up to the row of a key ends the push;
* `push_reconciles_iff` — the keys that were sent are reconciled exactly if the way to each is clear.
-/

import Atterm.Prefs.Desktop

namespace Atterm.Prefs

open Atterm.Foundation
open Std (ExtTreeMap)

/-- An edit of the configuration, and for the hosts of the keyring. -/
inductive DesktopEdit where
  | field (key : PrefKey) (value : key.Field)
  | hosts (hosts : List SSHHost) (keys : List SSHKey) (sshCredential : String → String)
      (sshKeySecret : String → SSHKeySecret)

namespace DesktopEdit

def name : DesktopEdit → String
  | field key _ => key.name
  | hosts _ _ _ _ => PrefKey.name .sshHostsEncrypted

def apply (state : Desktop) : DesktopEdit → Desktop
  | .field key value => { state with config := Function.update state.config key value }
  | .hosts saved keys credential secret =>
    { state with
      config := Function.update state.config .sshHostsEncrypted (saved, keys)
      sshCredential := credential
      sshKeySecret := secret }

end DesktopEdit

section Push

variable {K : Type} (P : Platform K)

/-- A setter: the configuration is changed and the key is marked. -/
def Desktop.edit (machine : Machine K) (state : Desktop) (change : DesktopEdit) (clock : ℤ) : Desktop :=
  markDirty (desktopAdapter P machine) (change.apply state) change.name clock

/-- No row that is tried, up to the one of the key, is one the client cannot apply. -/
def Clear (machine : Machine K) (tried : String → Prop) (key : String) :
    List (ServerItem Json) → Prop
  | [] => True
  | row :: rest => (tried row.key → applicable P machine row.key row.value) ∧
      (row.key = key ∨ Clear machine tried key rest)

instance decidableClear (machine : Machine K) (tried : String → Prop) [DecidablePred tried]
    (key : String) : (rows : List (ServerItem Json)) → Decidable (Clear P machine tried key rows)
  | [] => isTrue trivial
  | row :: rest =>
    have : Decidable (Clear P machine tried key rest) := decidableClear machine tried key rest
    inferInstanceAs (Decidable ((_ → applicable P machine row.key _) ∧
      (_ ∨ Clear P machine tried key rest)))

variable {P}

theorem reconcile_cons (machine : Machine K) (items : List (ClientItem Json)) (state : Desktop)
    (row : ServerItem Json) (rest : List (ServerItem Json)) :
    ((state.prefsMeta row.key).updatedAtLocal ≠ sentAt items row.key ∧
      reconcile (desktopAdapter P machine) items state (row :: rest)
        = reconcile (desktopAdapter P machine) items state rest) ∨
    ((state.prefsMeta row.key).updatedAtLocal = sentAt items row.key ∧
      ¬ applicable P machine row.key row.value ∧
      (reconcile (desktopAdapter P machine) items state (row :: rest)).2.prefsMeta
        = state.prefsMeta) ∨
    ((state.prefsMeta row.key).updatedAtLocal = sentAt items row.key ∧
      applicable P machine row.key row.value ∧ ∃ after : Desktop,
      after.prefsMeta = Function.update state.prefsMeta row.key ⟨row.updatedAt, false⟩ ∧
      reconcile (desktopAdapter P machine) items state (row :: rest)
        = reconcile (desktopAdapter P machine) items after rest) := by
  by_cases tried : (state.prefsMeta row.key).updatedAtLocal = sentAt items row.key
  · have stamps := writeValue_prefsMeta (P := P) machine state row.key row.value
    have refuses := writeValue_error_iff (P := P) machine state row.key row.value
    have stamp : ((desktopAdapter P machine).readMeta state row.key).updatedAtLocal
        = sentAt items row.key := tried
    rcases written : writeValue P machine state row.key row.value with ⟨_ | error, after⟩
    · rw [written] at stamps refuses
      have head : (desktopAdapter P machine).writeValue state row.key row.value
          = (none, after) := written
      refine .inr (.inr ⟨tried, refuses.mp rfl, (writeMeta after row.key ⟨row.updatedAt, false⟩).2,
        ?_, ?_⟩)
      · show Function.update after.prefsMeta row.key _ = _
        rw [stamps]
      · rw [reconcile, if_neg (not_not.mpr stamp), head]
        rfl
    · rw [written] at stamps refuses
      have head : (desktopAdapter P machine).writeValue state row.key row.value
          = (some error, after) := written
      refine .inr (.inl ⟨tried, fun can => Option.some_ne_none error (refuses.mpr can), ?_⟩)
      rw [reconcile, if_neg (not_not.mpr stamp), head]
      exact stamps
  · refine .inl ⟨tried, ?_⟩
    have stamp : ((desktopAdapter P machine).readMeta state row.key).updatedAtLocal
        ≠ sentAt items row.key := tried
    rw [reconcile, if_pos stamp]

theorem reconcile_prefsMeta_of_notMem (machine : Machine K) (items : List (ClientItem Json))
    {rows : List (ServerItem Json)} {key : String} (absent : key ∉ rows.map ServerItem.key)
    (state : Desktop) :
    (reconcile (desktopAdapter P machine) items state rows).2.prefsMeta key
      = state.prefsMeta key := by
  induction rows generalizing state with
  | nil => rfl
  | cons row rest ih =>
    rw [List.map_cons, List.mem_cons, not_or] at absent
    rcases reconcile_cons (P := P) machine items state row rest with
      ⟨_, same⟩ | ⟨_, _, same⟩ | ⟨_, _, after, stamps, same⟩
    · rw [same]
      exact ih absent.2 state
    · rw [same]
    · rw [same, ih absent.2 after, stamps]
      exact Function.update_of_ne absent.1 _ _

/-- **A row that is tried** is taken if the way to it is clear, and otherwise its key keeps its
stamp. -/
theorem reconcile_prefsMeta_of_mem (machine : Machine K) (items : List (ClientItem Json))
    {rows : List (ServerItem Json)} (distinct : (rows.map ServerItem.key).Nodup)
    {tried : String → Prop} (state : Desktop)
    (stamp : ∀ row ∈ rows,
      (tried row.key ↔ (state.prefsMeta row.key).updatedAtLocal = sentAt items row.key))
    {row : ServerItem Json} (member : row ∈ rows) (own : tried row.key) :
    (Clear P machine tried row.key rows →
      (reconcile (desktopAdapter P machine) items state rows).2.prefsMeta row.key
        = ⟨row.updatedAt, false⟩) ∧
    (¬ Clear P machine tried row.key rows →
      (reconcile (desktopAdapter P machine) items state rows).2.prefsMeta row.key
        = state.prefsMeta row.key) := by
  induction rows generalizing state with
  | nil => cases member
  | cons first rest ih =>
    rw [List.map_cons, List.nodup_cons] at distinct
    rw [List.forall_mem_cons] at stamp
    rw [Clear]
    rcases List.mem_cons.mp member with rfl | later
    · rcases reconcile_cons (P := P) machine items state row rest with
        ⟨untried, _⟩ | ⟨_, refused, same⟩ | ⟨_, applied, after, stamps, same⟩
      · exact absurd (stamp.1.mp own) untried
      · rw [same]
        exact ⟨fun clear => absurd (clear.1 own) refused, fun _ => rfl⟩
      · rw [same, reconcile_prefsMeta_of_notMem machine items distinct.1 after, stamps,
          Function.update_self]
        exact ⟨fun _ => rfl, fun blocked => absurd ⟨fun _ => applied, .inl rfl⟩ blocked⟩
    · have other : row.key ≠ first.key := fun same => distinct.1 (same ▸ List.mem_map_of_mem later)
      have skip : ∀ key, (first.key = row.key ∨ Clear P machine tried key rest) ↔
          Clear P machine tried key rest := fun key => or_iff_right (Ne.symm other)
      rw [skip]
      rcases reconcile_cons (P := P) machine items state first rest with
        ⟨untried, same⟩ | ⟨untouched, refused, same⟩ | ⟨_, applied, after, stamps, same⟩
      · rw [same]
        have passed : (tried first.key → applicable P machine first.key first.value) :=
          fun tries => absurd (stamp.1.mp tries) untried
        obtain ⟨taken, kept⟩ := ih distinct.2 state stamp.2 later
        exact ⟨fun clear => taken clear.2, fun blocked => kept fun clear => blocked ⟨passed, clear⟩⟩
      · rw [same]
        exact ⟨fun clear => absurd (clear.1 (stamp.1.mpr untouched)) refused, fun _ => rfl⟩
      · have apart : ∀ other ∈ rest, other.key ≠ first.key :=
          fun other member same => distinct.1 (same ▸ List.mem_map_of_mem member)
        have stamp' : ∀ other ∈ rest, (tried other.key ↔
            (after.prefsMeta other.key).updatedAtLocal = sentAt items other.key) := by
          intro other member
          rw [stamps, Function.update_of_ne (apart other member)]
          exact stamp.2 other member
        rw [same]
        obtain ⟨taken, kept⟩ := ih distinct.2 after stamp' later
        refine ⟨fun clear => taken clear.2, fun blocked => ?_⟩
        rw [kept fun clear => blocked ⟨fun _ => applied, clear⟩, stamps,
          Function.update_of_ne other]

def Desktop.edits (P : Platform K) (machine : Machine K) (state : Desktop)
    (changes : List (DesktopEdit × ℤ)) : Desktop :=
  changes.foldl (fun state change => state.edit P machine change.1 change.2) state

theorem dirty_edits (machine : Machine K) (changes : List (DesktopEdit × ℤ)) {state : Desktop}
    {key : String} (dirty : (state.prefsMeta key).dirty) :
    ((state.edits P machine changes).prefsMeta key).dirty := by
  unfold Desktop.edits
  induction changes generalizing state with
  | nil => exact dirty
  | cons change rest ih =>
    rw [List.foldl_cons]
    refine ih ?_
    have stamps : (change.1.apply state).prefsMeta = state.prefsMeta := by
      cases change.1 with
      | field key value => rfl
      | hosts saved keys credential secret => rfl
    show (Function.update (change.1.apply state).prefsMeta change.1.name _ key).dirty
    by_cases same : key = change.1.name
    · rw [same, Function.update_self]
    · rw [Function.update_of_ne same, stamps]
      exact dirty

/-- A push tries to take the row of a key whose stamp is the one that was sent. -/
def Tried (items : List (ClientItem Json)) (state : Desktop) (key : String) : Prop :=
  (state.prefsMeta key).updatedAtLocal = sentAt items key

instance (items : List (ClientItem Json)) (state : Desktop) : DecidablePred (Tried items state) :=
  fun _ => inferInstanceAs (Decidable (_ = _))

/-- **A push reconciles every key it sent**, and that was not edited meanwhile, exactly if the way to
each of them is clear. -/
theorem push_reconciles_iff (P : Platform K) (rules : ValueRules Json) (sending answering : Machine K)
    (state : Desktop) (table after : Table Json) (serverNowMs : ℤ) (walk : Walk (ServerItem Json))
    (rows : List (ServerItem Json)) (changes : List (DesktopEdit × ℤ))
    (served : setUserPreferences rules table serverNowMs (pushItems (desktopAdapter P sending) state)
      walk = .ok (after, rows)) :
    (∀ item ∈ pushItems (desktopAdapter P sending) state,
      ((state.edits P answering changes).prefsMeta item.key).updatedAtLocal = item.clientUpdatedAt →
        ∃ row, after[item.key]? = some row ∧
          (reconcile (desktopAdapter P answering) (pushItems (desktopAdapter P sending) state)
            (state.edits P answering changes) rows).2.prefsMeta item.key
          = ⟨row.updatedAt, false⟩) ↔
    ∀ item ∈ pushItems (desktopAdapter P sending) state,
      ((state.edits P answering changes).prefsMeta item.key).updatedAtLocal = item.clientUpdatedAt →
        Clear P answering (Tried (pushItems (desktopAdapter P sending) state)
          (state.edits P answering changes)) item.key rows := by
  obtain ⟨rfl, rfl⟩ := setUserPreferences_ok served
  have distinct : ((pushItems (desktopAdapter P sending) state).map ClientItem.key).Nodup :=
    nodup_map_key_pushItems (desktopAdapter P sending) nodup_sortedKeys state
  refine forall_congr' fun item => forall_congr' fun member => forall_congr' fun unedited => ?_
  obtain ⟨row, held⟩ := exists_row_of_mem serverNowMs distinct member table
  have tried : Tried (pushItems (desktopAdapter P sending) state) (state.edits P answering changes)
      item.key := unedited.trans (sentAt_of_mem distinct member).symm
  obtain ⟨taken, kept⟩ := reconcile_prefsMeta_of_mem (P := P) answering
    (pushItems (desktopAdapter P sending) state) (nodup_keys_getUserPreferences _ walk)
    (state.edits P answering changes) (fun _ _ => Iff.rfl) (mem_getUserPreferences held walk) tried
  constructor
  · rintro ⟨other, there, reconciled⟩
    by_contra blocked
    have dirty : ((state.edits P answering changes).prefsMeta item.key).dirty :=
      dirty_edits answering changes (of_mem_pushItems _ member).2.1
    rw [← kept blocked, reconciled] at dirty
    cases dirty
  · exact fun clear => ⟨row, held, taken clear⟩

section Sample

/-- Nothing is sealed, and numbers are as they are. -/
def plainPlatform : Platform Unit where
  loadsLocation := fun _ => true
  float64 := some
  openSSHHosts := fun _ _ => .error "cipher: message authentication failed"
  openProfiles := fun _ _ => .error "cipher: message authentication failed"
  sealSSHHosts := fun _ _ _ => none
  sealProfiles := fun _ _ _ _ => none

/-- The rules of the relay, on values of the right type. -/
def typedRules : ValueRules Json := ⟨fun _ _ => true, fun _ => "UTC", fun _ => true⟩

def editedSample : Desktop :=
  Desktop.fresh.edit plainPlatform ⟨none, 0, true⟩ (.field .terminalFontSize (14 : ℤ)) 100

theorem sample_sent : ⟨"terminal_font_size", .int 14, 100⟩ ∈
    pushItems (desktopAdapter plainPlatform ⟨none, 0, true⟩) editedSample :=
  List.mem_filterMap.mpr ⟨"terminal_font_size", mem_sortedKeys.mpr (by decide), rfl⟩

theorem sample_checked : checkItems typedRules
    (pushItems (desktopAdapter plainPlatform ⟨none, 0, true⟩) editedSample) = .ok () := by
  decide

/-- The relay still has a shell that an older client wrote. -/
def retiredRow : Table Json := (∅ : Table Json).insert "default_shell" ⟨.string "zsh", 7⟩

/-- **The retired row ends the push** before the font size is reached. -/
theorem retired_row_blocks : ¬ ∀ (K : Type) (P : Platform K) (rules : ValueRules Json)
    (sending answering : Machine K) (state : Desktop) (table after : Table Json) (serverNowMs : ℤ)
    (walk : Walk (ServerItem Json)) (rows : List (ServerItem Json))
    (changes : List (DesktopEdit × ℤ)),
    (∀ row ∈ rows, row.key ∈ allowedPreferenceKeys.map Prod.fst) →
    setUserPreferences rules table serverNowMs (pushItems (desktopAdapter P sending) state) walk
      = .ok (after, rows) →
    ∀ item ∈ pushItems (desktopAdapter P sending) state,
      ((state.edits P answering changes).prefsMeta item.key).updatedAtLocal = item.clientUpdatedAt →
        ∃ row, after[item.key]? = some row ∧
          (reconcile (desktopAdapter P answering) (pushItems (desktopAdapter P sending) state)
            (state.edits P answering changes) rows).2.prefsMeta item.key
          = ⟨row.updatedAt, false⟩ := by
  intro reconciles
  have served : setUserPreferences typedRules retiredRow 1000
      (pushItems (desktopAdapter plainPlatform ⟨none, 0, true⟩) editedSample) (.straight _)
        = .ok (_, _) := bind_ok_iff.mpr ⟨(), sample_checked, rfl⟩
  obtain ⟨row, _, stamped⟩ := reconciles Unit plainPlatform typedRules ⟨none, 0, true⟩ ⟨none, 0, true⟩
    editedSample retiredRow _ 1000 (.straight _) _ [] (by decide) served
    ⟨"terminal_font_size", .int 14, 100⟩ sample_sent (by decide)
  have cleaned : _ = false := congrArg Meta.dirty stamped
  exact absurd cleaned (by decide)

theorem push_reconciles_sample : ∃ row,
    ((pushItems (desktopAdapter plainPlatform ⟨none, 0, true⟩) editedSample).foldl (upsert 1000)
      ∅)["terminal_font_size"]? = some row ∧
    (reconcile (desktopAdapter plainPlatform ⟨none, 0, true⟩)
      (pushItems (desktopAdapter plainPlatform ⟨none, 0, true⟩) editedSample) editedSample
      (getUserPreferences ((pushItems (desktopAdapter plainPlatform ⟨none, 0, true⟩)
        editedSample).foldl (upsert 1000) ∅) (.straight _))).2.prefsMeta "terminal_font_size"
    = ⟨row.updatedAt, false⟩ := by
  have served : setUserPreferences typedRules ∅ 1000
      (pushItems (desktopAdapter plainPlatform ⟨none, 0, true⟩) editedSample) (.straight _)
        = .ok (_, _) := bind_ok_iff.mpr ⟨(), sample_checked, rfl⟩
  refine (push_reconciles_iff plainPlatform typedRules ⟨none, 0, true⟩ ⟨none, 0, true⟩ editedSample ∅ _
    1000 (.straight _) _ [] served).mpr ?_ ⟨"terminal_font_size", .int 14, 100⟩ sample_sent
    (by decide)
  decide

end Sample

end Push

end Atterm.Prefs
