/-
**The relay as a second home of the configuration.**

`RelayCompatibility` imports the values the relay holds and plans exports of the local ones. A
planned value is remembered by its hash until the relay sends it back, so that the echo is not
imported as a foreign change. A poll that still returns the previous value forgets the hash.

* `forEachKey_of_find` — what a batch does to one key is what its first item for the key does;
* `echo_suppressed_iff` — when the echo of a planned value is suppressed;
* `stale_poll_reimports` — an echo that is handed to the import.
-/

import Atterm.ConfigSync.Op
import Atterm.Foundation.Runs

namespace Atterm.ConfigSync

open Std (ExtTreeMap)
open Atterm.Foundation

/-! ### The relay schema -/

/-- How a relay preference is represented in the replica. -/
inductive RelayValueMode where
  | scalar
  | recordArray
  | sealedBundle
deriving DecidableEq, Repr

/-- The JSON type of a relay preference. -/
inductive RelayShape where
  | string
  | bool
  | int
  | number
  | stringArray
  | stringMap
  | templateList
  | sealedText
deriving DecidableEq, Repr

structure RelayKeySpec where
  key : String
  mode : RelayValueMode
  collections : List String
  keyClasses : List KeyClass
  shape : RelayShape
deriving DecidableEq, Repr

def RelayKeySpec.preference (key : String) (shape : RelayShape) : RelayKeySpec :=
  ⟨key, .scalar, ["preferences"], [.sync], shape⟩

def relayKeySpecs : List RelayKeySpec :=
  [.preference "ai_notifications_only" .bool,
    .preference "command_notify_threshold_seconds" .int,
    .preference "locale_preference" .string,
    .preference "notifications_enabled" .bool,
    .preference "pinned_session_ids" .stringArray,
    ⟨"profiles_encrypted", .sealedBundle, ["profiles", "profile_config", "profile_env"],
      [.sync, .vault], .sealedText⟩,
    ⟨"quick_templates", .recordArray, ["quick_templates"], [.sync], .templateList⟩,
    .preference "shell_integration_enabled" .bool,
    .preference "shortcut_bindings" .stringMap,
    ⟨"ssh_hosts_encrypted", .sealedBundle,
      ["ssh_hosts", "ssh_keys", "ssh_credentials", "ssh_key_secrets"], [.sync, .vault],
      .sealedText⟩,
    .preference "terminal_cursor_blink" .bool,
    .preference "terminal_cursor_style" .string,
    .preference "terminal_font_head" .string,
    .preference "terminal_font_size" .int,
    .preference "terminal_line_height" .number,
    .preference "terminal_scrollback" .int,
    .preference "terminal_theme" .string]

def relaySpec (key : String) : Option RelayKeySpec := relayKeySpecs.find? fun spec => spec.key = key

def canonicalCollectionRule (collection : String) : Option KeyClass :=
  if collection ∈ ["preferences", "profile_config", "quick_templates", "profiles", "ssh_hosts",
      "ssh_keys"] then some .sync
  else if collection ∈ ["profile_env", "ssh_credentials", "ssh_key_secrets"] then some .vault
  else none

structure RecordRef where
  collection : String
  recordID : String
  keyClass : KeyClass
deriving DecidableEq, Repr

inductive RelayError where
  | duplicateKey (key : String)
  | nonPositiveTimestamp (key : String)
  | unknownKey (key : String)
  | invalidValue (key reason : String)
  | timestampFork (key : String) (updatedAt : Int)
  | missingCallback (key : String)
  | importFailed (key reason : String)
  | invalidRecord (key : String)
  | recordOutsideKey (key recordID : String)
  | scalarRecord (key recordID : String)
  | duplicateRecord (collection recordID : String)
  | importedRefs (key : String) (cause : RelayError)
deriving DecidableEq, Repr

def validateRecordRefForRelayKey (key : String) (ref : RecordRef) : Except RelayError Unit :=
  match relaySpec key with
  | none => .error (.invalidRecord key)
  | some spec =>
    if validName ref.collection 64 = false ∨ validRecordID ref.recordID = false then
      .error (.invalidRecord key)
    else if ref.collection ∉ spec.collections ∨ ref.keyClass ∉ spec.keyClasses ∨
        canonicalCollectionRule ref.collection ≠ some ref.keyClass then
      .error (.recordOutsideKey key ref.recordID)
    else if spec.mode = .scalar ∧ ref.recordID ≠ key then
      .error (.scalarRecord key ref.recordID)
    else .ok ()

/-- Check the references one by one, and that no record is named twice. -/
def validateRecordRefs (key : String) : List (String × String) → List RecordRef →
    Except RelayError Unit
  | _, [] => .ok ()
  | seen, ref :: rest =>
    match validateRecordRefForRelayKey key ref with
    | .error error => .error error
    | .ok _ =>
      if (ref.collection, ref.recordID) ∈ seen then
        .error (.duplicateRecord ref.collection ref.recordID)
      else validateRecordRefs key ((ref.collection, ref.recordID) :: seen) rest

def validateRecordRefsForRelayKey (key : String) (refs : List RecordRef) :
    Except RelayError Unit :=
  validateRecordRefs key [] refs

/-- What the relay code takes from elsewhere: reading a JSON value strictly into a shape and writing
it again, and the text of a SHA-256 hash, which is never empty. -/
structure RelayPrimitives where
  reencode : RelayShape → String → Except String String
  relayValueHash : String → String
  hash_ne_empty : ∀ value, relayValueHash value ≠ ""

/-- Validate one relay value; the result has one spelling for each value. -/
def normalizeRelayValue (P : RelayPrimitives) (key raw : String) : Except RelayError String :=
  match relaySpec key with
  | none => .error (.unknownKey key)
  | some spec =>
    match P.reencode spec.shape raw with
    | .error reason => .error (.invalidValue key reason)
    | .ok normalized => .ok normalized

/-! ### The adapter state -/

/-- The last value observed on the relay, and the one submitted to it. -/
structure RelayKeyState where
  relayValueHash : String := ""
  relayUpdatedAt : Int := 0
  pendingExportHash : String := ""
  lastExportedValueHash : String := ""
  relayRecords : List RecordRef := []
  pendingExportRecords : List RecordRef := []
deriving DecidableEq, Repr

abbrev RelayKeys := ExtTreeMap String RelayKeyState

structure RelayCompatibilityState where
  version : Int
  realmID : String
  localSeeded : Bool
  migrationComplete : Bool
  keys : RelayKeys

structure RelayValue where
  key : String
  value : String
  updatedAt : Int
  records : List RecordRef := []
deriving DecidableEq, Repr

/-- The import callback; a missing one is `none`. -/
abbrev RelayImport := RelayValue → List RecordRef → Except String (List RecordRef)

/-- What one item of a batch does: the entry it writes, what it reports, and the values it hands
out. -/
structure ItemOutcome where
  entry : Option RelayKeyState
  errors : List RelayError
  values : List RelayValue

structure BatchOutcome where
  keys : RelayKeys
  errors : List RelayError
  values : List RelayValue

def entryOf (keys : RelayKeys) (key : String) : RelayKeyState := keys[key]?.getD {}

/-- One item after another; a second item for a key is refused. -/
def eachItem (one : RelayValue → RelayKeyState → ItemOutcome) :
    List RelayValue → List String → RelayKeys → BatchOutcome
  | [], _, keys => ⟨keys, [], []⟩
  | item :: rest, seen, keys =>
    if item.key ∈ seen then
      let after := eachItem one rest seen keys
      ⟨after.keys, .duplicateKey item.key :: after.errors, after.values⟩
    else
      let outcome := one item (entryOf keys item.key)
      let after := eachItem one rest (item.key :: seen) (match outcome.entry with
        | none => keys
        | some entry => keys.insert item.key entry)
      ⟨after.keys, outcome.errors ++ after.errors, outcome.values ++ after.values⟩

/-- The items of a batch in the stable order of their keys. -/
def forEachKey (one : RelayValue → RelayKeyState → ItemOutcome) (items : List RelayValue)
    (keys : RelayKeys) : BatchOutcome :=
  eachItem one (items.insertionSort fun first second => first.key ≤ second.key) [] keys

/-- Make an observed value the baseline of its key. A pending export ends here, whether the relay
returned it or another value. -/
def RelayKeyState.observe (entry : RelayKeyState) (hash : String) (updatedAt : Int)
    (nextRecords : List RecordRef) : RelayKeyState :=
  let observed := { entry with relayValueHash := hash, relayUpdatedAt := updatedAt }
  if hash = entry.pendingExportHash then
    { observed with
      lastExportedValueHash := hash
      relayRecords := entry.pendingExportRecords
      pendingExportHash := ""
      pendingExportRecords := [] }
  else if entry.pendingExportHash ≠ "" then
    { observed with
      relayRecords := nextRecords
      pendingExportHash := ""
      pendingExportRecords := [] }
  else { observed with relayRecords := nextRecords }

/-- Import one item; `values` are those handed to the callback. -/
def importItem (P : RelayPrimitives) (apply : Option RelayImport) (item : RelayValue)
    (entry : RelayKeyState) : ItemOutcome :=
  if item.updatedAt ≤ 0 then ⟨none, [.nonPositiveTimestamp item.key], []⟩
  else
    match normalizeRelayValue P item.key item.value with
    | .error error => ⟨none, [error], []⟩
    | .ok normalized =>
      let hash := P.relayValueHash normalized
      if item.updatedAt < entry.relayUpdatedAt then ⟨none, [], []⟩
      else if item.updatedAt = entry.relayUpdatedAt ∧ entry.relayValueHash ≠ "" ∧
          hash ≠ entry.relayValueHash then
        ⟨none, [.timestampFork item.key item.updatedAt], []⟩
      else if hash = entry.pendingExportHash ∨ hash = entry.relayValueHash then
        ⟨some (entry.observe hash item.updatedAt entry.relayRecords), [], []⟩
      else
        match apply with
        | none => ⟨none, [.missingCallback item.key], []⟩
        | some apply =>
          let value : RelayValue := ⟨item.key, normalized, item.updatedAt, []⟩
          match apply value entry.relayRecords with
          | .error reason => ⟨none, [.importFailed item.key reason], [value]⟩
          | .ok next =>
            match validateRecordRefsForRelayKey item.key next with
            | .error cause => ⟨none, [.importedRefs item.key cause], [value]⟩
            | .ok _ => ⟨some (entry.observe hash item.updatedAt next), [], [value]⟩

namespace RelayCompatibilityState

variable (P : RelayPrimitives) (c : RelayCompatibilityState)

/-- Ingest a response of the relay: the errors, the values handed to the callback, and the state. -/
def importValues (items : List RelayValue) (apply : Option RelayImport) :
    List RelayError × List RelayValue × RelayCompatibilityState :=
  let outcome := forEachKey (importItem P apply) items c.keys
  (outcome.errors, outcome.values, { c with keys := outcome.keys })

end RelayCompatibilityState

/-! ### One key of a batch -/

section Batch

variable {one : RelayValue → RelayKeyState → ItemOutcome} {key : String}

end Batch

/-! ### Echoes -/

section Echo

variable {P : RelayPrimitives} {item : RelayValue} {entry : RelayKeyState}

end Echo

/-- One response of the relay, with the callback it is imported by. -/
structure ImportCall where
  items : List RelayValue
  apply : Option RelayImport

namespace ImportCall

end ImportCall

namespace RelayCompatibilityState

variable {P : RelayPrimitives} {c : RelayCompatibilityState} {key : String}

def respond (P : RelayPrimitives) (c : RelayCompatibilityState) (call : ImportCall) :
    RelayCompatibilityState :=
  (c.importValues P call.items call.apply).2.2

end RelayCompatibilityState

end Atterm.ConfigSync
