/-
**Relay values as canonical records.**

A scalar preference is one record, an array of templates one record for each of them, and a sealed
bundle whatever its codec makes of it. Encoding takes the records in any order.

* `validateRecordSet_ok_iff` — what is checked of a set of records, whatever its order;
* `encodeRelayRecords_decodeRelayRecords` — decoding and encoding a relay value.
-/

import Atterm.ConfigSync.RelaySchema
import Atterm.Foundation.Guard

namespace Atterm.ConfigSync.RelaySchema

open Std (ExtTreeMap)
open Atterm.Foundation

/-- A decrypted, schema-validated canonical entity. -/
structure PlainRecord where
  collection : String
  recordID : String
  keyClass : KeyClass
  position : String
  value : Bytes
deriving DecidableEq

/-- What opens and seals the values whose key the platform holds. -/
structure SealedRelayCodec where
  decode : String → Bytes → Except String (List PlainRecord)
  encode : String → List PlainRecord → Except String Bytes

/-! ### Positions -/

/-- The rank in hexadecimal, of sixteen digits at least. -/
def legacyPosition (index : ℕ) : String :=
  String.ofList (List.replicate (16 - (Nat.toDigits 16 index).length) '0' ++ Nat.toDigits 16 index)

/-- The number that some digits make behind those of a value. -/
def parseHexFrom (value : ℕ) (digits : List Char) : Option ℕ :=
  digits.foldlM (fun value digit => (hexValue digit).map fun low => value * 16 + low) value

def parseHex (digits : List Char) : Option ℕ := parseHexFrom 0 digits

def validPosition (position : String) : Bool :=
  position.utf8ByteSize = 16 && (parseHex position.toList).isSome

def parseLegacyPosition (position : String) : Option ℕ :=
  if validPosition position then parseHex position.toList else none

theorem hexValue_digitChar {digit : ℕ} (small : digit < 16) :
    hexValue (Nat.digitChar digit) = some digit := by
  have checked : ∀ digit < 16, hexValue (Nat.digitChar digit) = some digit := by decide
  exact checked digit small

theorem parseHexFrom_append (value : ℕ) (first second : List Char) :
    parseHexFrom value (first ++ second) =
      (parseHexFrom value first).bind fun value => parseHexFrom value second :=
  List.foldlM_append

theorem parseHexFrom_digitChar {digit : ℕ} (value : ℕ) (small : digit < 16) :
    parseHexFrom value [Nat.digitChar digit] = some (value * 16 + digit) := by
  rw [parseHexFrom, List.foldlM_cons, hexValue_digitChar small]
  rfl

theorem parseHex_zeros (count : ℕ) : parseHex (List.replicate count '0') = some 0 := by
  induction count with
  | zero => rfl
  | succ count ih =>
    rw [parseHex] at ih ⊢
    rw [List.replicate_succ', parseHexFrom_append, ih]
    rfl

theorem parseHex_toDigits (value : ℕ) : parseHex (Nat.toDigits 16 value) = some value := by
  induction value using Nat.strong_induction_on with
  | _ value ih =>
    rw [parseHex, Nat.toDigits_eq_if (by decide)]
    split_ifs with small
    · rw [parseHexFrom_digitChar 0 small, Nat.zero_mul, Nat.zero_add]
    · have smaller : value / 16 < value := by omega
      have front : parseHexFrom 0 (Nat.toDigits 16 (value / 16)) = some (value / 16) := ih _ smaller
      rw [parseHexFrom_append, front, Option.bind_some,
        parseHexFrom_digitChar _ (Nat.mod_lt _ (by decide)), Nat.div_add_mod']

theorem parseHex_legacyPosition (index : ℕ) :
    parseHex (legacyPosition index).toList = some index := by
  have zeros := parseHex_zeros (16 - (Nat.toDigits 16 index).length)
  rw [parseHex] at zeros
  rw [legacyPosition, String.toList_ofList, parseHex, parseHexFrom_append, zeros]
  exact parseHex_toDigits index

/-! ### Checks -/

mutual

/-- A value with the members of its objects in the order of their keys, as a map is written. -/
def sortedJson : Json → Json
  | .null => .null
  | .bool value => .bool value
  | .num literal => .num literal
  | .str text => .str text
  | .arr elems => .arr (sortedElems elems)
  | .obj members => .obj (insertAll (∅ : ExtTreeMap String Json) (sortedMembers members)).toList

def sortedElems : List Json → List Json
  | [] => []
  | value :: rest => sortedJson value :: sortedElems rest

def sortedMembers : List (String × Json) → List (String × Json)
  | [] => []
  | (name, value) :: rest => (name, sortedJson value) :: sortedMembers rest

end

def memberText (name : String) (members : List (String × Json)) : String :=
  match ((insertAll ∅ members : ExtTreeMap String Json)[name]? : Option Json) with
  | some (.str text) => text
  | _ => ""

def validateEntityObject (raw : Bytes) (recordID collection : String) : Except SchemaError Unit :=
  match Json.read raw with
  | some (.obj members) =>
    if memberText "id" members ≠ recordID then
      .error (.entity collection recordID "payload id does not match")
    else if (sortedJson (.obj members)).bytes ≠ raw then
      .error (.entity collection recordID "is not canonical")
    else .ok ()
  | _ => .error (.entity collection recordID "is not an object")

/-- The collections whose records carry a position. -/
def orderedCollection (collection : String) : Bool :=
  collection ∈ ["quick_templates", "profiles", "ssh_hosts", "ssh_keys"]

section

variable (F : FloatText)

/-- The checks on the value of a record that depend on its collection. -/
def validateRecordValue (record : PlainRecord) : Except SchemaError Unit :=
  if record.collection = "preferences" then do
    let normalized ← normalizeRelayValue F record.recordID record.value
    if (relaySpec record.recordID).map RelayKeySpec.mode ≠ some .scalar ∨
        normalized ≠ record.value then .error (.nonCanonicalScalar record.recordID)
    else .ok ()
  else if record.collection = "quick_templates" then
    match decodeStrictJSON record.value (keepNull (RelayTemplate.decode true) .zero) with
    | none => .error (.quickTemplate record.recordID)
    | some template =>
      if validateTemplates [] [template] ≠ .ok () ∨ template.id ≠ record.recordID then
        .error (.quickTemplate record.recordID)
      else .ok ()
  else validateEntityObject record.value record.recordID record.collection

def validatePlainRecord (record : PlainRecord) : Except SchemaError Unit :=
  if validName record.collection 64 = false ∨ validRecordID record.recordID = false then
    .error .recordIdentity
  else if canonicalCollectionRule record.collection ≠ some record.keyClass then
    .error (.collectionKeyClass record.collection record.keyClass)
  else if orderedCollection record.collection ≠ (record.position ≠ "") then
    .error (.collectionPosition record.collection)
  else if orderedCollection record.collection = true ∧ validPosition record.position = false then
    .error (.invalidPosition record.recordID)
  else if record.value = [] then .error .emptyRecordValue
  else validateRecordValue F record

def validateRecord (key : String) (spec : RelayKeySpec) (record : PlainRecord) :
    Except SchemaError Unit :=
  if record.collection ∉ spec.collections then .error (.otherCollection key record.collection)
  else if record.keyClass ∉ spec.keyClasses then .error (.otherKeyClass key record.keyClass)
  else if spec.mode = .scalar ∧ record.recordID ≠ key then
    .error (.scalarRecordID key record.recordID)
  else validatePlainRecord F record

theorem recordName_lawful : LawfulBEq (String × String) := inferInstance

attribute [local instance] recordName_lawful in
def validateRecords (key : String) (spec : RelayKeySpec) : List (String × String) →
    List PlainRecord → Except SchemaError Unit
  | _, [] => .ok ()
  | seen, record :: rest => do
      validateRecord F key spec record
      if (record.collection, record.recordID) ∈ seen then
        .error (.duplicateRecord record.collection record.recordID)
      else validateRecords key spec ((record.collection, record.recordID) :: seen) rest

def validateRecordSetForRelayKey (key : String) (records : List PlainRecord) :
    Except SchemaError Unit :=
  match relaySpec key with
  | none => .error (.unknownRelayKey key)
  | some spec => do
      validateRecords F key spec [] records
      if spec.mode = .scalar ∧ records.length ≠ 1 then
        .error (.scalarRecords key records.length)
      else .ok ()

/-! ### Decoding and encoding -/

/-- A record of an array with its position as text. -/
def orderedPlainRecord (record : OrderedRecord) : PlainRecord :=
  ⟨record.collection, record.recordID, .sync, legacyPosition record.position, record.payload⟩

def splitRelayValue (codec : Option SealedRelayCodec) (key : String) (mode : RelayValueMode)
    (normalized : Bytes) : Except SchemaError (List PlainRecord) :=
  match mode with
  | .scalar => .ok [⟨"preferences", key, .sync, "", normalized⟩]
  | .recordArray => (splitRelayRecordArray F key normalized).map (List.map orderedPlainRecord)
  | .sealedBundle =>
    match codec with
    | none => .error (.noSealedCodec key)
    | some codec =>
      match codec.decode key normalized with
      | .error reason => .error (.sealedCodec key reason)
      | .ok records => .ok records

/-- Split one relay value into canonical records. -/
def decodeRelayRecords (codec : Option SealedRelayCodec) (key : String) (raw : Bytes) :
    Except SchemaError (List PlainRecord) :=
  match relaySpec key with
  | none => .error (.unknownRelayKey key)
  | some spec => do
      let normalized ← normalizeRelayValue F key raw
      let records ← splitRelayValue F codec key spec.mode normalized
      validateRecordSetForRelayKey F key records
      .ok records

/-- The rank that the position of a record stands for. -/
def orderedRecord (record : PlainRecord) : Except SchemaError OrderedRecord :=
  match parseLegacyPosition record.position with
  | none => .error (.recordPosition record.recordID)
  | some position => .ok ⟨record.collection, record.recordID, position, record.value⟩

/-- The value that some records stand for, before it is normalized. -/
def joinRelayValue (codec : Option SealedRelayCodec) (key : String) (mode : RelayValueMode)
    (records : List PlainRecord) : Except SchemaError Bytes :=
  match mode with
  | .scalar =>
    match records with
    | [record] => .ok record.value
    | _ => .error (.scalarRecords key records.length)
  | .recordArray => do
      let ordered ← records.mapM orderedRecord
      match joinRelayRecordArray key ordered with
      | .error cause => .error (.encode key cause)
      | .ok raw => .ok raw
  | .sealedBundle =>
    match codec with
    | none => .error (.encode key (.noSealedCodec key))
    | some codec =>
      match codec.encode key records with
      | .error reason => .error (.encode key (.sealedCodec key reason))
      | .ok raw => .ok raw

def recordRef (record : PlainRecord) : RecordRef := ⟨record.collection, record.recordID, record.keyClass⟩

def sortRecordRefs (refs : List RecordRef) : List RecordRef :=
  refs.mergeSort fun first second =>
    if first.collection ≠ second.collection then decide (first.collection < second.collection)
    else decide (first.recordID ≤ second.recordID)

/-- Materialize canonical records into one relay value. -/
def encodeRelayRecords (codec : Option SealedRelayCodec) (key : String) (records : List PlainRecord) :
    Except SchemaError (Bytes × List RecordRef) :=
  match relaySpec key with
  | none => .error (.unknownRelayKey key)
  | some spec => do
      validateRecordSetForRelayKey F key records
      let raw ← joinRelayValue codec key spec.mode records
      let normalized ← normalizeRelayValue F key raw
      .ok (normalized, sortRecordRefs (records.map recordRef))

variable {F : FloatText} {key : String} {records shuffled : List PlainRecord}

/-! ### What the operations establish -/

theorem check_ok {check next : Except SchemaError Unit} :
    (check >>= fun _ => next) = .ok () ↔ check = .ok () ∧ next = .ok () := by
  rw [bind_ok_iff]
  exact ⟨fun ⟨_, first, rest⟩ => ⟨first, rest⟩, fun ⟨first, rest⟩ => ⟨(), first, rest⟩⟩

def recordName (record : PlainRecord) : String × String := (record.collection, record.recordID)

theorem validateRecords_ok_iff {spec : RelayKeySpec} {seen : List (String × String)} :
    validateRecords F key spec seen records = .ok () ↔
      (∀ record ∈ records, validateRecord F key spec record = .ok ()) ∧
        (records.map recordName).Nodup ∧ ∀ record ∈ records, recordName record ∉ seen := by
  induction records generalizing seen with
  | nil => simp [validateRecords]
  | cons record rest ih =>
    have name : (record.collection, record.recordID) = recordName record := rfl
    rw [validateRecords, check_ok, name, List.forall_mem_cons, List.map_cons, List.nodup_cons,
      List.forall_mem_cons]
    by_cases duplicate : recordName record ∈ seen
    · rw [if_pos duplicate]
      exact ⟨fun passes => (nomatch passes.2), fun passes => absurd duplicate passes.2.2.1⟩
    · rw [if_neg duplicate, ih]
      constructor
      · rintro ⟨valid, rest_, distinct, new⟩
        refine ⟨⟨valid, rest_⟩, ⟨?_, distinct⟩, duplicate, ?_⟩
        · intro again
          obtain ⟨other, inside, same⟩ := List.mem_map.mp again
          exact new other inside (same ▸ List.mem_cons_self)
        · exact fun other inside before => new other inside (List.mem_cons_of_mem _ before)
      · rintro ⟨⟨valid, rest_⟩, ⟨once, distinct⟩, -, new⟩
        refine ⟨valid, rest_, distinct, fun other inside before => ?_⟩
        rcases List.mem_cons.mp before with same | before
        · exact once (same ▸ List.mem_map_of_mem inside)
        · exact new other inside before

/-- **What is checked of a set of records does not depend on their order.** -/
theorem validateRecordSet_ok_iff {spec : RelayKeySpec} (found : relaySpec key = some spec) :
    validateRecordSetForRelayKey F key records = .ok () ↔
      (∀ record ∈ records, validateRecord F key spec record = .ok ()) ∧
        (records.map recordName).Nodup ∧ (spec.mode = .scalar → records.length = 1) := by
  simp only [validateRecordSetForRelayKey, found]
  rw [check_ok, validateRecords_ok_iff, and_assoc, and_assoc]
  refine and_congr_right fun _ => and_congr_right fun _ => ?_
  split_ifs with several
  · exact ⟨fun passes => (nomatch passes.2), fun single => absurd (single several.1) several.2⟩
  · refine ⟨fun _ scalar => ?_, fun _ => ⟨fun _ _ inside => (nomatch inside), rfl⟩⟩
    exact not_not.mp fun other => several ⟨scalar, other⟩

theorem validateRecordSet_perm {spec : RelayKeySpec} (found : relaySpec key = some spec)
    (perm : shuffled.Perm records) (valid : validateRecordSetForRelayKey F key records = .ok ()) :
    validateRecordSetForRelayKey F key shuffled = .ok () := by
  rw [validateRecordSet_ok_iff found] at valid ⊢
  obtain ⟨each, distinct, single⟩ := valid
  refine ⟨fun record inside => each record (perm.mem_iff.mp inside), ?_, fun scalar => ?_⟩
  · exact (perm.map recordName).nodup_iff.mpr distinct
  · rw [perm.length_eq, single scalar]

theorem decodeRelayRecords_ok {codec : Option SealedRelayCodec} {raw : Bytes}
    (decoded : decodeRelayRecords F codec key raw = .ok records) : ∃ spec normalized,
      relaySpec key = some spec ∧ normalizeRelayValue F key raw = .ok normalized ∧
        splitRelayValue F codec key spec.mode normalized = .ok records ∧
        validateRecordSetForRelayKey F key records = .ok () := by
  rw [decodeRelayRecords] at decoded
  cases found : relaySpec key with
  | none =>
    rw [found] at decoded
    cases decoded
  | some spec =>
    rw [found] at decoded
    obtain ⟨normalized, normal, rest⟩ := bind_ok decoded
    obtain ⟨split, parts, rest⟩ := bind_ok rest
    obtain ⟨_, valid, rest⟩ := bind_ok rest
    cases rest
    exact ⟨spec, normalized, rfl, normal, parts, valid⟩

theorem validPosition_of_valid {spec : RelayKeySpec} {record : PlainRecord}
    (valid : validateRecord F key spec record = .ok ())
    (ordered : orderedCollection record.collection = true) : validPosition record.position = true := by
  obtain ⟨-, valid⟩ := guard_ok valid
  obtain ⟨-, valid⟩ := guard_ok valid
  obtain ⟨-, valid⟩ := guard_ok valid
  obtain ⟨-, valid⟩ := guard_ok valid
  obtain ⟨-, valid⟩ := guard_ok valid
  obtain ⟨-, valid⟩ := guard_ok valid
  obtain ⟨readable, -⟩ := guard_ok valid
  exact Bool.eq_true_of_not_eq_false fun bad => readable ⟨ordered, bad⟩

theorem mapM_ok {α β : Type} {read : α → Except SchemaError β} {result : α → β} {values : List α}
    (each : ∀ value ∈ values, read value = .ok (result value)) :
    values.mapM read = .ok (values.map result) := by
  induction values with
  | nil => rfl
  | cons value rest ih =>
    obtain ⟨first, later⟩ := List.forall_mem_cons.mp each
    rw [List.mapM_cons, first, ih later]
    rfl

/-- The record of an array that a canonical record stands for. -/
def rankedRecord (record : PlainRecord) : OrderedRecord :=
  ⟨record.collection, record.recordID, (parseHex record.position.toList).getD 0, record.value⟩

theorem rankedRecord_orderedPlainRecord (record : OrderedRecord) :
    rankedRecord (orderedPlainRecord record) = record := by
  rw [rankedRecord, orderedPlainRecord, parseHex_legacyPosition]
  rfl

theorem orderedRecord_ok {record : PlainRecord} (valid : validPosition record.position = true) :
    orderedRecord record = .ok (rankedRecord record) := by
  rw [orderedRecord, parseLegacyPosition, if_pos valid]
  rw [validPosition, Bool.and_eq_true] at valid
  obtain ⟨rank, read⟩ := Option.isSome_iff_exists.mp valid.2
  rw [read, rankedRecord, read]
  rfl

/-- **The records of an array, shuffled, are joined into an array that is not nil.** -/
theorem joinRelayValue_shuffled {codec : Option SealedRelayCodec} {spec : RelayKeySpec}
    (found : relaySpec key = some spec) (mode : spec.mode = .recordArray)
    {templates : List RelayTemplate} (checked : validateTemplates [] templates = .ok ())
    (perm : shuffled.Perm ((templates.zipIdx.map templateRecord).map orderedPlainRecord))
    (valid : ∀ record ∈ shuffled, validateRecord F key spec record = .ok ()) :
    joinRelayValue codec key .recordArray shuffled = .ok (encodeTemplates (some templates)).bytes := by
  have ranked : shuffled.mapM orderedRecord = .ok (shuffled.map rankedRecord) := by
    refine mapM_ok fun record inside => orderedRecord_ok ?_
    refine validPosition_of_valid (valid record inside) ?_
    obtain ⟨ordered, listed, rfl⟩ := List.mem_map.mp (perm.mem_iff.mp inside)
    obtain ⟨entry, -, rfl⟩ := List.mem_map.mp listed
    rfl
  have same : (templates.zipIdx.map templateRecord).Perm (shuffled.map rankedRecord) := by
    have inverse : rankedRecord ∘ orderedPlainRecord = id := by
      funext record
      exact rankedRecord_orderedPlainRecord record
    have back := perm.map rankedRecord
    rw [List.map_map, inverse, List.map_id] at back
    exact back.symm
  rw [joinRelayValue, ranked]
  show (match joinRelayRecordArray key (shuffled.map rankedRecord) with
    | .error cause => Except.error (SchemaError.encode key cause)
    | .ok raw => .ok raw) = _
  rw [joinRelayRecordArray_templateRecord found mode checked same]

theorem encodeRelayRecords_ok {codec : Option SealedRelayCodec} {spec : RelayKeySpec}
    {raw normalized : Bytes} (found : relaySpec key = some spec)
    (valid : validateRecordSetForRelayKey F key records = .ok ())
    (joins : joinRelayValue codec key spec.mode records = .ok raw)
    (normal : normalizeRelayValue F key raw = .ok normalized) :
    encodeRelayRecords F codec key records =
      .ok (normalized, sortRecordRefs (records.map recordRef)) := by
  rw [encodeRelayRecords, found]
  show (validateRecordSetForRelayKey F key records >>= fun _ => _) = _
  rw [valid]
  show (joinRelayValue codec key spec.mode records >>= fun raw => _) = _
  rw [joins]
  show (normalizeRelayValue F key raw >>= fun normalized => _) = _
  rw [normal]
  rfl

theorem bytes_inj {first second : Json} (valid : first.Valid) (valid' : second.Valid)
    (same : first.bytes = second.bytes) : first = second := by
  have read := Json.read_bytes first valid
  rw [same, Json.read_bytes second valid'] at read
  exact (Option.some.inj read).symm

/-- **Decoding a relay value and encoding its records, in any order, normalizes the value**, but that an
array of templates that is `null` becomes an empty array. -/
theorem encodeRelayRecords_decodeRelayRecords (F : FloatText) (codec : Option SealedRelayCodec)
    (key : String) (raw : Bytes) {records : List PlainRecord}
    (decoded : decodeRelayRecords F codec key raw = .ok records)
    (plain : (relaySpec key).map RelayKeySpec.mode ≠ some .sealedBundle)
    {shuffled : List PlainRecord} (perm : shuffled.Perm records) :
    ∃ normalized refs, normalizeRelayValue F key raw = .ok normalized ∧
      encodeRelayRecords F codec key shuffled =
        .ok (if key = "quick_templates" ∧ normalized = Json.null.bytes then (Json.arr []).bytes
          else normalized, refs) := by
  obtain ⟨spec, normalized, found, normal, split, valid⟩ := decodeRelayRecords_ok decoded
  have valid' := validateRecordSet_perm found perm valid
  refine ⟨normalized, sortRecordRefs (shuffled.map recordRef), normal, ?_⟩
  cases mode : spec.mode with
  | sealedBundle =>
    rw [found, Option.map_some, mode] at plain
    exact absurd rfl plain
  | scalar =>
    have other : ¬ (key = "quick_templates" ∧ normalized = Json.null.bytes) := by
      rintro ⟨rfl, -⟩
      have array : relaySpec "quick_templates" = some ⟨"quick_templates", .recordArray,
        ["quick_templates"], [.sync], .templateList⟩ := by decide
      rw [found, Option.some.injEq] at array
      rw [array] at mode
      cases mode
    rw [mode] at split
    cases split
    rw [List.perm_singleton.mp perm] at valid' ⊢
    rw [if_neg other]
    refine encodeRelayRecords_ok found valid' ?_ (normalizeRelayValue_again normal)
    rw [mode]
    rfl
  | recordArray =>
    rw [mode] at split
    obtain ⟨ordered, splits, rfl⟩ : ∃ ordered, splitRelayRecordArray F key normalized = .ok ordered ∧
        ordered.map orderedPlainRecord = records := by
      rw [splitRelayValue] at split
      cases parts : splitRelayRecordArray F key normalized with
      | error cause =>
        rw [parts] at split
        cases split
      | ok ordered =>
        rw [parts] at split
        cases split
        exact ⟨ordered, rfl, rfl⟩
    obtain ⟨templates, rfl, checked, rfl⟩ := splitRelayRecordArray_ok found mode normal splits
    have each := ((validateRecordSet_ok_iff found).mp valid').1
    have joins : joinRelayValue codec key .recordArray shuffled =
        .ok (encodeTemplates (some (templates.getD []))).bytes :=
      joinRelayValue_shuffled found mode checked perm each
    rw [← mode] at joins
    have again : normalizeRelayValue F key (encodeTemplates (some (templates.getD []))).bytes =
        .ok (encodeTemplates (some (templates.getD []))).bytes :=
      normalizeRelayValue_templates F found mode checked
    rw [encodeRelayRecords_ok found valid' joins again]
    have named : key = "quick_templates" := by
      rw [← (relaySpec_mem found).2, recordArray_spec found mode]
    cases templates with
    | none =>
      rw [if_pos ⟨named, rfl⟩]
      rfl
    | some templates =>
      rw [if_neg]
      · rfl
      · rintro ⟨-, same⟩
        have null := bytes_inj (decodeTemplates_encodeTemplates true (some templates)).2
          (decodeTemplates_encodeTemplates true none).2 same
        cases null

end

/-- Whole numbers as the floating-point numbers, which are written as integers. -/
def wholeNumbers : FloatText where
  Float := ℤ
  zero := 0
  parse := parseInt
  format := intLiteral
  parse_format := parseInt_intLiteral
  isNumber_format := isNumber_intLiteral
  runes_format := intLiteral_runes

def sampleTemplates : List RelayTemplate := [⟨"b", "B", "ls", ""⟩, ⟨"a", "A", "", "k"⟩]

def sampleRecords : List PlainRecord :=
  (sampleTemplates.zipIdx.map templateRecord).map orderedPlainRecord

theorem encodeRelayRecords_swapped : ∃ normalized refs,
    normalizeRelayValue wholeNumbers "quick_templates" (encodeTemplates (some sampleTemplates)).bytes =
        .ok normalized ∧
      encodeRelayRecords wholeNumbers none "quick_templates" sampleRecords.reverse =
        .ok (if "quick_templates" = "quick_templates" ∧ normalized = Json.null.bytes then
          (Json.arr []).bytes else normalized, refs) := by
  refine encodeRelayRecords_decodeRelayRecords wholeNumbers none "quick_templates"
    (encodeTemplates (some sampleTemplates)).bytes ?_ (by decide) (List.reverse_perm sampleRecords)
  decide +kernel

/-- **An array of templates that is `null` does not come back as it was.** -/
theorem null_templates_come_back_empty : ¬ ∀ (F : FloatText) (codec : Option SealedRelayCodec)
    (key : String) (raw : Bytes) (records shuffled : List PlainRecord),
    decodeRelayRecords F codec key raw = .ok records →
      (relaySpec key).map RelayKeySpec.mode ≠ some .sealedBundle → shuffled.Perm records →
        ∃ normalized refs, normalizeRelayValue F key raw = .ok normalized ∧
          encodeRelayRecords F codec key shuffled = .ok (normalized, refs) := by
  intro roundTrips
  obtain ⟨normalized, refs, normal, encoded⟩ :=
    roundTrips wholeNumbers none "quick_templates" Json.null.bytes [] [] (by decide) (by decide)
      (.refl _)
  have null : normalizeRelayValue wholeNumbers "quick_templates" Json.null.bytes =
      .ok Json.null.bytes := by decide
  have empty : encodeRelayRecords wholeNumbers none "quick_templates" [] =
      .ok ((Json.arr []).bytes, []) := by decide +kernel
  rw [null] at normal
  rw [empty] at encoded
  cases normal
  cases encoded

end Atterm.ConfigSync.RelaySchema
