/-
**The values of the relay.**

A relay value is validated by decoding it strictly into its type, and has one spelling: what the type
is encoded as. Arrays of templates are split into records that carry their position, and joined again
from records in any order.

* `normalizeRelayValue` — the one spelling;
* `splitRelayRecordArray`, `joinRelayRecordArray` — arrays as records;
* `decodeStrictJSON_bytes` — what was encoded is decoded again.
-/

import Atterm.Foundation.Base64Std
import Atterm.Foundation.Descent
import Atterm.Foundation.JsonFields
import Atterm.ConfigSync.RelayCompat

namespace Atterm.ConfigSync.RelaySchema

open Std (ExtTreeMap)
open Atterm.Foundation

/-- The 64-bit floating-point numbers and their texts: a number is written so that it is read back. -/
structure FloatText where
  Float : Type
  zero : Float
  parse : List Char → Option Float
  format : Float → List Char
  parse_format : ∀ value, parse (format value) = some value
  isNumber_format : ∀ value, isNumber (format value) = true
  runes_format : ∀ value, (format value).all numberRune = true

inductive SchemaError where
  | unknownRelayKey (key : String)
  | json (key : String)
  | templateFields
  | duplicateTemplate (id : String)
  | emptySealedValue (key : String)
  | sealedValueEncoding (key : String)
  | notRecordArray (key : String)
  | recordCollection (recordID collection : String)
  | recordJSON (recordID : String)
  | payloadID (recordID : String)
  | duplicateRecordID (recordID : String)
  | recordIdentity
  | collectionKeyClass (collection : String) (keyClass : KeyClass)
  | collectionPosition (collection : String)
  | invalidPosition (recordID : String)
  | emptyRecordValue
  | nonCanonicalScalar (recordID : String)
  | quickTemplate (recordID : String)
  | entity (collection recordID reason : String)
  | otherCollection (key collection : String)
  | otherKeyClass (key : String) (keyClass : KeyClass)
  | scalarRecordID (key recordID : String)
  | duplicateRecord (collection recordID : String)
  | scalarRecords (key : String) (count : ℕ)
  | recordPosition (recordID : String)
  | noSealedCodec (key : String)
  | sealedCodec (key reason : String)
  | encode (key : String) (cause : SchemaError)
deriving DecidableEq, Repr

structure RelayTemplate where
  id : String
  label : String
  text : String
  hotkey : String
deriving DecidableEq, Repr

namespace RelayTemplate

def zero : RelayTemplate := ⟨"", "", "", ""⟩

def fields : List String := ["id", "label", "text", "hotkey"]

def decode (strict : Bool) : Json → Option RelayTemplate
  | .obj members =>
    if strict = true ∧ knownFields fields members = false then none
    else
      match readField decodeText "" "id" members, readField decodeText "" "label" members,
        readField decodeText "" "text" members, readField decodeText "" "hotkey" members with
      | some id, some label, some text, some hotkey => some ⟨id, label, text, hotkey⟩
      | _, _, _, _ => none
  | _ => none

/-- An empty hotkey is left out. -/
def encode (template : RelayTemplate) : Json :=
  .obj ([("id", .str template.id), ("label", .str template.label), ("text", .str template.text)] ++
    if template.hotkey = "" then [] else [("hotkey", .str template.hotkey)])

theorem reads (strict : Bool) (template : RelayTemplate) : Reads (decode strict) encode template := by
  obtain ⟨id, label, text, hotkey⟩ := template
  refine ⟨?_, (fun same => nomatch same), ?_⟩
  · by_cases empty : hotkey = ""
    · subst empty
      simp [encode, decode, fields, knownFields, readField, fieldValues, foldName, foldRune, keepNull,
        decodeText]
    · simp [encode, decode, fields, knownFields, readField, fieldValues, foldName, foldRune, keepNull,
        decodeText, empty]
  · rw [encode, Json.Valid, membersValid_iff]
    intro member inside
    have text : ∃ value, member.2 = .str value := by
      split_ifs at inside <;> simp at inside <;> rcases inside with rfl | rfl | rfl | rfl <;>
        exact ⟨_, rfl⟩
    obtain ⟨value, same⟩ := text
    rw [same]
    exact (reads_text value).valid

end RelayTemplate

/-! ### Values -/

def decodeNullable {α : Type} (decode : Json → Option α) : Json → Option (Option α) :=
  keepNull (fun value => (decode value).map some) none

def encodeNullable {α : Type} (encode : α → Json) : Option α → Json
  | none => .null
  | some value => encode value

theorem decodeNullable_encodeNullable {α : Type} {decode : Json → Option α} {encode : α → Json}
    {value : Option α} (reads : ∀ inner ∈ value, Reads decode encode inner) :
    decodeNullable decode (encodeNullable encode value) = some value ∧
      (encodeNullable encode value).Valid := by
  cases value with
  | none => exact ⟨rfl, by rw [encodeNullable, Json.Valid.eq_def]; trivial⟩
  | some inner =>
    obtain ⟨decodes, present, valid⟩ := reads inner rfl
    refine ⟨?_, valid⟩
    rw [encodeNullable, decodeNullable, keepNull_of_present present, decodes]
    rfl

inductive RelayJSON (F : FloatText) where
  | string (value : String)
  | bool (value : Bool)
  | int (value : ℤ)
  | number (value : F.Float)
  | stringArray (value : Option (List String))
  | stringMap (value : Option (ExtTreeMap String String))
  | templateList (value : Option (List RelayTemplate))

section

variable (F : FloatText)

def decodeNumber : Json → Option F.Float
  | .num literal => F.parse literal
  | _ => none

def decodeTemplates (strict : Bool) : Json → Option (Option (List RelayTemplate)) :=
  decodeNullable (decodeList (RelayTemplate.decode strict) .zero)

def encodeTemplates : Option (List RelayTemplate) → Json :=
  encodeNullable fun templates => .arr (templates.map RelayTemplate.encode)

def decodeShape : RelayShape → Json → Option (RelayJSON F)
  | .string, value => (keepNull decodeText "" value).map .string
  | .sealedText, value => (keepNull decodeText "" value).map .string
  | .bool, value => (keepNull decodeBool false value).map .bool
  | .int, value => (keepNull (decodeInt (-2 ^ 63) (2 ^ 63 - 1)) 0 value).map .int
  | .number, value => (keepNull (decodeNumber F) F.zero value).map .number
  | .stringArray, value => (decodeNullable (decodeList decodeText "") value).map .stringArray
  | .stringMap, value => (decodeNullable (decodeMap decodeText "") value).map .stringMap
  | .templateList, value => (decodeTemplates true value).map .templateList

def encodeShape : RelayJSON F → Json
  | .string value => .str value
  | .bool value => .bool value
  | .int value => .int value
  | .number value => .num (F.format value)
  | .stringArray value => encodeNullable (fun texts => .arr (texts.map .str)) value
  | .stringMap value => encodeNullable (mapJson .str) value
  | .templateList value => encodeTemplates value

variable {F}

theorem reads_texts (texts : List String) :
    Reads (decodeList decodeText "") (fun texts => .arr (texts.map .str)) texts where
  decodes := decodeList_arr fun text _ => reads_text text
  present same := nomatch same
  valid := arr_valid fun text _ => reads_text text

theorem reads_textMap (texts : ExtTreeMap String String) :
    Reads (decodeMap decodeText "") (mapJson .str) texts where
  decodes := decodeMap_obj fun entry _ => reads_text entry.2
  present same := nomatch same
  valid := mapJson_valid fun entry _ => reads_text entry.2

theorem reads_templates (strict : Bool) (templates : List RelayTemplate) :
    Reads (decodeList (RelayTemplate.decode strict) .zero)
      (fun templates => .arr (templates.map RelayTemplate.encode)) templates where
  decodes := decodeList_arr fun template _ => template.reads strict
  present same := nomatch same
  valid := arr_valid fun template _ => template.reads strict

theorem decodeTemplates_encodeTemplates (strict : Bool) (templates : Option (List RelayTemplate)) :
    decodeTemplates strict (encodeTemplates templates) = some templates ∧
      (encodeTemplates templates).Valid :=
  decodeNullable_encodeNullable fun templates _ => reads_templates strict templates

/-- **A value is written so that it is read back.** -/
theorem decodeShape_encodeShape {shape : RelayShape} {json : Json} {value : RelayJSON F}
    (decoded : decodeShape F shape json = some value) :
    decodeShape F shape (encodeShape F value) = some value ∧ (encodeShape F value).Valid := by
  cases shape with
  | string | sealedText =>
    obtain ⟨text, -, rfl⟩ := Option.map_eq_some_iff.mp decoded
    exact ⟨rfl, (reads_text text).valid⟩
  | bool =>
    obtain ⟨flag, -, rfl⟩ := Option.map_eq_some_iff.mp decoded
    exact ⟨rfl, by rw [encodeShape, Json.Valid.eq_def]; trivial⟩
  | int =>
    obtain ⟨number, read, rfl⟩ := Option.map_eq_some_iff.mp decoded
    have range : (-2 ^ 63 : ℤ) ≤ number ∧ number ≤ 2 ^ 63 - 1 := by
      rcases keepNull_cases read with rfl | read
      · decide
      · exact decodeInt_range read
    refine ⟨?_, Json.int_valid number⟩
    show (decodeInt (-2 ^ 63) (2 ^ 63 - 1) (.int number)).map RelayJSON.int = _
    rw [decodeInt_int range.1 range.2]
    rfl
  | number =>
    obtain ⟨number, -, rfl⟩ := Option.map_eq_some_iff.mp decoded
    refine ⟨?_, ?_⟩
    · show (F.parse (F.format number)).map RelayJSON.number = _
      rw [F.parse_format]
      rfl
    · rw [encodeShape, Json.Valid]
      exact ⟨F.isNumber_format number, F.runes_format number⟩
  | stringArray =>
    obtain ⟨texts, -, rfl⟩ := Option.map_eq_some_iff.mp decoded
    obtain ⟨decodes, valid⟩ :=
      decodeNullable_encodeNullable fun inner (_ : inner ∈ texts) => reads_texts inner
    refine ⟨?_, valid⟩
    rw [encodeShape, decodeShape, decodes]
    rfl
  | stringMap =>
    obtain ⟨texts, -, rfl⟩ := Option.map_eq_some_iff.mp decoded
    obtain ⟨decodes, valid⟩ :=
      decodeNullable_encodeNullable fun inner (_ : inner ∈ texts) => reads_textMap inner
    refine ⟨?_, valid⟩
    rw [encodeShape, decodeShape, decodes]
    rfl
  | templateList =>
    obtain ⟨templates, -, rfl⟩ := Option.map_eq_some_iff.mp decoded
    obtain ⟨decodes, valid⟩ := decodeTemplates_encodeTemplates true templates
    refine ⟨?_, valid⟩
    rw [encodeShape, decodeShape, decodes]
    rfl

/-! ### Documents -/

/-- One JSON document and nothing behind it. -/
def decodeStrictJSON {α : Type} (raw : Bytes) (decode : Json → Option α) : Option α :=
  (Json.read raw).bind decode

theorem decodeStrictJSON_bytes {α : Type} {decode : Json → Option α} {value : Json} {result : α}
    (valid : value.Valid) (decodes : decode value = some result) :
    decodeStrictJSON value.bytes decode = some result := by
  rw [decodeStrictJSON, Json.read_bytes value valid]
  exact decodes

def validateTemplates : List String → List RelayTemplate → Except SchemaError Unit
  | _, [] => .ok ()
  | seen, template :: rest =>
    if template.id = "" ∨ template.label = "" then
      .error .templateFields
    else if template.id ∈ seen then .error (.duplicateTemplate template.id)
    else validateTemplates (template.id :: seen) rest

/-- The checks on a decoded value. -/
def validateShape (key : String) : RelayShape → RelayJSON F → Except SchemaError Unit
  | .templateList, .templateList templates => validateTemplates [] (templates.getD [])
  | .sealedText, .string encoded =>
    if encoded = "" then .error (.emptySealedValue key)
    else if (Base64.decodeStd true encoded).isNone then .error (.sealedValueEncoding key)
    else .ok ()
  | _, _ => .ok ()

variable (F)

def normalizeRelayValue (key : String) (raw : Bytes) : Except SchemaError Bytes :=
  match relaySpec key with
  | none => .error (.unknownRelayKey key)
  | some spec =>
    match decodeStrictJSON raw (decodeShape F spec.shape) with
    | none => .error (.json key)
    | some value => do
        validateShape key spec.shape value
        .ok (encodeShape F value).bytes

structure OrderedRecord where
  collection : String
  recordID : String
  position : ℕ
  payload : Bytes
deriving DecidableEq

def splitRelayRecordArray (key : String) (raw : Bytes) : Except SchemaError (List OrderedRecord) :=
  if (relaySpec key).map RelayKeySpec.mode ≠ some .recordArray then .error (.notRecordArray key)
  else do
    let normalized ← normalizeRelayValue F key raw
    match decodeStrictJSON normalized (decodeTemplates false) with
    | none => .error (.json key)
    | some templates => .ok ((templates.getD []).zipIdx.map fun entry =>
      ⟨"quick_templates", entry.1.id, entry.2, (RelayTemplate.encode entry.1).bytes⟩)

def OrderedRecord.before (first second : OrderedRecord) : Bool :=
  if first.position ≠ second.position then decide (first.position < second.position)
  else decide (first.recordID ≤ second.recordID)

def joinTemplates : List String → List OrderedRecord → Except SchemaError (List RelayTemplate)
  | _, [] => .ok []
  | seen, record :: rest =>
    if record.collection ≠ "quick_templates" then
      .error (.recordCollection record.recordID record.collection)
    else match decodeStrictJSON record.payload (keepNull (RelayTemplate.decode true) .zero) with
      | none => .error (.recordJSON record.recordID)
      | some template =>
        if template.id ≠ record.recordID then .error (.payloadID record.recordID)
        else if record.recordID ∈ seen then .error (.duplicateRecordID record.recordID)
        else (joinTemplates (record.recordID :: seen) rest).map (template :: ·)

def joinRelayRecordArray (key : String) (records : List OrderedRecord) : Except SchemaError Bytes :=
  if (relaySpec key).map RelayKeySpec.mode ≠ some .recordArray then .error (.notRecordArray key)
  else do
    let templates ← joinTemplates [] (records.mergeSort OrderedRecord.before)
    validateTemplates [] templates
    .ok (encodeTemplates (some templates)).bytes

variable {F} {key : String} {raw normalized : Bytes}

/-! ### What the operations establish -/

theorem normalizeRelayValue_ok (normalizes : normalizeRelayValue F key raw = .ok normalized) :
    ∃ spec value, relaySpec key = some spec ∧
      decodeStrictJSON raw (decodeShape F spec.shape) = some value ∧
      validateShape key spec.shape value = .ok () ∧ normalized = (encodeShape F value).bytes := by
  rw [normalizeRelayValue] at normalizes
  cases found : relaySpec key with
  | none =>
    rw [found] at normalizes
    cases normalizes
  | some spec =>
    rw [found] at normalizes
    cases decoded : decodeStrictJSON raw (decodeShape F spec.shape) with
    | none => simp only [decoded, reduceCtorEq] at normalizes
    | some value =>
      simp only [decoded] at normalizes
      cases checked : validateShape key spec.shape value with
      | error cause =>
        rw [checked] at normalizes
        cases normalizes
      | ok _ =>
        rw [checked] at normalizes
        cases normalizes
        exact ⟨spec, value, rfl, decoded, checked, rfl⟩

theorem normalizeRelayValue_encode {spec : RelayKeySpec} {value : RelayJSON F}
    (found : relaySpec key = some spec) (checked : validateShape key spec.shape value = .ok ())
    (decodes : decodeShape F spec.shape (encodeShape F value) = some value)
    (valid : (encodeShape F value).Valid) :
    normalizeRelayValue F key (encodeShape F value).bytes = .ok (encodeShape F value).bytes := by
  simp only [normalizeRelayValue, found, decodeStrictJSON_bytes valid decodes, checked]
  rfl

/-- **The spelling of a value does not change when it is normalized again.** -/
theorem normalizeRelayValue_again (normalizes : normalizeRelayValue F key raw = .ok normalized) :
    normalizeRelayValue F key normalized = .ok normalized := by
  obtain ⟨spec, value, found, decoded, checked, rfl⟩ := normalizeRelayValue_ok normalizes
  obtain ⟨json, -, shaped⟩ := Option.bind_eq_some_iff.mp decoded
  obtain ⟨decodes, valid⟩ := decodeShape_encodeShape shaped
  exact normalizeRelayValue_encode found checked decodes valid

theorem relaySpec_mem {spec : RelayKeySpec} (found : relaySpec key = some spec) :
    spec ∈ relayKeySpecs ∧ spec.key = key := by
  refine ⟨List.mem_of_find?_eq_some found, ?_⟩
  simpa using List.find?_some found

theorem recordArray_spec {spec : RelayKeySpec} (found : relaySpec key = some spec)
    (mode : spec.mode = .recordArray) :
    spec = ⟨"quick_templates", .recordArray, ["quick_templates"], [.sync], .templateList⟩ := by
  have only : ∀ spec ∈ relayKeySpecs, spec.mode = .recordArray →
      spec = ⟨"quick_templates", .recordArray, ["quick_templates"], [.sync], .templateList⟩ := by
    decide
  exact only spec (relaySpec_mem found).1 mode

/-- The record of a template at some position of its array. -/
def templateRecord (entry : RelayTemplate × ℕ) : OrderedRecord :=
  ⟨"quick_templates", entry.1.id, entry.2, (RelayTemplate.encode entry.1).bytes⟩

@[simp] theorem templateRecord_collection (entry : RelayTemplate × ℕ) :
    (templateRecord entry).collection = "quick_templates" := rfl

@[simp] theorem templateRecord_recordID (entry : RelayTemplate × ℕ) :
    (templateRecord entry).recordID = entry.1.id := rfl

@[simp] theorem templateRecord_payload (entry : RelayTemplate × ℕ) :
    (templateRecord entry).payload = (RelayTemplate.encode entry.1).bytes := rfl

/-- **An array is split into the records of its templates.** -/
theorem splitRelayRecordArray_ok {spec : RelayKeySpec} {records : List OrderedRecord}
    (found : relaySpec key = some spec) (mode : spec.mode = .recordArray)
    (normalizes : normalizeRelayValue F key raw = .ok normalized)
    (splits : splitRelayRecordArray F key normalized = .ok records) :
    ∃ templates, normalized = (encodeTemplates templates).bytes ∧
      validateTemplates [] (templates.getD []) = .ok () ∧
      records = (templates.getD []).zipIdx.map templateRecord := by
  obtain ⟨spec', value, found', decoded, checked, rfl⟩ := normalizeRelayValue_ok normalizes
  rw [found] at found'
  cases found'
  have shape : spec.shape = .templateList := by rw [recordArray_spec found mode]
  rw [shape] at decoded checked
  obtain ⟨json, -, shaped⟩ := Option.bind_eq_some_iff.mp decoded
  obtain ⟨templates, -, rfl⟩ := Option.map_eq_some_iff.mp shaped
  obtain ⟨reads, valid⟩ := decodeTemplates_encodeTemplates false templates
  refine ⟨templates, rfl, checked, ?_⟩
  rw [splitRelayRecordArray, found, Option.map_some, mode, if_neg (not_not.mpr rfl),
    normalizeRelayValue_again normalizes] at splits
  have again : decodeStrictJSON (encodeShape F (.templateList templates)).bytes
      (decodeTemplates false) = some templates := decodeStrictJSON_bytes valid reads
  simp only [bind, Except.bind, again] at splits
  cases splits
  rfl

theorem before_iff {first second : OrderedRecord} : first.before second = true ↔
    first.position < second.position ∨
      first.position = second.position ∧ first.recordID ≤ second.recordID := by
  rw [OrderedRecord.before]
  split_ifs with different
  · rw [decide_eq_true_iff, or_iff_left]
    exact fun same => different same.1
  · rw [decide_eq_true_iff, not_not.mp different]
    simp

theorem before_trans (first second third : OrderedRecord) (left : first.before second = true)
    (right : second.before third = true) : first.before third = true := by
  rw [before_iff] at *
  rcases left with lower | ⟨same, id⟩
  · rcases right with lower' | ⟨same', -⟩
    · exact Or.inl (lower.trans lower')
    · exact Or.inl (same' ▸ lower)
  · rcases right with lower' | ⟨same', id'⟩
    · exact Or.inl (same ▸ lower')
    · exact Or.inr ⟨same.trans same', id.trans id'⟩

theorem before_total (first second : OrderedRecord) :
    (first.before second || second.before first) = true := by
  rw [Bool.or_eq_true, before_iff, before_iff]
  rcases lt_trichotomy first.position second.position with lower | same | higher
  · exact Or.inl (Or.inl lower)
  · rcases le_total first.recordID second.recordID with id | id
    · exact Or.inl (Or.inr ⟨same, id⟩)
    · exact Or.inr (Or.inr ⟨same.symm, id⟩)
  · exact Or.inr (Or.inl higher)

theorem pairwise_templateRecord (templates : List RelayTemplate) (start : ℕ) :
    ((templates.zipIdx start).map templateRecord).Pairwise fun first second =>
      first.before second = true := by
  induction templates generalizing start with
  | nil => exact List.Pairwise.nil
  | cons template rest ih =>
    rw [List.zipIdx_cons, List.map_cons, List.pairwise_cons]
    refine ⟨?_, ih (start + 1)⟩
    intro record inside
    obtain ⟨entry, listed, rfl⟩ := List.mem_map.mp inside
    exact before_iff.mpr (Or.inl (List.le_snd_of_mem_zipIdx listed))

/-- **Records in any order are sorted into the array they come from.** -/
theorem mergeSort_templateRecord {templates : List RelayTemplate} {shuffled : List OrderedRecord}
    (perm : (templates.zipIdx.map templateRecord).Perm shuffled) :
    shuffled.mergeSort OrderedRecord.before = templates.zipIdx.map templateRecord := by
  rw [← mergeSort_congr before_trans before_total ?_ perm,
    List.mergeSort_of_pairwise (pairwise_templateRecord templates 0)]
  intro first listed second listed' forth back
  obtain ⟨⟨template, index⟩, inside, rfl⟩ := List.mem_map.mp listed
  obtain ⟨⟨other, index'⟩, inside', rfl⟩ := List.mem_map.mp listed'
  rw [before_iff] at forth back
  have same : index = index' := by
    have lower : index ≤ index' := forth.elim le_of_lt fun same => same.1.le
    have higher : index' ≤ index := back.elim le_of_lt fun same => same.1.le
    exact le_antisymm lower higher
  subst same
  rw [List.mem_zipIdx_iff_getElem?] at inside inside'
  have equal : template = other := Option.some.inj (inside.symm.trans inside')
  rw [equal]

theorem joinTemplates_templateRecord {seen : List String} {templates : List RelayTemplate} (start : ℕ)
    (checked : validateTemplates seen templates = .ok ()) :
    joinTemplates seen ((templates.zipIdx start).map templateRecord) = .ok templates := by
  induction templates generalizing seen start with
  | nil => rfl
  | cons template rest ih =>
    rw [validateTemplates] at checked
    split_ifs at checked with fields duplicate
    have reads := template.reads true
    have read : decodeStrictJSON (RelayTemplate.encode template).bytes
        (keepNull (RelayTemplate.decode true) .zero) = some template :=
      decodeStrictJSON_bytes reads.valid reads.keeps
    rw [List.zipIdx_cons, List.map_cons, joinTemplates]
    simp only [templateRecord_collection, templateRecord_recordID, templateRecord_payload, read,
      duplicate, ne_eq, not_true_eq_false, if_false, ih (start + 1) checked]
    rfl

/-- **The records of an array, in any order, are joined into it.** -/
theorem joinRelayRecordArray_templateRecord {spec : RelayKeySpec} (found : relaySpec key = some spec)
    (mode : spec.mode = .recordArray) {templates : List RelayTemplate}
    (checked : validateTemplates [] templates = .ok ()) {shuffled : List OrderedRecord}
    (perm : (templates.zipIdx.map templateRecord).Perm shuffled) :
    joinRelayRecordArray key shuffled = .ok (encodeTemplates (some templates)).bytes := by
  have joined : joinTemplates [] (shuffled.mergeSort OrderedRecord.before) = .ok templates := by
    rw [mergeSort_templateRecord perm]
    exact joinTemplates_templateRecord 0 checked
  have array : ¬ (relaySpec key).map RelayKeySpec.mode ≠ some .recordArray := by
    rw [found, Option.map_some, mode]
    exact not_not.mpr rfl
  rw [joinRelayRecordArray, if_neg array, joined]
  show (validateTemplates [] templates >>= fun _ => Except.ok _) = _
  rw [checked]
  rfl

theorem normalizeRelayValue_templates (F : FloatText) {spec : RelayKeySpec}
    (found : relaySpec key = some spec) (mode : spec.mode = .recordArray)
    {templates : Option (List RelayTemplate)}
    (checked : validateTemplates [] (templates.getD []) = .ok ()) :
    normalizeRelayValue F key (encodeTemplates templates).bytes =
      .ok (encodeTemplates templates).bytes := by
  have shape : spec.shape = .templateList := by rw [recordArray_spec found mode]
  obtain ⟨reads, valid⟩ := decodeTemplates_encodeTemplates true templates
  have decodes : decodeShape F spec.shape (encodeShape F (.templateList templates)) =
      some (.templateList templates) := by
    rw [shape, decodeShape, encodeShape, reads]
    rfl
  have valid' : (encodeShape F (.templateList templates)).Valid := valid
  have fits : validateShape key spec.shape (.templateList templates : RelayJSON F) = .ok () := by
    rw [shape]
    exact checked
  exact normalizeRelayValue_encode found fits decodes valid'

end

end Atterm.ConfigSync.RelaySchema
