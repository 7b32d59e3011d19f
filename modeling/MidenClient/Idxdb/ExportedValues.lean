/-
This file models how the values of an IndexedDB store are written as JSON and read back
(`transformForExport` in `idxdb-store/src/ts/export.ts`, `transformForImport` in `import.ts`).

JSON has no binary values, so these are written as records that say what they are. An import takes
every record that says so for a binary value, whoever wrote it. The MIME type of a blob is not
written. What JSON text keeps of a value is modelled here; the text itself is left to
`JSON.stringify` and `JSON.parse`. All numbers in the tables are integers.
-/

import MidenClient.Library.Base64
import MidenClient.Library.Document
import MidenClient.Library.Fallible

namespace MidenClient

namespace StoreExport

open Document

/-! ### Values -/

/-- A value without parts, as the database stores it. -/
inductive StoredLeaf where
  | undefined
  | null
  | boolean (value : Bool)
  | number (value : ℤ)
  | string (value : String)
  | uint8Array (bytes : List UInt8)
  | blob (bytes : List UInt8) (mimeType : String)
  deriving DecidableEq, Repr

/-- A value without parts that is not binary. -/
inductive PlainLeaf where
  | undefined
  | null
  | boolean (value : Bool)
  | number (value : ℤ)
  | string (value : String)
  deriving DecidableEq, Repr

abbrev StoreValue := Document StoredLeaf

abbrev PlainValue := Document PlainLeaf

/-- What JSON text keeps of a value: a property that is undefined is not written, and an item that
is undefined is written as null. -/
def jsonLeaf : PlainLeaf → Option PlainLeaf
  | .undefined => none
  | value => some value

/-- What `JSON.parse` gives of the text that `JSON.stringify` wrote, if it wrote one. -/
def jsonValue (value : PlainValue) : Option PlainValue :=
  prune jsonLeaf .null value

/-! ### Exporting a value -/

/-- A binary value as a record that says what it is. -/
def taggedBytes (type : String) (bytes : List UInt8) : PlainValue :=
  .record [("__type", .leaf (.string type)), ("data", .leaf (.string (Base64.btoa bytes)))]

def transformLeaf : StoredLeaf → PlainValue
  | .undefined => .leaf .undefined
  | .null => .leaf .null
  | .boolean value => .leaf (.boolean value)
  | .number value => .leaf (.number value)
  | .string value => .leaf (.string value)
  | .uint8Array bytes => taggedBytes "Uint8Array" bytes
  | .blob bytes _ => taggedBytes "Blob" bytes

/-- Arrays and records are transformed part by part. -/
def transformForExport (value : StoreValue) : PlainValue :=
  bind transformLeaf value

/-! ### Importing a value -/

/-- Why an import fails. -/
inductive ImportError where
  /-- The text is not JSON. -/
  | syntaxError
  /-- A value is not what is expected of it. -/
  | typeError
  | noTables
  | invalidTable (name : String)
  /-- A binary value is not in base64. -/
  | invalidCharacter
  /-- A record has no valid key. -/
  | dataError
  deriving DecidableEq, Repr

mutual

/-- A value as a string, where it is asked for one. -/
def stringOf : PlainValue → String
  | .leaf .undefined => "undefined"
  | .leaf .null => "null"
  | .leaf (.boolean value) => if value then "true" else "false"
  | .leaf (.number value) => toString value
  | .leaf (.string value) => value
  | .array items => ",".intercalate (itemStrings items)
  | .record _ => "[object Object]"

/-- The items of an array that are put together in its string. -/
def itemStrings : List PlainValue → List String
  | [] => []
  | .leaf .undefined :: rest => "" :: itemStrings rest
  | .leaf .null :: rest => "" :: itemStrings rest
  | item :: rest => stringOf item :: itemStrings rest

end

def base64ToUint8Array (data : PlainValue) : Except ImportError (List UInt8) :=
  (Base64.atob (stringOf data)).elim (.error .invalidCharacter) .ok

def isString (text : String) : PlainValue → Bool
  | .leaf (.string value) => value = text
  | _ => false

/-- The record says that it is of a type. It has no more than one property of that name. -/
def hasType (type : String) (fields : List (String × PlainValue)) : Bool :=
  fields.any fun field => field.1 = "__type" && isString type field.2

/-- The bytes of a record that says that it is binary. -/
def dataOf (fields : List (String × PlainValue)) : Except ImportError (List UInt8) :=
  base64ToUint8Array ((property? fields "data").getD (.leaf .undefined))

def plainLeaf : PlainLeaf → StoredLeaf
  | .undefined => .undefined
  | .null => .null
  | .boolean value => .boolean value
  | .number value => .number value
  | .string value => .string value

mutual

/-- Records that say that they are binary are read as bytes, whatever else they hold. -/
def transformForImport : PlainValue → Except ImportError StoreValue
  | .leaf value => .ok (.leaf (plainLeaf value))
  | .array items => (transformItems items).map .array
  | .record fields =>
    if hasType "Blob" fields then (dataOf fields).map fun bytes => .leaf (.blob bytes "")
    else if hasType "Uint8Array" fields then
      (dataOf fields).map fun bytes => .leaf (.uint8Array bytes)
    else (transformFields fields).map .record

def transformItems : List PlainValue → Except ImportError (List StoreValue)
  | [] => .ok []
  | item :: rest => do
    let transformed ← transformForImport item
    let others ← transformItems rest
    return transformed :: others

def transformFields :
    List (String × PlainValue) → Except ImportError (List (String × StoreValue))
  | [] => .ok []
  | (name, value) :: rest => do
    let transformed ← transformForImport value
    let others ← transformFields rest
    return (name, transformed) :: others

end

/-! ### A value and its export -/

theorem transformForImport_plainLeaf (value : PlainLeaf) :
    transformForImport (.leaf value) = .ok (.leaf (plainLeaf value)) := by
  rw [transformForImport]

theorem transformForImport_array (items : List PlainValue) :
    transformForImport (.array items) = (items.mapM transformForImport).map .array := by
  rw [transformForImport]
  refine congrArg (Except.map array) ?_
  induction items with
  | nil =>
    rw [transformItems, List.mapM_nil]
    rfl
  | cons item rest inductionHypothesis =>
    rw [transformItems, List.mapM_cons, inductionHypothesis]

/-- A record that does not say that it is binary is read field by field. -/
theorem transformForImport_record {fields : List (String × PlainValue)}
    (noBlob : hasType "Blob" fields = false) (noBytes : hasType "Uint8Array" fields = false) :
    transformForImport (.record fields) = (fields.mapM fun field =>
      (transformForImport field.2).map fun value => (field.1, value)).map .record := by
  rw [transformForImport, noBlob, noBytes]
  show (transformFields fields).map record = _
  refine congrArg (Except.map record) ?_
  clear noBlob noBytes
  induction fields with
  | nil =>
    rw [transformFields, List.mapM_nil]
    rfl
  | cons field rest inductionHypothesis =>
    obtain ⟨name, value⟩ := field
    rw [transformFields, List.mapM_cons, inductionHypothesis]
    cases transformForImport value with
    | error reason => rfl
    | ok transformed => rfl

theorem base64ToUint8Array_btoa (bytes : List UInt8) :
    base64ToUint8Array (.leaf (.string (Base64.btoa bytes))) = .ok bytes := by
  unfold base64ToUint8Array
  rw [stringOf, Base64.atob_btoa]
  rfl

/-- A blob without its MIME type. -/
def untyped : StoredLeaf → StoredLeaf
  | .blob bytes _ => .blob bytes ""
  | value => value

/-- Binary values come back, but for the type of a blob. -/
theorem transformForImport_leaf (value : StoredLeaf) :
    transformForImport (transformLeaf value) = .ok (.leaf (untyped value)) := by
  have bytesBack : ∀ (type : String) (bytes : List UInt8),
      dataOf [("__type", .leaf (.string type)), ("data", .leaf (.string (Base64.btoa bytes)))] =
        .ok bytes := by
    intro type bytes
    exact base64ToUint8Array_btoa bytes
  cases value with
  | uint8Array bytes =>
    show transformForImport (taggedBytes "Uint8Array" bytes) = _
    unfold taggedBytes
    rw [transformForImport, bytesBack]
    rfl
  | blob bytes mimeType =>
    show transformForImport (taggedBytes "Blob" bytes) = _
    unfold taggedBytes
    rw [transformForImport, bytesBack]
    rfl
  | undefined => exact transformForImport_plainLeaf _
  | null => exact transformForImport_plainLeaf _
  | boolean value => exact transformForImport_plainLeaf _
  | number value => exact transformForImport_plainLeaf _
  | string value => exact transformForImport_plainLeaf _

/-- The value is a name of a binary type. -/
def namesType (type : String) : StoreValue → Bool
  | .leaf (.string value) => value = type
  | _ => false

/-- The record does not look like the export of a binary value. -/
def isUntagged (fields : List (String × StoreValue)) : Bool :=
  !fields.any fun field =>
    field.1 = "__type" && (namesType "Blob" field.2 || namesType "Uint8Array" field.2)

theorem isString_transformForExport (type : String) (value : StoreValue) :
    isString type (transformForExport value) = namesType type value := by
  unfold transformForExport
  cases value with
  | array items =>
    rw [bind_array]
    rfl
  | record fields =>
    rw [bind_record]
    rfl
  | leaf value =>
    rw [bind_leaf]
    cases value <;> rfl

/-- An exported record says just what the record itself says. -/
theorem hasType_export (type : String) (fields : List (String × StoreValue)) :
    hasType type (fields.map fun field => (field.1, transformForExport field.2)) =
      fields.any fun field => field.1 = "__type" && namesType type field.2 := by
  unfold hasType
  rw [List.any_map]
  refine congrArg (fun test => fields.any test) (funext fun field => ?_)
  show (_ && isString type (transformForExport field.2)) = _
  rw [isString_transformForExport]

theorem isUntagged_iff (fields : List (String × StoreValue)) :
    isUntagged fields = true ↔
      hasType "Blob" (fields.map fun field => (field.1, transformForExport field.2)) = false ∧
      hasType "Uint8Array" (fields.map fun field => (field.1, transformForExport field.2)) =
        false := by
  rw [hasType_export, hasType_export]
  unfold isUntagged
  simp only [Bool.not_eq_true', List.any_eq_false, Bool.and_eq_true, Bool.or_eq_true, not_and,
    not_or, Bool.not_eq_true]
  exact ⟨fun none => ⟨fun field listed named => (none field listed named).1,
      fun field listed named => (none field listed named).2⟩,
    fun none field listed named => ⟨none.1 field listed named, none.2 field listed named⟩⟩

/-- A record that says that it is binary is read as bytes, if at all. -/
theorem exists_leaf_of_hasType {fields : List (String × PlainValue)} {read : StoreValue}
    (tagged : ¬(hasType "Blob" fields = false ∧ hasType "Uint8Array" fields = false))
    (imported : transformForImport (.record fields) = .ok read) : ∃ value, read = .leaf value := by
  rw [transformForImport] at imported
  split at imported
  · obtain ⟨bytes, -, rfl⟩ := Fallible.map_eq_ok.mp imported
    exact ⟨_, rfl⟩
  · rename_i noBlob
    split at imported
    · obtain ⟨bytes, -, rfl⟩ := Fallible.map_eq_ok.mp imported
      exact ⟨_, rfl⟩
    · rename_i noBytes
      exact absurd ⟨Bool.not_eq_true _ ▸ noBlob, Bool.not_eq_true _ ▸ noBytes⟩ tagged

/-- An untagged record is read back field by field. -/
theorem import_export_record_iff {fields : List (String × StoreValue)}
    (untagged : isUntagged fields = true) (read : StoreValue) :
    transformForImport (transformForExport (.record fields)) = .ok read ↔
      ∃ others, read = .record others ∧ List.Forall₂ (fun field other => other.1 = field.1 ∧
        transformForImport (transformForExport field.2) = .ok other.2) fields others := by
  obtain ⟨noBlob, noBytes⟩ := (isUntagged_iff fields).mp untagged
  have exported : transformForExport (.record fields) =
      .record (fields.map fun field => (field.1, transformForExport field.2)) := bind_record _ _
  have each : ∀ (field : String × StoreValue) (other : String × StoreValue),
      (transformForImport (transformForExport field.2)).map (fun value => (field.1, value)) =
        .ok other ↔
          other.1 = field.1 ∧ transformForImport (transformForExport field.2) = .ok other.2 := by
    rintro field ⟨name, value⟩
    rw [Fallible.map_eq_ok]
    constructor
    · rintro ⟨made, imported, same⟩
      cases same
      exact ⟨rfl, imported⟩
    · rintro ⟨same, imported⟩
      exact ⟨value, imported, by rw [← same]⟩
  rw [exported, transformForImport_record noBlob noBytes, Fallible.map_eq_ok]
  simp only [Fallible.mapM_eq_ok_iff, List.forall₂_map_left_iff, each]
  exact ⟨fun ⟨others, paired, same⟩ => ⟨others, same.symm, paired⟩,
    fun ⟨others, same, paired⟩ => ⟨others, paired, same.symm⟩⟩

/-- Without the types of its blobs, a value is what is imported of its export exactly when none of
its records looks like the export of a binary value. -/
theorem transformForImport_transformForExport_iff (value : StoreValue) :
    transformForImport (transformForExport value) =
        .ok (bind (fun single => .leaf (untyped single)) value) ↔
      everyRecord isUntagged value = true := by
  induction value using Document.induction with
  | leaf value =>
    unfold transformForExport
    rw [bind_leaf, bind_leaf, everyRecord_leaf]
    exact iff_of_true (transformForImport_leaf value) rfl
  | array items inductionHypothesis =>
    have exported : transformForExport (.array items) = .array (items.map transformForExport) :=
      bind_array _ _
    rw [everyRecord_array, ← forall₂_congr inductionHypothesis, exported, bind_array,
      transformForImport_array, Fallible.map_eq_ok]
    simp only [Fallible.mapM_eq_ok_iff, List.forall₂_map_left_iff, array.injEq, exists_eq_right,
      List.forall₂_map_right_iff]
    exact List.forall₂_same
  | record fields inductionHypothesis =>
    rw [everyRecord_record, ← and_congr_right fun _ => forall₂_congr inductionHypothesis,
      bind_record]
    by_cases untagged : isUntagged fields = true
    · rw [import_export_record_iff untagged, and_iff_right untagged]
      simp only [record.injEq, exists_eq_left', List.forall₂_map_right_iff, List.forall₂_same,
        true_and]
    · refine iff_of_false (fun imported => ?_) fun both => untagged both.1
      have exported : transformForExport (.record fields) =
          .record (fields.map fun field => (field.1, transformForExport field.2)) := bind_record _ _
      rw [exported] at imported
      obtain ⟨_, same⟩ := exists_leaf_of_hasType
        (fun plain => untagged ((isUntagged_iff fields).mpr plain)) imported
      cases same

/-! ### What JSON text keeps of a value -/

def keptLeaf : StoredLeaf → Option StoredLeaf
  | .undefined => none
  | value => some (untyped value)

/-- A value without the properties that are undefined and the types of blobs, and with null for
undefined items. -/
def keptValue (value : StoreValue) : StoreValue :=
  (prune keptLeaf .null value).getD (.leaf .null)

theorem prune_transformLeaf (value : StoredLeaf) :
    prune jsonLeaf .null (transformLeaf value) = (keptLeaf value).map transformLeaf := by
  cases value with
  | uint8Array bytes => exact prune_record _ _ _
  | blob bytes mimeType => exact prune_record _ _ _
  | undefined => exact prune_leaf _ _ _
  | null => exact prune_leaf _ _ _
  | boolean value => exact prune_leaf _ _ _
  | number value => exact prune_leaf _ _ _
  | string value => exact prune_leaf _ _ _

/-- What is kept of a value has no types that could be lost. -/
theorem bind_untyped_keptValue (value : StoreValue) :
    bind (fun single => .leaf (untyped single)) (keptValue value) = keptValue value := by
  have fixed : ∀ single left, keptLeaf single = some left → untyped left = left := by
    intro single left kept
    cases single <;> cases kept <;> rfl
  exact bind_prune (fun single left kept => congrArg leaf (fixed single left kept)) rfl value

/-- The text of an exported record has the export of what is kept of the record. -/
theorem jsonValue_transformForExport (fields : List (String × StoreValue)) :
    jsonValue (transformForExport (.record fields)) =
      some (transformForExport (keptValue (.record fields))) := by
  unfold jsonValue transformForExport keptValue
  rw [prune_bind prune_transformLeaf (show transformLeaf .null = .leaf .null from rfl),
    prune_record]
  rfl

theorem namesType_of_keptLeaf (type : String) (value : StoreValue) :
    ((prune keptLeaf .null value).any fun left => namesType type left) = namesType type value := by
  cases value with
  | array items =>
    rw [prune_array]
    rfl
  | record fields =>
    rw [prune_record]
    rfl
  | leaf value =>
    rw [prune_leaf]
    cases value <;> rfl

/-- A record looks like the export of a binary value just when what is kept of it does. -/
theorem isUntagged_kept (fields : List (String × StoreValue)) :
    isUntagged (fields.filterMap fun field =>
      (prune keptLeaf .null field.2).map fun left => (field.1, left)) = isUntagged fields := by
  unfold isUntagged
  rw [List.any_filterMap]
  refine congrArg (fun test => !fields.any test) (funext fun field => ?_)
  rw [← namesType_of_keptLeaf "Blob" field.2, ← namesType_of_keptLeaf "Uint8Array" field.2]
  cases prune keptLeaf .null field.2 with
  | none => exact (Bool.and_false _).symm
  | some left => rfl

theorem everyRecord_keptValue (value : StoreValue) :
    everyRecord isUntagged (keptValue value) = everyRecord isUntagged value :=
  everyRecord_prune isUntagged_kept value

/-- What is kept of a value is what is imported of its export exactly when none of the records of
the value looks like the export of a binary value. -/
theorem import_export_keptValue_iff (value : StoreValue) :
    transformForImport (transformForExport (keptValue value)) = .ok (keptValue value) ↔
      everyRecord isUntagged value = true := by
  have imported := transformForImport_transformForExport_iff (keptValue value)
  rwa [bind_untyped_keptValue, everyRecord_keptValue] at imported

end StoreExport

end MidenClient
