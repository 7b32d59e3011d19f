/-
This file models the export of an IndexedDB store, and the import that replaces a store by an
exported one (`idxdb-store/src/ts/export.ts`, `import.ts`, and the tables of `schema.ts`).

`JSON.stringify` and `JSON.parse` are parameters. All that is asked of them is that the text of the
exported store is read as what JSON text keeps of it.
-/

import MidenClient.Idxdb.ExportedValues
import MidenClient.Library.OrderedMap

namespace MidenClient

namespace StoreExport

open Std (ExtTreeMap)
open Document

/-! ### Tables -/

/-- The tables of the database. -/
inductive Table where
  | accountCode
  | latestAccountStorage
  | historicalAccountStorage
  | latestAccountAssets
  | historicalAccountAssets
  | latestStorageMapEntries
  | historicalStorageMapEntries
  | accountAuth
  | accountKeyMapping
  | latestAccountHeaders
  | historicalAccountHeaders
  | addresses
  | transactions
  | transactionScripts
  | inputNotes
  | outputNotes
  | notesScripts
  | stateSync
  | blockHeaders
  | partialBlockchainNodes
  | tags
  | foreignAccountCode
  | settings
  deriving DecidableEq, Repr

namespace Table

def all : List Table :=
  [accountCode, latestAccountStorage, historicalAccountStorage, latestAccountAssets,
    historicalAccountAssets, latestStorageMapEntries, historicalStorageMapEntries, accountAuth,
    accountKeyMapping, latestAccountHeaders, historicalAccountHeaders, addresses, transactions,
    transactionScripts, inputNotes, outputNotes, notesScripts, stateSync, blockHeaders,
    partialBlockchainNodes, tags, foreignAccountCode, settings]

def name : Table → String
  | accountCode => "accountCode"
  | latestAccountStorage => "latestAccountStorage"
  | historicalAccountStorage => "historicalAccountStorage"
  | latestAccountAssets => "latestAccountAssets"
  | historicalAccountAssets => "historicalAccountAssets"
  | latestStorageMapEntries => "latestStorageMapEntries"
  | historicalStorageMapEntries => "historicalStorageMapEntries"
  | accountAuth => "accountAuth"
  | accountKeyMapping => "accountKeyMapping"
  | latestAccountHeaders => "latestAccountHeaders"
  | historicalAccountHeaders => "historicalAccountHeaders"
  | addresses => "addresses"
  | transactions => "transactions"
  | transactionScripts => "transactionScripts"
  | inputNotes => "inputNotes"
  | outputNotes => "outputNotes"
  | notesScripts => "notesScripts"
  | stateSync => "stateSync"
  | blockHeaders => "blockHeaders"
  | partialBlockchainNodes => "partialBlockchainNodes"
  | tags => "tags"
  | foreignAccountCode => "foreignAccountCode"
  | settings => "settings"

/-- The properties that make the primary key of a record. -/
def keyPath : Table → List String
  | accountCode => ["root"]
  | latestAccountStorage => ["accountId", "slotName"]
  | historicalAccountStorage => ["accountId", "replacedAtNonce", "slotName"]
  | latestAccountAssets => ["accountId", "vaultKey"]
  | historicalAccountAssets => ["accountId", "replacedAtNonce", "vaultKey"]
  | latestStorageMapEntries => ["accountId", "slotName", "key"]
  | historicalStorageMapEntries => ["accountId", "replacedAtNonce", "slotName", "key"]
  | accountAuth => ["pubKeyCommitmentHex"]
  | accountKeyMapping => ["accountIdHex", "pubKeyCommitmentHex"]
  | latestAccountHeaders => ["id"]
  | historicalAccountHeaders => ["accountCommitment"]
  | addresses => ["address"]
  | transactions => ["id"]
  | transactionScripts => ["scriptRoot"]
  | inputNotes => ["noteId"]
  | outputNotes => ["noteId"]
  | notesScripts => ["scriptRoot"]
  | stateSync => ["id"]
  | blockHeaders => ["blockNum"]
  | partialBlockchainNodes => ["id"]
  | tags => ["id"]
  | foreignAccountCode => ["accountId"]
  | settings => ["key"]

/-- Records of this table that come without a key are numbered. -/
def autoIncrement (table : Table) : Bool :=
  table = tags

def ofName? (name : String) : Option Table :=
  all.find? fun table => table.name = name

theorem mem_all (table : Table) : table ∈ all := by
  cases table <;> decide

theorem nodup_all : all.Nodup := by
  decide

theorem ofName?_name (table : Table) : ofName? table.name = some table := by
  cases table <;> decide +kernel

end Table

/-- A part of a key. Numbers come before strings, and strings before binary values. -/
abbrev KeyPart := ℤ ⊕ₗ (String ⊕ₗ List ℕ)

/-- The primary key of a record, ordered part by part. -/
def RecordKey := List KeyPart

instance : LinearOrder RecordKey :=
  inferInstanceAs (LinearOrder (List KeyPart))

/-- The part of a key that a property gives, if it is valid there. -/
def keyPart : StoreValue → Option KeyPart
  | .leaf (.number value) => some (Sum.inlₗ value)
  | .leaf (.string value) => some (Sum.inrₗ (Sum.inlₗ value))
  | .leaf (.uint8Array bytes) => some (Sum.inrₗ (Sum.inrₗ (bytes.map UInt8.toNat)))
  | _ => none

/-- The key that a record has in a table. -/
def keyOf (table : Table) : StoreValue → Option RecordKey
  | .record fields => table.keyPath.mapM fun name => (property? fields name).bind keyPart
  | _ => none

/-- What a table holds: its records under their keys, and the number that the next record without
a key gets. -/
structure Content (table : Table) where
  records : ExtTreeMap RecordKey StoreValue
  keyed : ∀ (key : RecordKey) record, records[key]? = some record → keyOf table record = some key
  nextKey : ℤ

namespace Content

variable {table : Table}

/-- The table without its records. It goes on numbering. -/
def clear (content : Content table) : Content table where
  records := ∅
  keyed := by
    intro key record found
    rw [ExtTreeMap.getElem?_empty] at found
    cases found
  nextKey := content.nextKey

/-- The number after a key that was given, if it is one that would have been given later. -/
def numberAfter (nextKey : ℤ) (key : RecordKey) : ℤ :=
  match key.head? with
  | some (Sum.inlₗ value) => if nextKey ≤ value then value + 1 else nextKey
  | _ => nextKey

/-- A record is put under its key. -/
def write (content : Content table) {key : RecordKey} {record : StoreValue}
    (keyed : keyOf table record = some key) : Content table where
  records := content.records.insert key record
  keyed := by
    intro other stored found
    rw [ExtTreeMap.getElem?_insert] at found
    split at found
    · rename_i same
      cases found
      rw [keyed, compare_eq_iff_eq.mp same]
    · exact content.keyed other stored found
  nextKey := if table.autoIncrement then numberAfter content.nextKey key else content.nextKey

/-- The property is not there, or not defined. -/
def isMissing : Option StoreValue → Bool
  | none => true
  | some (.leaf .undefined) => true
  | _ => false

/-- The record with the next number as its key, in a table that numbers its records. -/
def numbered (content : Content table) : StoreValue → Option StoreValue
  | .record fields =>
    if table.autoIncrement && isMissing (property? fields "id") then
      some (.record (fields.filter (fun field => field.1 ≠ "id") ++
        [("id", .leaf (.number content.nextKey))]))
    else none
  | _ => none

/-- Adds a record or replaces the one with its key. -/
def put (content : Content table) (record : StoreValue) : Except ImportError (Content table) :=
  match found : keyOf table record with
  | some _ => .ok (content.write found)
  | none =>
    match content.numbered record with
    | none => .error .dataError
    | some withNumber =>
      match foundToo : keyOf table withNumber with
      | some _ => .ok (content.write foundToo)
      | none => .error .dataError

/-- `bulkPut`, where a record that fails makes the whole call fail. -/
def bulkPut (content : Content table) (records : List StoreValue) :
    Except ImportError (Content table) :=
  records.foldlM put content

/-- Imports records in order. All of them are transformed before the first is put. -/
def importRecords (content : Content table) (records : List PlainValue) :
    Except ImportError (Content table) := do
  let transformedRecords ← records.mapM transformForImport
  content.bulkPut transformedRecords

end Content

/-! ### The store -/

/-- The tables with what they hold. -/
abbrev Database := (table : Table) → Content table

/-- The records of all tables, as they are put into JSON text. -/
def dbJson (db : Database) : PlainValue :=
  .record (Table.all.map fun table =>
    (table.name, .array ((OrderedMap.values (db table).records).map transformForExport)))

/-- The JSON text of a store. -/
def exportStore (stringify : PlainValue → Option String) (db : Database) : Option String :=
  stringify (dbJson db)

/-- Imports the records of one table. A name that is not in the schema is an error before it could
be skipped. -/
def importTable (db : Database) (entry : String × PlainValue) : Except ImportError Database :=
  match Table.ofName? entry.1 with
  | none => .error (.invalidTable entry.1)
  | some table =>
    match entry.2 with
    | .array records => ((db table).importRecords records).map (Function.update db table)
    | _ => .error .typeError

/-- The keys of an object with their values. -/
def tableEntries : PlainValue → Except ImportError (List (String × PlainValue))
  | .leaf .undefined => .error .typeError
  | .leaf .null => .error .typeError
  | .leaf (.boolean _) => .ok []
  | .leaf (.number _) => .ok []
  | .leaf (.string text) => .ok (text.toList.zipIdx.map fun item =>
      (toString item.2, .leaf (.string (String.singleton item.1))))
  | .array items => .ok (items.zipIdx.map fun item => (toString item.2, item.1))
  | .record fields => .ok fields

/-- The value of a text, or of the text that it quotes. -/
def parseStore (parse : String → Option PlainValue) (jsonStr : String) :
    Except ImportError PlainValue :=
  match parse jsonStr with
  | none => .error .syntaxError
  | some (.leaf (.string text)) => (parse text).elim (.error .syntaxError) .ok
  | some value => .ok value

/-- Replaces all tables by those of a JSON text. All tables are cleared first; an error leaves the
store as it was, since everything happens in one transaction. -/
def forceImportStore (parse : String → Option PlainValue) (db : Database) (jsonStr : String) :
    Except ImportError Database := do
  let value ← parseStore parse jsonStr
  let entries ← tableEntries value
  if entries = [] then throw .noTables
  entries.foldlM importTable fun table => (db table).clear

/-! ### Keys -/

/-- A list of properties that are all there is there for whatever finds the same. -/
theorem mapM_of_found {α β : Type} {first second : α → Option β} {names : List α}
    {values : List β} (found : names.mapM first = some values)
    (same : ∀ name value, first name = some value → second name = some value) :
    names.mapM second = some values := by
  induction names generalizing values with
  | nil => exact found
  | cons name rest inductionHypothesis =>
    rw [List.mapM_cons] at found ⊢
    obtain ⟨value, there, found⟩ := Option.bind_eq_some_iff.mp found
    obtain ⟨others, restThere, found⟩ := Option.bind_eq_some_iff.mp found
    exact Option.bind_eq_some_iff.mpr ⟨value, same name value there,
      Option.bind_eq_some_iff.mpr ⟨others, inductionHypothesis restThere, found⟩⟩

/-- What has a key is a record. -/
theorem exists_fields_of_keyOf {table : Table} {value : StoreValue} {key : RecordKey}
    (keyed : keyOf table value = some key) : ∃ fields, value = .record fields := by
  cases value with
  | record fields => exact ⟨fields, rfl⟩
  | leaf value => cases keyed
  | array items => cases keyed

/-- The parts of a key are values without parts, defined and without a type. -/
theorem exists_leaf_of_keyPart {value : StoreValue} {part : KeyPart}
    (valid : keyPart value = some part) :
    ∃ single, value = .leaf single ∧ keptLeaf single = some single ∧ untyped single = single := by
  cases value with
  | record fields => cases valid
  | array items => cases valid
  | leaf value =>
    refine ⟨value, rfl, ?_⟩
    cases value with
    | undefined => cases valid
    | null => exact ⟨rfl, rfl⟩
    | boolean value => exact ⟨rfl, rfl⟩
    | number value => exact ⟨rfl, rfl⟩
    | string value => exact ⟨rfl, rfl⟩
    | uint8Array bytes => exact ⟨rfl, rfl⟩
    | blob bytes mimeType => cases valid

/-- What JSON text keeps of a record has its key. -/
theorem keyOf_keptValue {table : Table} {value : StoreValue} {key : RecordKey}
    (keyed : keyOf table value = some key) : keyOf table (keptValue value) = some key := by
  obtain ⟨fields, rfl⟩ := exists_fields_of_keyOf keyed
  unfold keptValue
  rw [prune_record, Option.getD_some]
  refine mapM_of_found keyed fun name part valid => ?_
  obtain ⟨value, found, part⟩ := Option.bind_eq_some_iff.mp valid
  obtain ⟨single, rfl, kept, -⟩ := exists_leaf_of_keyPart part
  refine Option.bind_eq_some_iff.mpr ⟨.leaf single, ?_, part⟩
  exact property?_prune found (by rw [prune_leaf, kept, Option.map_some])

theorem property?_imported {fields others : List (String × StoreValue)}
    (paired : List.Forall₂ (fun field other => other.1 = field.1 ∧
      transformForImport (transformForExport field.2) = .ok other.2) fields others)
    {name : String} {single : StoredLeaf} (plain : untyped single = single)
    (found : property? fields name = some (.leaf single)) :
    property? others name = some (.leaf single) := by
  induction paired with
  | nil => cases found
  | @cons field other _ _ first _ inductionHypothesis =>
    rw [property?_cons] at found ⊢
    rw [first.1]
    by_cases same : field.1 = name
    · rw [if_pos same] at found ⊢
      have imported := first.2
      rw [Option.some.inj found] at imported
      unfold transformForExport at imported
      rw [bind_leaf, transformForImport_leaf, plain] at imported
      rw [← Except.ok.inj imported]
    · rw [if_neg same] at found ⊢
      exact inductionHypothesis found

/-- What is imported of the export of a record has its key, unless it is no record. -/
theorem keyOf_imported {table : Table} {value other : StoreValue} {key : RecordKey}
    (keyed : keyOf table value = some key)
    (imported : transformForImport (transformForExport value) = .ok other) :
    keyOf table other = some key ∨ ∃ single, other = .leaf single := by
  obtain ⟨fields, rfl⟩ := exists_fields_of_keyOf keyed
  by_cases untagged : isUntagged fields = true
  · obtain ⟨others, rfl, paired⟩ := (import_export_record_iff untagged other).mp imported
    refine Or.inl (mapM_of_found keyed fun name part valid => ?_)
    obtain ⟨value, found, part⟩ := Option.bind_eq_some_iff.mp valid
    obtain ⟨single, rfl, -, plain⟩ := exists_leaf_of_keyPart part
    exact Option.bind_eq_some_iff.mpr ⟨.leaf single, property?_imported paired plain found, part⟩
  · have exported : transformForExport (.record fields) =
        .record (fields.map fun field => (field.1, transformForExport field.2)) := bind_record _ _
    rw [exported] at imported
    exact Or.inr (exists_leaf_of_hasType
      (fun plain => untagged ((isUntagged_iff fields).mpr plain)) imported)

/-! ### The records of one table -/

namespace Content

variable {table : Table}

/-- A record with a key is put under it. -/
theorem put_of_keyed (content : Content table) {record : StoreValue} {key : RecordKey}
    (keyed : keyOf table record = some key) :
    ∃ next, content.put record = .ok next ∧ next.records = content.records.insert key record := by
  unfold put
  split
  · rename_i other found
    refine ⟨_, rfl, ?_⟩
    cases keyed.symm.trans found
    rfl
  · rename_i absent
    cases keyed.symm.trans absent

/-- A value that is no record cannot be put. -/
theorem put_leaf (content : Content table) (single : StoredLeaf) :
    content.put (.leaf single) = .error .dataError :=
  rfl

/-- The records with their keys. -/
def entries (table : Table) (records : List StoreValue) : List (RecordKey × StoreValue) :=
  records.filterMap fun record => (keyOf table record).map fun key => (key, record)

theorem mem_entries {records : List StoreValue} {entry : RecordKey × StoreValue} :
    entry ∈ entries table records ↔ entry.2 ∈ records ∧ keyOf table entry.2 = some entry.1 := by
  unfold entries
  rw [List.mem_filterMap]
  constructor
  · rintro ⟨record, listed, same⟩
    obtain ⟨key, keyed, rfl⟩ := Option.map_eq_some_iff.mp same
    exact ⟨listed, keyed⟩
  · rintro ⟨listed, keyed⟩
    exact ⟨entry.2, listed, Option.map_eq_some_iff.mpr ⟨entry.1, keyed, rfl⟩⟩

/-- Records with keys are all put. -/
theorem bulkPut_of_keyed {records : List StoreValue}
    (keyed : ∀ record ∈ records, ∃ key, keyOf table record = some key) (content : Content table) :
    ∃ next, content.bulkPut records = .ok next ∧
      next.records = OrderedMap.insertAll content.records (entries table records) := by
  unfold bulkPut
  induction records generalizing content with
  | nil => exact ⟨content, rfl, rfl⟩
  | cons record rest inductionHypothesis =>
    have ⟨⟨key, first⟩, others⟩ := List.forall_mem_cons.mp keyed
    obtain ⟨middle, written, records⟩ := content.put_of_keyed first
    obtain ⟨next, writtenRest, restRecords⟩ := inductionHypothesis others middle
    refine ⟨next, ?_, ?_⟩
    · rw [List.foldlM_cons]
      exact Fallible.bind_eq_ok.mpr ⟨middle, written, writtenRest⟩
    · unfold entries at restRecords ⊢
      rw [List.filterMap_cons, first, restRecords, records]
      rfl

theorem ne_leaf_of_bulkPut {records : List StoreValue} {content next : Content table}
    (written : content.bulkPut records = .ok next) {single : StoredLeaf} :
    .leaf single ∉ records := by
  unfold bulkPut at written
  induction records generalizing content with
  | nil => exact List.not_mem_nil
  | cons record rest inductionHypothesis =>
    rw [List.foldlM_cons] at written
    obtain ⟨middle, first, writtenRest⟩ := Fallible.bind_eq_ok.mp written
    intro listed
    rcases List.mem_cons.mp listed with rfl | later
    · rw [put_leaf] at first
      cases first
    · exact inductionHypothesis writtenRest later

/-- The records of a table as JSON text has them. -/
def exported (content : Content table) : List PlainValue :=
  (OrderedMap.values content.records).map fun record => transformForExport (keptValue record)

theorem mem_values_iff (content : Content table) {record : StoreValue} :
    record ∈ OrderedMap.values content.records ↔
      ∃ key, keyOf table record = some key ∧ content.records[key]? = some record := by
  rw [OrderedMap.mem_values_iff]
  exact exists_congr fun key =>
    ⟨fun found => ⟨content.keyed key record found, found⟩, fun found => found.2⟩

/-- The records that an import of the exported ones is made of. -/
def ImportedAs (content : Content table) (transformed : List StoreValue) : Prop :=
  List.Forall₂ (fun record other =>
    transformForImport (transformForExport (keptValue record)) = .ok other)
    (OrderedMap.values content.records) transformed

theorem importRecords_exported_iff {source start next : Content table} :
    start.importRecords source.exported = .ok next ↔
      ∃ transformed, source.ImportedAs transformed ∧ start.bulkPut transformed = .ok next := by
  unfold importRecords exported ImportedAs
  rw [Fallible.bind_eq_ok]
  simp only [Fallible.mapM_eq_ok_iff, List.forall₂_map_left_iff]

/-- Where only records are imported, each of them has the key of the one that it is made of, and
no two of them have one key. -/
theorem ImportedAs.keyOf {source : Content table} {transformed : List StoreValue}
    (imported : source.ImportedAs transformed) (records : ∀ single, .leaf single ∉ transformed)
    {other : StoreValue} (listed : other ∈ transformed) :
    ∃ key record, source.records[key]? = some record ∧
      transformForImport (transformForExport (keptValue record)) = .ok other ∧
        StoreExport.keyOf table other = some key := by
  obtain ⟨record, stored, made⟩ := Fallible.exists_of_forall₂_right imported listed
  obtain ⟨key, keyed, found⟩ := source.mem_values_iff.mp stored
  refine ⟨key, record, found, made, (keyOf_imported (keyOf_keptValue keyed) made).resolve_right ?_⟩
  rintro ⟨single, rfl⟩
  exact records single listed

theorem ImportedAs.agree {source : Content table} {transformed : List StoreValue}
    (imported : source.ImportedAs transformed) (records : ∀ single, .leaf single ∉ transformed) :
    ∀ first ∈ entries table transformed, ∀ second ∈ entries table transformed,
      first.1 = second.1 → first = second := by
  intro first firstListed second secondListed same
  obtain ⟨firstListed, firstKeyed⟩ := mem_entries.mp firstListed
  obtain ⟨secondListed, secondKeyed⟩ := mem_entries.mp secondListed
  obtain ⟨key, record, found, made, keyed⟩ := imported.keyOf records firstListed
  obtain ⟨keyToo, recordToo, foundToo, madeToo, keyedToo⟩ := imported.keyOf records secondListed
  cases keyed.symm.trans firstKeyed
  cases keyedToo.symm.trans secondKeyed
  rw [← same] at foundToo
  cases found.symm.trans foundToo
  exact Prod.ext same (Except.ok.inj (made.symm.trans madeToo))

/-- Imported records are put under the keys of those that they are made of. -/
theorem ImportedAs.bulkPut {source start : Content table} {transformed : List StoreValue}
    (imported : source.ImportedAs transformed) (cleared : start.records = ∅)
    (records : ∀ single, .leaf single ∉ transformed) :
    ∃ next, start.bulkPut transformed = .ok next ∧ ∀ (key : RecordKey) value,
      next.records[key]? = some value ↔
        value ∈ transformed ∧ StoreExport.keyOf table value = some key := by
  have keyed : ∀ record ∈ transformed, ∃ key, StoreExport.keyOf table record = some key := by
    intro other listed
    obtain ⟨key, -, -, -, keyed⟩ := imported.keyOf records listed
    exact ⟨key, keyed⟩
  obtain ⟨next, written, stored⟩ := bulkPut_of_keyed keyed start
  refine ⟨next, written, fun key value => ?_⟩
  rw [stored, cleared, OrderedMap.insertAll_empty_eq_some_iff (imported.agree records)]
  exact mem_entries

/-- Only records that do not look like the export of a binary value come back. -/
theorem untagged_of_kept {source start next : Content table} (cleared : start.records = ∅)
    (written : start.importRecords source.exported = .ok next)
    (kept : next.records = source.records.map fun _ record => keptValue record)
    {key : RecordKey} {record : StoreValue} (found : source.records[key]? = some record) :
    everyRecord isUntagged record = true := by
  obtain ⟨transformed, imported, written⟩ := importRecords_exported_iff.mp written
  have records : ∀ single, .leaf single ∉ transformed := fun _ => ne_leaf_of_bulkPut written
  obtain ⟨_, writtenToo, stored⟩ := imported.bulkPut cleared records
  cases written.symm.trans writtenToo
  have keyed := source.keyed key record found
  obtain ⟨other, listed, made⟩ := Fallible.exists_of_forall₂_left imported
    (source.mem_values_iff.mpr ⟨key, keyed, found⟩)
  have otherKeyed : StoreExport.keyOf table other = some key := by
    refine (keyOf_imported (keyOf_keptValue keyed) made).resolve_right ?_
    rintro ⟨single, rfl⟩
    exact records single listed
  have there := (stored key other).mpr ⟨listed, otherKeyed⟩
  rw [kept, ExtTreeMap.getElem?_map, found, Option.map_some] at there
  rw [← Option.some.inj there] at made
  exact (import_export_keptValue_iff record).mp made

/-- Records that do not look like the export of a binary value come back. -/
theorem exists_kept_of_untagged (source : Content table) {start : Content table}
    (cleared : start.records = ∅)
    (untagged : ∀ (key : RecordKey) record, source.records[key]? = some record →
      everyRecord isUntagged record = true) :
    ∃ next, start.importRecords source.exported = .ok next ∧
      next.records = source.records.map fun _ record => keptValue record := by
  have imported : source.ImportedAs ((OrderedMap.values source.records).map keptValue) := by
    refine List.forall₂_map_right_iff.mpr (List.forall₂_same.mpr fun record stored => ?_)
    obtain ⟨key, -, found⟩ := source.mem_values_iff.mp stored
    exact (import_export_keptValue_iff record).mpr (untagged key record found)
  have records : ∀ single, .leaf single ∉ (OrderedMap.values source.records).map keptValue := by
    intro single listed
    obtain ⟨record, stored, same⟩ := List.mem_map.mp listed
    obtain ⟨key, keyed, -⟩ := source.mem_values_iff.mp stored
    obtain ⟨fields, whole⟩ := exists_fields_of_keyOf (keyOf_keptValue keyed)
    rw [same] at whole
    cases whole
  obtain ⟨next, written, stored⟩ := imported.bulkPut cleared records
  refine ⟨next, importRecords_exported_iff.mpr ⟨_, imported, written⟩, ?_⟩
  refine ExtTreeMap.ext_getElem? fun key => Option.ext fun value => ?_
  rw [stored, List.mem_map, ExtTreeMap.getElem?_map, Option.map_eq_some_iff]
  constructor
  · rintro ⟨⟨record, listed, rfl⟩, keyed⟩
    obtain ⟨there, recordKeyed, found⟩ := source.mem_values_iff.mp listed
    cases (keyOf_keptValue recordKeyed).symm.trans keyed
    exact ⟨record, found, rfl⟩
  · rintro ⟨record, found, rfl⟩
    have keyed := source.keyed key record found
    exact ⟨⟨record, source.mem_values_iff.mpr ⟨key, keyed, found⟩, rfl⟩, keyOf_keptValue keyed⟩

end Content

/-! ### The whole store -/

/-- The JSON text of a store has what is kept of its records. -/
theorem jsonValue_dbJson (db : Database) :
    jsonValue (dbJson db) = some (.record (Table.all.map fun table =>
      (table.name, .array (db table).exported))) := by
  have kept : ∀ table, prune jsonLeaf .null (.array
      ((OrderedMap.values (db table).records).map transformForExport)) =
        some (.array (db table).exported) := by
    intro table
    unfold Content.exported
    rw [prune_array, List.map_map]
    refine congrArg (fun items => some (array items)) (List.map_congr_left fun record stored => ?_)
    obtain ⟨key, keyed, -⟩ := (db table).mem_values_iff.mp stored
    obtain ⟨fields, rfl⟩ := exists_fields_of_keyOf keyed
    show (jsonValue (transformForExport (.record fields))).getD (.leaf .null) = _
    rw [jsonValue_transformForExport, Option.getD_some]
  unfold jsonValue dbJson
  rw [prune_record, List.filterMap_map]
  refine congrArg (fun fields => some (record fields)) ?_
  refine (List.filterMap_congr fun table _ => ?_).trans (congrFun List.filterMap_eq_map _)
  exact congrArg (Option.map fun left => (table.name, left)) (kept table)

theorem importTable_name (db : Database) (table : Table) (records : List PlainValue) :
    importTable db (table.name, .array records) =
      ((db table).importRecords records).map (Function.update db table) := by
  unfold importTable
  rw [Table.ofName?_name]

/-- Tables are imported independently of each other. -/
theorem foldlM_importTable_iff {tables : List Table} (distinct : tables.Nodup)
    (recordsOf : Table → List PlainValue) {start result : Database} :
    (tables.map fun table => (table.name, array (recordsOf table))).foldlM importTable start =
        .ok result ↔
      ∀ table, (table ∈ tables →
          (start table).importRecords (recordsOf table) = .ok (result table)) ∧
        (table ∉ tables → result table = start table) := by
  induction tables generalizing start with
  | nil =>
    constructor
    · intro same
      cases same
      exact fun table => ⟨fun absent => absurd absent List.not_mem_nil, fun _ => rfl⟩
    · intro same
      have equal : result = start := funext fun table => (same table).2 List.not_mem_nil
      rw [equal]
      rfl
  | cons table rest inductionHypothesis =>
    obtain ⟨absent, distinctRest⟩ := List.nodup_cons.mp distinct
    rw [List.map_cons, List.foldlM_cons, importTable_name, Fallible.bind_eq_ok]
    simp only [Fallible.map_eq_ok, inductionHypothesis distinctRest]
    constructor
    · rintro ⟨_, ⟨content, imported, rfl⟩, others⟩ other
      by_cases same : other = table
      · subst same
        have kept := (others other).2 absent
        rw [Function.update_self] at kept
        exact ⟨fun _ => kept ▸ imported, fun missing => absurd List.mem_cons_self missing⟩
      · have there := others other
        rw [Function.update_of_ne same] at there
        rw [List.mem_cons, or_iff_right same]
        exact there
    · intro each
      refine ⟨_, ⟨result table, (each table).1 List.mem_cons_self, rfl⟩, fun other => ?_⟩
      have there := each other
      by_cases same : other = table
      · subst same
        rw [Function.update_self]
        exact ⟨fun listed => absurd listed absent, fun _ => rfl⟩
      · rw [Function.update_of_ne same]
        rw [List.mem_cons, or_iff_right same] at there
        exact there

/-- The text is the export of a store, or a JSON text that quotes it. -/
def IsExportOf (stringify : PlainValue → Option String) (parse : String → Option PlainValue)
    (source : Database) (jsonStr : String) : Prop :=
  exportStore stringify source = some jsonStr ∨ ∃ text,
    exportStore stringify source = some text ∧ parse jsonStr = some (.leaf (.string text))

/-- `JSON.parse` reads the text of a store as what JSON text keeps of it. -/
def ReadsExport (stringify : PlainValue → Option String) (parse : String → Option PlainValue)
    (source : Database) : Prop :=
  (exportStore stringify source).bind parse = jsonValue (dbJson source)

theorem parseStore_of_isExportOf {stringify : PlainValue → Option String}
    {parse : String → Option PlainValue} {source : Database} {jsonStr : String}
    (reads : ReadsExport stringify parse source)
    (given : IsExportOf stringify parse source jsonStr) :
    parseStore parse jsonStr = .ok (.record (Table.all.map fun table =>
      (table.name, .array (source table).exported))) := by
  unfold ReadsExport at reads
  rw [jsonValue_dbJson] at reads
  unfold parseStore
  rcases given with written | ⟨text, written, quoted⟩
  · rw [written, Option.bind_some] at reads
    rw [reads]
  · rw [written, Option.bind_some] at reads
    rw [quoted]
    dsimp only
    rw [reads]
    rfl

/-- Whatever was in a store, importing the export of another one makes it hold the records of that
one, as JSON text keeps them, exactly when no exported record looks like the export of a binary
value anywhere inside. -/
theorem forceImportStore_exportStore_iff {stringify : PlainValue → Option String}
    {parse : String → Option PlainValue} {source : Database} {jsonStr : String}
    (reads : ReadsExport stringify parse source)
    (given : IsExportOf stringify parse source jsonStr) (target : Database) :
    (∃ result, forceImportStore parse target jsonStr = .ok result ∧
        ∀ table, (result table).records =
          (source table).records.map fun _ record => keptValue record) ↔
      ∀ table (key : RecordKey) record, (source table).records[key]? = some record →
        everyRecord isUntagged record = true := by
  have imports : ∀ result, forceImportStore parse target jsonStr = .ok result ↔
      ∀ table, (target table).clear.importRecords (source table).exported = .ok (result table) := by
    intro result
    have imported := @foldlM_importTable_iff Table.all Table.nodup_all
      (fun table => (source table).exported) (fun table => (target table).clear) result
    unfold forceImportStore
    rw [parseStore_of_isExportOf reads given]
    refine Iff.trans ?_ (imported.trans (forall_congr' fun table => ?_))
    · exact Iff.rfl
    · exact ⟨fun both => both.1 (Table.mem_all table), fun made =>
        ⟨fun _ => made, fun missing => absurd (Table.mem_all table) missing⟩⟩
  constructor
  · rintro ⟨result, made, kept⟩ table key record found
    exact Content.untagged_of_kept rfl ((imports result).mp made table) (kept table) found
  · intro untagged
    have each : ∀ table, ∃ next,
        (target table).clear.importRecords (source table).exported = .ok next ∧
          next.records = (source table).records.map fun _ record => keptValue record :=
      fun table => Content.exists_kept_of_untagged (source table) rfl (untagged table)
    choose result made kept using each
    exact ⟨result, (imports result).mpr made, kept⟩

end StoreExport

/-! ### A setting -/

namespace Sample

open StoreExport Document

/-- A table without records. -/
def emptyContent (table : Table) : Content table where
  records := ∅
  keyed := by
    intro key record found
    rw [Std.ExtTreeMap.getElem?_empty] at found
    cases found
  nextKey := 1

/-- A setting of some bytes, with a property that is undefined and a list. -/
def setting : StoreValue :=
  .record [("key", .leaf (.string "clientVersion")), ("value", .leaf (.uint8Array [48, 46, 49])),
    ("comment", .leaf .undefined),
    ("seen", .array [.leaf (.number (-2)), .leaf (.blob [7] "text/plain")])]

def settingKey : RecordKey :=
  [Sum.inrₗ (Sum.inlₗ "clientVersion")]

theorem keyOf_setting : keyOf .settings setting = some settingKey :=
  rfl

/-- A store with one setting. -/
def settingStore : Database :=
  Function.update emptyContent .settings ((emptyContent .settings).write keyOf_setting)

/-! #### A text for every value -/

/-- The letters of a text, each behind a mark, up to an end. -/
def quoted (text : String) : List Char :=
  text.toList.flatMap (fun letter => ['c', letter]) ++ ['e']

/-- A number in strokes. -/
def strokes (number : ℕ) : List Char :=
  List.replicate number 'c' ++ ['e']

mutual

/-- A mark for the kind of a value, and then its parts. -/
def written : PlainValue → List Char
  | .leaf .undefined => ['u']
  | .leaf .null => ['n']
  | .leaf (.boolean value) => [if value then 't' else 'f']
  | .leaf (.number (.ofNat value)) => 'p' :: strokes value
  | .leaf (.number (.negSucc value)) => 'm' :: strokes value
  | .leaf (.string value) => 's' :: quoted value
  | .array items => 'a' :: writtenItems items
  | .record fields => 'r' :: writtenFields fields

def writtenItems : List PlainValue → List Char
  | [] => ['e']
  | item :: rest => 'c' :: written item ++ writtenItems rest

def writtenFields : List (String × PlainValue) → List Char
  | [] => ['e']
  | (name, value) :: rest => 'c' :: quoted name ++ written value ++ writtenFields rest

end

/-! #### Reading such a text -/

def readQuoted : List Char → Option (List Char × List Char)
  | 'e' :: rest => some ([], rest)
  | 'c' :: letter :: rest => (readQuoted rest).map fun read => (letter :: read.1, read.2)
  | _ => none

def readStrokes : List Char → Option (ℕ × List Char)
  | 'e' :: rest => some (0, rest)
  | 'c' :: rest => (readStrokes rest).map fun read => (read.1 + 1, read.2)
  | _ => none

mutual

def readValue : ℕ → List Char → Option (PlainValue × List Char)
  | _ + 1, 'u' :: rest => some (.leaf .undefined, rest)
  | _ + 1, 'n' :: rest => some (.leaf .null, rest)
  | _ + 1, 't' :: rest => some (.leaf (.boolean true), rest)
  | _ + 1, 'f' :: rest => some (.leaf (.boolean false), rest)
  | _ + 1, 'p' :: rest =>
    (readStrokes rest).map fun read => (.leaf (.number (.ofNat read.1)), read.2)
  | _ + 1, 'm' :: rest =>
    (readStrokes rest).map fun read => (.leaf (.number (.negSucc read.1)), read.2)
  | _ + 1, 's' :: rest =>
    (readQuoted rest).map fun read => (.leaf (.string (String.ofList read.1)), read.2)
  | depth + 1, 'a' :: rest => (readItems depth rest).map fun read => (.array read.1, read.2)
  | depth + 1, 'r' :: rest => (readFields depth rest).map fun read => (.record read.1, read.2)
  | _, _ => none

def readItems : ℕ → List Char → Option (List PlainValue × List Char)
  | _ + 1, 'e' :: rest => some ([], rest)
  | depth + 1, 'c' :: rest => do
    let (item, rest) ← readValue depth rest
    let (items, rest) ← readItems depth rest
    return (item :: items, rest)
  | _, _ => none

def readFields : ℕ → List Char → Option (List (String × PlainValue) × List Char)
  | _ + 1, 'e' :: rest => some ([], rest)
  | depth + 1, 'c' :: rest => do
    let (name, rest) ← readQuoted rest
    let (value, rest) ← readValue depth rest
    let (fields, rest) ← readFields depth rest
    return ((String.ofList name, value) :: fields, rest)
  | _, _ => none

end

/-- The text of what is kept of a value. -/
def writeText (value : PlainValue) : Option String :=
  (jsonValue value).map fun left => String.ofList (written left)

def readText (text : String) : Option PlainValue :=
  (readValue text.length text.toList).map Prod.fst

theorem readQuoted_quoted (text : String) (rest : List Char) :
    readQuoted (quoted text ++ rest) = some (text.toList, rest) := by
  unfold quoted
  induction text.toList with
  | nil => rfl
  | cons letter others inductionHypothesis =>
    simp only [List.flatMap_cons, List.cons_append, List.nil_append]
    rw [readQuoted, inductionHypothesis]
    rfl

theorem readStrokes_strokes (number : ℕ) (rest : List Char) :
    readStrokes (strokes number ++ rest) = some (number, rest) := by
  unfold strokes
  induction number with
  | zero => rfl
  | succ number inductionHypothesis =>
    simp only [List.replicate_succ, List.cons_append]
    rw [readStrokes, inductionHypothesis]
    rfl

mutual

/-- A reader that may go as deep as the text is long reads what was written. -/
theorem readValue_written : ∀ (value : PlainValue) (rest : List Char) (depth : ℕ),
    (written value).length ≤ depth → readValue depth (written value ++ rest) = some (value, rest)
  | .leaf .undefined, rest, depth + 1, _ => rfl
  | .leaf .null, rest, depth + 1, _ => rfl
  | .leaf (.boolean true), rest, depth + 1, _ => rfl
  | .leaf (.boolean false), rest, depth + 1, _ => rfl
  | .leaf (.number (.ofNat number)), rest, depth + 1, _ => by
    rw [written, List.cons_append, readValue, readStrokes_strokes]
    rfl
  | .leaf (.number (.negSucc number)), rest, depth + 1, _ => by
    rw [written, List.cons_append, readValue, readStrokes_strokes]
    rfl
  | .leaf (.string text), rest, depth + 1, _ => by
    rw [written, List.cons_append, readValue, readQuoted_quoted]
    simp only [Option.map_some, String.ofList_toList]
  | .array items, rest, depth + 1, enough => by
    rw [written, List.length_cons] at enough
    rw [written, List.cons_append, readValue, readItems_written items rest depth (by omega)]
    rfl
  | .record fields, rest, depth + 1, enough => by
    rw [written, List.length_cons] at enough
    rw [written, List.cons_append, readValue, readFields_written fields rest depth (by omega)]
    rfl
  | .leaf .undefined, _, 0, enough | .leaf .null, _, 0, enough
  | .leaf (.boolean _), _, 0, enough | .leaf (.number (.ofNat _)), _, 0, enough
  | .leaf (.number (.negSucc _)), _, 0, enough | .leaf (.string _), _, 0, enough
  | .array _, _, 0, enough | .record _, _, 0, enough => by
    simp only [written, List.length_cons] at enough
    omega

theorem readItems_written : ∀ (items : List PlainValue) (rest : List Char) (depth : ℕ),
    (writtenItems items).length ≤ depth →
      readItems depth (writtenItems items ++ rest) = some (items, rest)
  | [], rest, depth + 1, _ => rfl
  | item :: others, rest, depth + 1, enough => by
    simp only [writtenItems, List.cons_append, List.length_cons, List.length_append] at enough
    rw [writtenItems, List.cons_append, List.cons_append, List.append_assoc, readItems,
      readValue_written item _ depth (by omega)]
    simp only [Option.bind_eq_bind, Option.bind_some,
      readItems_written others rest depth (by omega)]
    rfl
  | [], _, 0, enough | _ :: _, _, 0, enough => by
    simp only [writtenItems, List.cons_append, List.length_cons] at enough
    omega

theorem readFields_written : ∀ (fields : List (String × PlainValue)) (rest : List Char)
    (depth : ℕ), (writtenFields fields).length ≤ depth →
      readFields depth (writtenFields fields ++ rest) = some (fields, rest)
  | [], rest, depth + 1, _ => rfl
  | (name, value) :: others, rest, depth + 1, enough => by
    simp only [writtenFields, List.cons_append, List.length_cons, List.length_append] at enough
    simp only [writtenFields, List.cons_append, List.append_assoc]
    rw [readFields, readQuoted_quoted]
    simp only [Option.bind_eq_bind, Option.bind_some, String.ofList_toList,
      readValue_written value _ depth (by omega), readFields_written others rest depth (by omega)]
    rfl
  | [], _, 0, enough | _ :: _, _, 0, enough => by
    simp only [writtenFields, List.cons_append, List.length_cons] at enough
    omega

end

theorem readText_writeText (value : PlainValue) :
    (writeText value).bind readText = jsonValue value := by
  unfold writeText
  cases jsonValue value with
  | none => rfl
  | some left =>
    have read := readValue_written left [] (written left).length le_rfl
    rw [List.append_nil] at read
    simp only [Option.map_some, Option.bind_some, readText, String.toList_ofList,
      String.length_ofList, read]

/-- Every store is read as what JSON text keeps of it. -/
theorem readsExport_text (source : Database) : ReadsExport writeText readText source :=
  readText_writeText (dbJson source)

theorem isUntagged_setting : everyRecord isUntagged setting = true := by
  decide +kernel

/-- The setting is imported into a store without records. -/
theorem forceImportStore_setting :
    ∃ jsonStr, exportStore writeText settingStore = some jsonStr ∧
      ∃ result, forceImportStore readText emptyContent jsonStr = .ok result ∧
        ∀ table, (result table).records =
          (settingStore table).records.map fun _ record => keptValue record := by
  obtain ⟨jsonStr, given⟩ : ∃ jsonStr, exportStore writeText settingStore = some jsonStr := by
    unfold exportStore writeText
    rw [jsonValue_dbJson]
    exact ⟨_, rfl⟩
  have reads : ReadsExport writeText readText settingStore := readsExport_text settingStore
  refine ⟨jsonStr, given,
    (forceImportStore_exportStore_iff reads (Or.inl given) emptyContent).mpr ?_⟩
  intro table key record found
  have absent : ∀ {table : Table}, (emptyContent table).records[key]? ≠ some record := by
    intro table there
    rw [show (emptyContent table).records = ∅ from rfl, Std.ExtTreeMap.getElem?_empty] at there
    cases there
  by_cases same : table = .settings
  · subst same
    unfold settingStore at found
    rw [Function.update_self] at found
    change ((emptyContent .settings).records.insert settingKey setting)[key]? = some record at found
    rw [Std.ExtTreeMap.getElem?_insert] at found
    split at found
    · cases found
      exact isUntagged_setting
    · exact absurd found absent
  · unfold settingStore at found
    rw [Function.update_of_ne same] at found
    exact absurd found absent

end Sample

end MidenClient
