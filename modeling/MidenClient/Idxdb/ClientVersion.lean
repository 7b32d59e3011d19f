/-
This file models how the IndexedDB store of the web client keeps programs of different versions
apart (`idxdb-store/src/ts/schema.ts`, `idxdb-store/src/ts/settings.ts`).

Nothing in the store is migrated. The store keeps the version of the program that opened it last,
and a program that finds an older version there, as far as major and minor version go, deletes
the store. The main theorem says that no program finds anything in the store that a program of
an older minor version has written, apart from the row a new database is populated with, over any
run of programs that open it, write to it, and may be cut off while they open it. One program has
the store open at a time. npm's `semver` is a parameter, with what it documents.
-/

import MidenClient.Library.OrderedMap
import MidenClient.Library.Run

namespace MidenClient

open Std (ExtTreeMap)

/-! ### Versions -/

/-- What the store reads of a version that parses. -/
structure SemVersion where
  major : ℕ
  minor : ℕ
  deriving DecidableEq, Repr

namespace SemVersion

def sameMajorMinor (first second : SemVersion) : Bool :=
  first.major == second.major && first.minor == second.minor

/-- The minor version of one version is no later than that of another. -/
def MinorLe (first second : SemVersion) : Prop :=
  first.major < second.major ∨ first.major = second.major ∧ first.minor ≤ second.minor

theorem MinorLe.trans {first second third : SemVersion} (lower : first.MinorLe second)
    (upper : second.MinorLe third) : first.MinorLe third := by
  rw [MinorLe] at lower upper ⊢
  omega

end SemVersion

/-- What the store uses of npm's `semver`: the parsed version of a valid text, and whether one
text is a later version than another. -/
structure Semver where
  parse : String → Option SemVersion
  gt : String → String → Bool

/-- What `semver` documents: a valid version of a later major version is later, and so is one of
the same major and a later minor version. -/
structure Semver.Documented (semver : Semver) : Prop where
  gt_major : ∀ {first second current stored}, semver.parse first = some current →
    semver.parse second = some stored → stored.major < current.major →
    semver.gt first second = true
  gt_minor : ∀ {first second current stored}, semver.parse first = some current →
    semver.parse second = some stored → stored.major = current.major →
    stored.minor < current.minor → semver.gt first second = true

/-! ### The store -/

def clientVersionSettingKey : String :=
  "clientVersion"

/-- A setting, with the version of the program that has written it. -/
structure VersionedSetting where
  value : String
  writtenBy : String
  deriving DecidableEq, Repr

/-- The database of a store. It may be absent; where it is not, `populatedBy` is the version of the
program that has created it, and populated it with the row of a chain that is not synced yet. Each
record comes with the version of the program that has written it, which the store does not keep.
`openedBy` is the version of the program that has the store open. -/
structure VersionedStore (Record : Type) where
  populatedBy : Option String
  settings : ExtTreeMap String VersionedSetting
  records : List (Record × String)
  openedBy : Option String

/-- How far a program comes with opening a store before it is cut off. -/
inductive OpenStage where
  | opened
  | deleted
  | reopened
  | completed
  deriving DecidableEq, Repr

/-- What is done with a store. -/
inductive StoreEvent (Record : Type) where
  | openDatabase (clientVersion : String) (stage : OpenStage)
  | closeDatabase
  | put (record : Record)
  | insertSetting (key value : String)
  | removeSetting (key : String)

namespace VersionedStore

variable {Record : Type}

/-- No database has been created yet, or it has been deleted. -/
def absent : VersionedStore Record :=
  ⟨none, ∅, [], none⟩

/-- Dexie opens a database, and creates and populates it where there is none. -/
def dexieOpen (store : VersionedStore Record) (clientVersion : String) : VersionedStore Record :=
  { store with populatedBy := store.populatedBy.or (some clientVersion), openedBy := none }

/-- An empty text counts as no version. -/
def getStoredClientVersion (store : VersionedStore Record) : Option String :=
  match store.settings[clientVersionSettingKey]? with
  | some setting => if setting.value = "" then none else some setting.value
  | none => none

/-- The program that opens the store has come to the end of it. -/
def complete (store : VersionedStore Record) (clientVersion : String) (stage : OpenStage) :
    VersionedStore Record :=
  if stage = .completed then { store with openedBy := some clientVersion } else store

/-- The version is persisted, unless the program is cut off before. -/
def persistClientVersion (store : VersionedStore Record) (clientVersion : String)
    (stage : OpenStage) : VersionedStore Record :=
  if stage = .completed then
    { store with
      settings := store.settings.insert clientVersionSettingKey ⟨clientVersion, clientVersion⟩
      openedBy := some clientVersion }
  else store

/-- The database is deleted and opened again, as far as the program comes. -/
def resetStore (store : VersionedStore Record) (clientVersion : String) (stage : OpenStage) :
    VersionedStore Record :=
  match stage with
  | .opened => store
  | .deleted => absent
  | .reopened | .completed =>
    (dexieOpen absent clientVersion).persistClientVersion clientVersion stage

variable (semver : Semver)

/-- A store of another version is kept when both versions parse, and the program is not of a
later minor version. -/
def keepsStore (clientVersion storedVersion : String) : Bool :=
  match semver.parse clientVersion, semver.parse storedVersion with
  | some current, some stored =>
    current.sameMajorMinor stored || !semver.gt clientVersion storedVersion
  | _, _ => false

def ensureClientVersion (store : VersionedStore Record) (clientVersion : String)
    (stage : OpenStage) : VersionedStore Record :=
  if clientVersion = "" then store.complete clientVersion stage
  else
    match store.getStoredClientVersion with
    | none => store.persistClientVersion clientVersion stage
    | some storedVersion =>
      if storedVersion = clientVersion then store.complete clientVersion stage
      else if keepsStore semver clientVersion storedVersion then
        store.persistClientVersion clientVersion stage
      else store.resetStore clientVersion stage

/-- A program writes while it has the store open. -/
def writes (store : VersionedStore Record)
    (write : String → VersionedStore Record) : VersionedStore Record :=
  match store.openedBy with
  | some clientVersion => write clientVersion
  | none => store

def step (store : VersionedStore Record) : StoreEvent Record → VersionedStore Record
  | .openDatabase clientVersion stage =>
    (store.dexieOpen clientVersion).ensureClientVersion semver clientVersion stage
  | .closeDatabase => { store with openedBy := none }
  | .put record => store.writes fun clientVersion =>
    { store with records := store.records ++ [(record, clientVersion)] }
  | .insertSetting key value => store.writes fun clientVersion =>
    { store with settings := store.settings.insert key ⟨value, clientVersion⟩ }
  | .removeSetting key => store.writes fun _ =>
    { store with settings := store.settings.erase key }

/-- Programs have a version, and leave the setting that holds it alone. -/
def KeepsVersion (_ : VersionedStore Record) : StoreEvent Record → Prop
  | .openDatabase clientVersion _ => clientVersion ≠ ""
  | .insertSetting key _ => key ≠ clientVersionSettingKey
  | .removeSetting key => key ≠ clientVersionSettingKey
  | _ => True

/-! ### What a program finds -/

/-- What a program of one version has written may be found by a program of another: it is the
same version, or of a minor version that is no later. -/
def Readable (writtenBy clientVersion : String) : Prop :=
  writtenBy = clientVersion ∨ ∃ writer reader, semver.parse writtenBy = some writer ∧
    semver.parse clientVersion = some reader ∧ reader.MinorLe writer

/-- All that has been written to a store since it was populated may be found by programs of a
version. -/
structure ReadableBy (store : VersionedStore Record) (clientVersion : String) : Prop where
  records : ∀ entry ∈ store.records, Readable semver entry.2 clientVersion
  settings : ∀ (key : String) setting, store.settings[key]? = some setting →
    Readable semver setting.writtenBy clientVersion

/-- A store is readable by the version it keeps, which is that of the program that has it open, in
a database that is there; and a store that keeps no version is as it was when it was populated. -/
structure Guarded (store : VersionedStore Record) : Prop where
  opened : ∀ clientVersion, store.openedBy = some clientVersion →
    store.populatedBy.isSome ∧ store.getStoredClientVersion = some clientVersion
  stored : ∀ clientVersion, store.getStoredClientVersion = some clientVersion →
    ReadableBy semver store clientVersion
  unversioned : store.getStoredClientVersion = none → store.settings = ∅ ∧ store.records = []

variable {semver}

theorem Readable.refl (clientVersion : String) : Readable semver clientVersion clientVersion :=
  .inl rfl

/-- A version that does not reset the store is of no later minor version. -/
theorem minorLe_of_kept (documented : semver.Documented) {clientVersion storedVersion : String}
    {current stored : SemVersion} (parsed_current : semver.parse clientVersion = some current)
    (parsed_stored : semver.parse storedVersion = some stored)
    (kept : (current.sameMajorMinor stored || !semver.gt clientVersion storedVersion) = true) :
    current.MinorLe stored := by
  rcases Bool.or_eq_true_iff.mp kept with same | older
  · rw [SemVersion.sameMajorMinor, Bool.and_eq_true, beq_iff_eq, beq_iff_eq] at same
    exact .inr ⟨same.1, le_of_eq same.2⟩
  · rw [Bool.not_eq_true'] at older
    have major : ¬ stored.major < current.major := fun later => by
      rw [documented.gt_major parsed_current parsed_stored later] at older
      cases older
    have minor : stored.major = current.major → ¬ stored.minor < current.minor :=
      fun same later => by
        rw [documented.gt_minor parsed_current parsed_stored same later] at older
        cases older
    rw [SemVersion.MinorLe]
    omega

/-- What the version of a store may find, a program that keeps the store may find too. -/
theorem Readable.kept (documented : semver.Documented)
    {writtenBy storedVersion clientVersion : String}
    (readable : Readable semver writtenBy storedVersion)
    (kept : keepsStore semver clientVersion storedVersion = true) :
    Readable semver writtenBy clientVersion := by
  rw [keepsStore] at kept
  split at kept
  · rename_i current stored parsed_current parsed_stored
    have lower := minorLe_of_kept documented parsed_current parsed_stored kept
    rcases readable with rfl | ⟨writer, reader, parsed_writer, parsed_reader, upper⟩
    · exact .inr ⟨stored, current, parsed_stored, parsed_current, lower⟩
    · rw [parsed_stored, Option.some_inj] at parsed_reader
      rw [← parsed_reader] at upper
      exact .inr ⟨writer, current, parsed_writer, parsed_current, lower.trans upper⟩
  · cases kept

theorem dexieOpen_populated (store : VersionedStore Record) (clientVersion : String) :
    (store.dexieOpen clientVersion).populatedBy.isSome := by
  rw [dexieOpen]
  cases store.populatedBy <;> rfl

theorem readableBy_of_empty {store : VersionedStore Record} (settings : store.settings = ∅)
    (records : store.records = []) (clientVersion : String) :
    ReadableBy semver store clientVersion where
  records := by
    rw [records]
    intro entry member
    exact absurd member List.not_mem_nil
  settings := by
    rw [settings]
    intro key setting found
    simp at found

namespace Guarded

variable {store : VersionedStore Record}

theorem absent : Guarded semver (VersionedStore.absent : VersionedStore Record) where
  opened := by
    intro clientVersion opened
    cases opened
  stored := by
    intro clientVersion stored
    simp [getStoredClientVersion, VersionedStore.absent] at stored
  unversioned := fun _ => ⟨rfl, rfl⟩

/-- Nobody has the store open any more. -/
theorem closed (guarded : Guarded semver store) {next : VersionedStore Record}
    (nobody : next.openedBy = none) (settings : next.settings = store.settings)
    (records : next.records = store.records) : Guarded semver next := by
  have version : next.getStoredClientVersion = store.getStoredClientVersion := by
    rw [getStoredClientVersion, settings, getStoredClientVersion]
  refine ⟨fun clientVersion opened => ?_, fun clientVersion stored => ?_, fun unknown => ?_⟩
  · rw [nobody] at opened
    cases opened
  · have readable := guarded.stored clientVersion (version ▸ stored)
    constructor
    · rw [records]
      exact readable.records
    · rw [settings]
      exact readable.settings
  · rw [settings, records]
    exact guarded.unversioned (version ▸ unknown)

theorem dexieOpen (guarded : Guarded semver store) (clientVersion : String) :
    Guarded semver (store.dexieOpen clientVersion) :=
  guarded.closed rfl rfl rfl

/-- A program persists its version, in a store in which it may find everything. -/
theorem persistClientVersion (guarded : Guarded semver store) {clientVersion : String}
    (named : clientVersion ≠ "") (populated : store.populatedBy.isSome)
    (readable : ReadableBy semver store clientVersion) (stage : OpenStage) :
    Guarded semver (store.persistClientVersion clientVersion stage) := by
  rw [VersionedStore.persistClientVersion]
  split
  · have stored : getStoredClientVersion { store with
        settings := store.settings.insert clientVersionSettingKey ⟨clientVersion, clientVersion⟩
        openedBy := some clientVersion } = some clientVersion := by
      simp [getStoredClientVersion, named]
    refine ⟨fun other opened => ⟨populated, stored.trans opened⟩, fun other known => ?_,
      fun unknown => ?_⟩
    · rw [stored, Option.some_inj] at known
      rw [← known]
      refine ⟨readable.records, fun key setting found => ?_⟩
      rw [ExtTreeMap.getElem?_insert] at found
      split at found
      · rw [← Option.some_inj.mp found]
        exact .refl clientVersion
      · exact readable.settings key setting found
    · rw [stored] at unknown
      cases unknown
  · exact guarded

/-- A program comes to the end of opening a store of its own version. -/
theorem complete (guarded : Guarded semver store) {clientVersion : String}
    (populated : store.populatedBy.isSome)
    (known : store.getStoredClientVersion = some clientVersion) (stage : OpenStage) :
    Guarded semver (store.complete clientVersion stage) := by
  rw [VersionedStore.complete]
  split
  · refine ⟨fun other opened => ⟨populated, known.trans opened⟩, fun other stored => ?_,
      guarded.unversioned⟩
    have readable := guarded.stored other stored
    exact ⟨readable.records, readable.settings⟩
  · exact guarded

/-- What is left of a store that a program resets. -/
theorem resetStore (guarded : Guarded semver store) {clientVersion : String}
    (named : clientVersion ≠ "") (stage : OpenStage) :
    Guarded semver (store.resetStore clientVersion stage) := by
  have recreated : Guarded semver
      (((VersionedStore.absent : VersionedStore Record).dexieOpen
        clientVersion).persistClientVersion clientVersion stage) :=
    (Guarded.absent.dexieOpen clientVersion).persistClientVersion named
      (dexieOpen_populated _ clientVersion) (readableBy_of_empty rfl rfl clientVersion) stage
  cases stage with
  | opened => exact guarded
  | deleted => exact .absent
  | reopened => exact recreated
  | completed => exact recreated

theorem ensureClientVersion (documented : semver.Documented) (guarded : Guarded semver store)
    {clientVersion : String} (named : clientVersion ≠ "") (populated : store.populatedBy.isSome)
    (stage : OpenStage) :
    Guarded semver (store.ensureClientVersion semver clientVersion stage) := by
  rw [VersionedStore.ensureClientVersion, if_neg named]
  split
  · rename_i unknown
    obtain ⟨settings, records⟩ := guarded.unversioned unknown
    exact guarded.persistClientVersion named populated
      (readableBy_of_empty settings records clientVersion) stage
  · rename_i storedVersion known
    have readable := guarded.stored storedVersion known
    split
    · rename_i same
      rw [same] at known
      exact guarded.complete populated known stage
    · split
      · rename_i kept
        have kept_readable : ReadableBy semver store clientVersion :=
          ⟨fun entry member => (readable.records entry member).kept documented kept,
            fun key setting found => (readable.settings key setting found).kept documented kept⟩
        exact guarded.persistClientVersion named populated kept_readable stage
      · exact guarded.resetStore named stage

/-- The program that has the store open writes to it, but not its version. -/
theorem written (guarded : Guarded semver store) {clientVersion : String}
    (opened : store.openedBy = some clientVersion) {next : VersionedStore Record}
    (openedBy : next.openedBy = store.openedBy) (populatedBy : next.populatedBy = store.populatedBy)
    (version : next.getStoredClientVersion = store.getStoredClientVersion)
    (records : ∀ entry ∈ next.records, entry ∈ store.records ∨ entry.2 = clientVersion)
    (settings : ∀ (key : String) setting, next.settings[key]? = some setting →
      store.settings[key]? = some setting ∨ setting.writtenBy = clientVersion) :
    Guarded semver next := by
  obtain ⟨populated, known⟩ := guarded.opened clientVersion opened
  have readable := guarded.stored clientVersion known
  refine ⟨fun other reopened => ?_, fun other stored => ?_, fun unknown => ?_⟩
  · rw [openedBy, opened] at reopened
    rw [version, known, populatedBy]
    exact ⟨populated, reopened⟩
  · rw [version, known, Option.some_inj] at stored
    rw [← stored]
    constructor
    · intro entry member
      rcases records entry member with earlier | own
      · exact readable.records entry earlier
      · rw [own]
        exact .refl clientVersion
    · intro key setting found
      rcases settings key setting found with earlier | own
      · exact readable.settings key setting earlier
      · rw [own]
        exact .refl clientVersion
  · rw [version, known] at unknown
    cases unknown

theorem step (documented : semver.Documented) (guarded : Guarded semver store)
    {event : StoreEvent Record} (keeps : store.KeepsVersion event) :
    Guarded semver (store.step semver event) := by
  cases event with
  | openDatabase clientVersion stage =>
    exact (guarded.dexieOpen clientVersion).ensureClientVersion documented keeps
      (dexieOpen_populated store clientVersion) stage
  | closeDatabase => exact guarded.closed rfl rfl rfl
  | put record =>
    rw [VersionedStore.step, writes]
    split
    · rename_i clientVersion opened
      refine guarded.written opened rfl rfl rfl (fun entry member => ?_) fun key setting found =>
        .inl found
      exact (List.mem_append.mp member).imp_right fun last => by rw [List.mem_singleton.mp last]
    · exact guarded
  | insertSetting key value =>
    rw [VersionedStore.step, writes]
    split
    · rename_i clientVersion opened
      refine guarded.written opened rfl rfl ?_ (fun entry member => .inl member)
        fun other setting found => ?_
      · rw [getStoredClientVersion, ExtTreeMap.getElem?_insert,
          if_neg (by rwa [Std.compare_eq_iff_eq]), getStoredClientVersion]
      · rw [ExtTreeMap.getElem?_insert] at found
        split at found
        · rw [← Option.some_inj.mp found]
          exact .inr rfl
        · exact .inl found
    · exact guarded
  | removeSetting key =>
    rw [VersionedStore.step, writes]
    split
    · rename_i clientVersion opened
      refine guarded.written opened rfl rfl ?_ (fun entry member => .inl member)
        fun other setting found => .inl ?_
      · rw [getStoredClientVersion, ExtTreeMap.getElem?_erase,
          if_neg (by rwa [Std.compare_eq_iff_eq]), getStoredClientVersion]
      · exact ((OrderedMap.getElem?_erase_eq_some_iff _ _ _ _).mp found).2
    · exact guarded

end Guarded

end VersionedStore

namespace Sample

open VersionedStore

def parseVersion (text : String) : Option SemVersion :=
  match text with
  | "0.13.0" => some ⟨0, 13⟩
  | "0.13.2" => some ⟨0, 13⟩
  | "0.14.0" => some ⟨0, 14⟩
  | _ => none

/-- The three versions, as `semver` parses and orders them. -/
def semver : Semver where
  parse := parseVersion
  gt first second :=
    match parseVersion first, parseVersion second with
    | some current, some stored =>
      decide (stored.major < current.major ∨
        stored.major = current.major ∧ stored.minor < current.minor) ||
          (first == "0.13.2" && second == "0.13.0")
    | _, _ => false

theorem semver_documented : semver.Documented where
  gt_major := by
    intro first second current stored parsed_first parsed_second later
    simp only [semver] at parsed_first parsed_second ⊢
    simp [parsed_first, parsed_second, later]
  gt_minor := by
    intro first second current stored parsed_first parsed_second same later
    simp only [semver] at parsed_first parsed_second ⊢
    simp [parsed_first, parsed_second, same, later]

/-- A program, a later one of the same minor version, and two attempts of one of the next, the
first cut off after it has deleted the database. -/
def versionEvents : List (StoreEvent ℕ) :=
  [.openDatabase "0.13.0" .completed, .put 7, .openDatabase "0.13.2" .completed, .put 8,
    .openDatabase "0.14.0" .deleted, .openDatabase "0.14.0" .completed, .put 9]

theorem versionEvents_conform :
    Run.Conforms (step semver) KeepsVersion absent versionEvents := by
  refine ⟨?_, trivial, ?_, trivial, ?_, ?_, trivial, trivial⟩ <;> exact ne_of_beq_false rfl

/-- Of what the three programs have written, the last one finds its own. -/
example : (versionEvents.foldl (step semver) absent).records = [(9, "0.14.0")] := by
  decide +kernel

end Sample

end MidenClient
