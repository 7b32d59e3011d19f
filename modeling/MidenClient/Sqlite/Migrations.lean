/-
This file models how the SQLite store brings a database up to date when it is opened
(`sqlite-store/src/db_management/utils.rs`), by programs that come with more and more migration
scripts.

A program goes on with the scripts that a database has not seen yet, and keeps a hash of all
scripts in the database, by which a later program recognises those that were run before. The
crate `rusqlite_migration` runs the scripts, in one transaction, and the hash is written after
it. The crate is a parameter here, with what its documentation says of the two functions that are
used. The main theorem says exactly when a database can be opened, after any run of programs that
opened it, gave it up or were interrupted.
-/

import MidenClient.Library.Run

namespace MidenClient

/-- The characters with the Unicode property `White_Space`. -/
def isWhiteSpaceChar (character : Char) : Bool :=
  let code := character.toNat
  (9 ≤ code && code ≤ 13) || code == 0x20 || code == 0x85 || code == 0xA0 || code == 0x1680 ||
    (0x2000 ≤ code && code ≤ 0x200A) || code == 0x2028 || code == 0x2029 || code == 0x202F ||
    code == 0x205F || code == 0x3000

def removeSpaces (sql : String) : String :=
  String.ofList (sql.toList.filter fun character => !isWhiteSpaceChar character)

/-- The hash function of the migration scripts. -/
structure ScriptHasher (Hash : Type) where
  zero : Hash
  hash : String → Hash
  merge : Hash → Hash → Hash

/-- No two inputs of the hash function collide, and none of them hashes to zero. -/
structure ScriptHasher.CollisionFree {Hash : Type} (hasher : ScriptHasher Hash) : Prop where
  hash : Function.Injective hasher.hash
  merge : Function.Injective2 hasher.merge
  zero : ∀ first second, hasher.merge first second ≠ hasher.zero

/-- The scripts that a program comes with. -/
structure MigrationScripts where
  scripts : List String
  nonempty : scripts ≠ []

/-- What `PRAGMA user_version` is to a program. -/
inductive SchemaVersion where
  | noneSet
  | inside (version : ℕ)
  | outside (version : ℕ)
  deriving DecidableEq, Repr

inductive SqliteStoreError where
  | databaseError (message : String)
  | migrationError
  | missingMigrationsTable
  | migrationHashMismatch
  | interrupted
  deriving DecidableEq, Repr

/-- A database, as far as migrations see it. Its schema is what the scripts that were run have
made it, and the first of these creates the table `migrations`. -/
structure MigratedDatabase (Hash : Type) where
  applied : List String
  userVersion : ℕ
  migrationHash : Option Hash

/-- What happens while a program opens the database: whether the scripts it runs go through, and
whether it gets to write the hash. -/
structure Opening where
  program : MigrationScripts
  scriptsRun : Bool
  hashWritten : Bool

/-- The functions `current_version` and `to_latest` of `Migrations` in `rusqlite_migration`. -/
structure RusqliteMigration (Hash : Type) where
  currentVersion : MigrationScripts → MigratedDatabase Hash → SchemaVersion
  toLatest : Opening → MigratedDatabase Hash → Except SqliteStoreError (MigratedDatabase Hash)

/-- The version is that of the pragma, compared with the number of scripts. The scripts that are
missing are run in one transaction together with the pragma, and a database with more versions is
refused. -/
structure RusqliteMigration.Documented {Hash : Type} (migrations : RusqliteMigration Hash) :
    Prop where
  noneSet : ∀ program database, database.userVersion = 0 →
    migrations.currentVersion program database = .noneSet
  inside : ∀ program database, 0 < database.userVersion →
    database.userVersion ≤ program.scripts.length →
      migrations.currentVersion program database = .inside database.userVersion
  outside : ∀ program database, program.scripts.length < database.userVersion →
    migrations.currentVersion program database = .outside database.userVersion
  tooFarAhead : ∀ opening database, opening.program.scripts.length < database.userVersion →
    migrations.toLatest opening database = .error .migrationError
  upToDate : ∀ opening database, database.userVersion = opening.program.scripts.length →
    migrations.toLatest opening database = .ok database
  behind : ∀ opening database, database.userVersion < opening.program.scripts.length →
    migrations.toLatest opening database =
      if opening.scriptsRun then
        .ok { database with
          applied := database.applied ++ opening.program.scripts.drop database.userVersion
          userVersion := opening.program.scripts.length }
      else .error .migrationError

namespace Migrations

variable {Hash : Type} (hasher : ScriptHasher Hash)

/-- The accumulated hashes of the scripts of a program. -/
def computeMigrationHashes (accumulator : Hash) : List String → List Hash
  | [] => []
  | sql :: rest =>
    let accumulated := hasher.merge accumulator (hasher.hash (removeSpaces sql))
    accumulated :: computeMigrationHashes accumulated rest

def migrationHashes (program : MigrationScripts) : List Hash :=
  computeMigrationHashes hasher hasher.zero program.scripts

def created : MigratedDatabase Hash :=
  ⟨[], 0, none⟩

variable {hasher}

def tableExists (database : MigratedDatabase Hash) : Bool :=
  !database.applied.isEmpty

variable [DecidableEq Hash] (hasher) (migrations : RusqliteMigration Hash)

/-- The check of the scripts that have been run before. -/
def checkHash (program : MigrationScripts) (database : MigratedDatabase Hash) :
    Except SqliteStoreError Unit :=
  match migrations.currentVersion program database with
  | .inside version =>
    if !tableExists database then .error .missingMigrationsTable
    else
      match database.migrationHash with
      | none => .error (.databaseError "Migration hash not found")
      | some actualHash =>
        if (migrationHashes hasher program)[version - 1]? = some actualHash then .ok ()
        else .error .migrationHashMismatch
  | _ => .ok ()

/-- Applies the migrations to the database. A program that is interrupted before it writes the hash
leaves the scripts it has run. -/
def applyMigrations (database : MigratedDatabase Hash) (opening : Opening) :
    Except SqliteStoreError Unit × MigratedDatabase Hash :=
  match checkHash hasher migrations opening.program database with
  | .error error => (.error error, database)
  | .ok _ =>
    match migrations.toLatest opening database with
    | .error error => (.error error, database)
    | .ok latest =>
      if migrations.currentVersion opening.program database =
          migrations.currentVersion opening.program latest then
        (.ok (), latest)
      else if opening.hashWritten then
        (.ok (), { latest with
          migrationHash := (migrationHashes hasher opening.program).getLast? })
      else (.error .interrupted, latest)

def step (database : MigratedDatabase Hash) (opening : Opening) : MigratedDatabase Hash :=
  (applyMigrations hasher migrations database opening).2

/-- A program is not interrupted between the scripts it runs and their hash. -/
def Recorded (database : MigratedDatabase Hash) (opening : Opening) : Prop :=
  (applyMigrations hasher migrations database opening).1 ≠ .error .interrupted

omit [DecidableEq Hash]

/-! ### The hash of a list of scripts -/

/-- The hash that all scripts of a list accumulate to. -/
def chainHash (scripts : List String) : Hash :=
  scripts.foldl (fun accumulator sql => hasher.merge accumulator (hasher.hash (removeSpaces sql)))
    hasher.zero

theorem chainHash_concat (scripts : List String) (sql : String) :
    chainHash hasher (scripts ++ [sql]) =
      hasher.merge (chainHash hasher scripts) (hasher.hash (removeSpaces sql)) := by
  rw [chainHash, List.foldl_append]
  rfl

theorem computeMigrationHashes_getElem? (accumulator : Hash) (scripts : List String) (index : ℕ) :
    (computeMigrationHashes hasher accumulator scripts)[index]? =
      if index < scripts.length then
        some ((scripts.take (index + 1)).foldl
          (fun accumulator sql => hasher.merge accumulator (hasher.hash (removeSpaces sql)))
          accumulator)
      else none := by
  induction scripts generalizing accumulator index with
  | nil => rfl
  | cons sql rest inductionHypothesis =>
    rw [computeMigrationHashes]
    cases index with
    | zero => simp
    | succ index =>
      rw [List.getElem?_cons_succ, inductionHypothesis]
      simp

theorem migrationHashes_getElem? (program : MigrationScripts) {version : ℕ}
    (positive : 0 < version) (bound : version ≤ program.scripts.length) :
    (migrationHashes hasher program)[version - 1]? =
      some (chainHash hasher (program.scripts.take version)) := by
  rw [migrationHashes, computeMigrationHashes_getElem?, if_pos (by omega),
    Nat.sub_add_cancel positive]
  rfl

theorem length_computeMigrationHashes (accumulator : Hash) (scripts : List String) :
    (computeMigrationHashes hasher accumulator scripts).length = scripts.length := by
  induction scripts generalizing accumulator with
  | nil => rfl
  | cons sql rest inductionHypothesis =>
    rw [computeMigrationHashes, List.length_cons, inductionHypothesis, List.length_cons]

theorem migrationHashes_getLast? (program : MigrationScripts) :
    (migrationHashes hasher program).getLast? = some (chainHash hasher program.scripts) := by
  have positive : 0 < program.scripts.length := List.length_pos_iff.mpr program.nonempty
  have length : (migrationHashes hasher program).length = program.scripts.length :=
    length_computeMigrationHashes hasher _ _
  rw [List.getLast?_eq_getElem?, length, migrationHashes_getElem? hasher program positive le_rfl,
    List.take_length]

variable {hasher}

/-- The hash of a list depends on its scripts up to their white space. -/
theorem chainHash_congr {first second : List String}
    (same : first.map removeSpaces = second.map removeSpaces) :
    chainHash hasher first = chainHash hasher second := by
  have view : ∀ scripts : List String, chainHash hasher scripts =
      (scripts.map removeSpaces).foldl
        (fun accumulator sql => hasher.merge accumulator (hasher.hash sql)) hasher.zero := by
    intro scripts
    rw [List.foldl_map]
    rfl
  rw [view, view, same]

/-- Lists with the same hash have the same scripts up to white space. -/
theorem chainHash_injective (collisionFree : hasher.CollisionFree) {first second : List String}
    (same : chainHash hasher first = chainHash hasher second) :
    first.map removeSpaces = second.map removeSpaces := by
  induction first using List.reverseRecOn generalizing second with
  | nil =>
    rcases List.eq_nil_or_concat second with rfl | ⟨scripts, sql, rfl⟩
    · rfl
    · rw [List.concat_eq_append, chainHash_concat] at same
      exact absurd same.symm (collisionFree.zero _ _)
  | append_singleton scripts sql inductionHypothesis =>
    rcases List.eq_nil_or_concat second with rfl | ⟨others, other, rfl⟩
    · rw [chainHash_concat] at same
      exact absurd same (collisionFree.zero _ _)
    · rw [List.concat_eq_append, chainHash_concat, chainHash_concat] at same
      obtain ⟨earlier, last⟩ := collisionFree.merge same
      rw [List.concat_eq_append, List.map_append, List.map_append, inductionHypothesis earlier,
        List.map_singleton, List.map_singleton, collisionFree.hash last]

/-! ### Databases -/

/-- The hash in a database is that of a list of scripts. -/
def HashOf (hasher : ScriptHasher Hash) (database : MigratedDatabase Hash)
    (scripts : List String) : Prop :=
  database.migrationHash = if scripts = [] then none else some (chainHash hasher scripts)

/-- The hash in a database is that of the scripts that were run. -/
structure Sound (hasher : ScriptHasher Hash) (database : MigratedDatabase Hash) : Prop where
  version : database.userVersion = database.applied.length
  hash : HashOf hasher database database.applied

/-- The hash in a database is that of fewer scripts than were run. -/
structure Stuck (hasher : ScriptHasher Hash) (database : MigratedDatabase Hash) : Prop where
  version : database.userVersion = database.applied.length
  hash : ∃ earlier : List String, earlier.length < database.applied.length ∧
    HashOf hasher database earlier

theorem created_sound : Sound hasher created :=
  ⟨rfl, rfl⟩

/-- The scripts that were run are, up to white space, the first ones of a program. -/
def RunBy (database : MigratedDatabase Hash) (program : MigrationScripts) : Prop :=
  database.applied.map removeSpaces <+: program.scripts.map removeSpaces

theorem runBy_iff {database : MigratedDatabase Hash} {program : MigrationScripts} :
    RunBy database program ↔ database.applied.length ≤ program.scripts.length ∧
      database.applied.map removeSpaces =
        (program.scripts.take database.applied.length).map removeSpaces := by
  rw [RunBy, List.prefix_iff_eq_take, List.length_map, List.map_take]
  constructor
  · intro equal
    have lengths := congrArg List.length equal
    rw [List.length_map, List.length_take, List.length_map] at lengths
    exact ⟨by omega, equal⟩
  · exact And.right

variable [DecidableEq Hash] {migrations : RusqliteMigration Hash}

/-- What the check compares, when the database is at a version of the program. -/
theorem checkHash_inside (documented : migrations.Documented)
    {database : MigratedDatabase Hash} {program : MigrationScripts}
    (version : database.userVersion = database.applied.length)
    (positive : 0 < database.applied.length)
    (bound : database.applied.length ≤ program.scripts.length) {scripts : List String}
    (hash : HashOf hasher database scripts) :
    checkHash hasher migrations program database = .ok () ↔ scripts ≠ [] ∧
      chainHash hasher (program.scripts.take database.applied.length) =
        chainHash hasher scripts := by
  have inside : migrations.currentVersion program database = .inside database.applied.length := by
    rw [documented.inside program database (by omega) (by omega), version]
  have exists_table : tableExists database = true := by
    rw [tableExists]
    cases applied : database.applied with
    | nil => rw [applied] at positive; cases positive
    | cons first rest => rfl
  rw [HashOf] at hash
  rw [checkHash, inside]
  simp only [exists_table, Bool.not_true, Bool.false_eq_true, if_false]
  rw [hash]
  by_cases empty : scripts = []
  · simp [empty]
  · rw [if_neg empty]
    simp only [migrationHashes_getElem? hasher program positive bound, Option.some_inj]
    by_cases same : chainHash hasher (program.scripts.take database.applied.length) =
        chainHash hasher scripts
    · simp [same, empty]
    · simp [same]

/-- A database that is not at a version of the program is not checked. -/
theorem checkHash_elsewhere (documented : migrations.Documented)
    {database : MigratedDatabase Hash} {program : MigrationScripts}
    (version : database.userVersion = database.applied.length)
    (elsewhere : database.applied.length = 0 ∨
      program.scripts.length < database.applied.length) :
    checkHash hasher migrations program database = .ok () := by
  rw [checkHash]
  rcases elsewhere with empty | ahead
  · rw [documented.noneSet program database (by omega)]
  · rw [documented.outside program database (by omega)]

/-- A sound database passes the check of the programs that have run its scripts, and of those that
have fewer. -/
theorem checkHash_sound_iff (documented : migrations.Documented)
    (collisionFree : hasher.CollisionFree)
    {database : MigratedDatabase Hash} (sound : Sound hasher database)
    {program : MigrationScripts} :
    checkHash hasher migrations program database = .ok () ↔
      program.scripts.length < database.applied.length ∨ RunBy database program := by
  rcases Nat.eq_zero_or_pos database.applied.length with empty | positive
  · refine iff_of_true (checkHash_elsewhere documented sound.version (.inl empty)) (.inr ?_)
    rw [RunBy, List.eq_nil_of_length_eq_zero empty]
    exact List.nil_prefix
  · by_cases bound : database.applied.length ≤ program.scripts.length
    · rw [checkHash_inside documented sound.version positive bound sound.hash, runBy_iff]
      constructor
      · rintro ⟨-, same⟩
        exact .inr ⟨bound, (chainHash_injective collisionFree same).symm⟩
      · rintro (ahead | ⟨-, same⟩)
        · omega
        · exact ⟨List.length_pos_iff.mp positive, (chainHash_congr same).symm⟩
    · refine iff_of_true (checkHash_elsewhere documented sound.version (.inr (by omega)))
        (.inl (by omega))

/-- A stuck database passes the check of no program that has as many scripts. -/
theorem checkHash_stuck (documented : migrations.Documented)
    (collisionFree : hasher.CollisionFree)
    {database : MigratedDatabase Hash} (stuck : Stuck hasher database)
    {program : MigrationScripts}
    (bound : database.applied.length ≤ program.scripts.length) :
    checkHash hasher migrations program database ≠ .ok () := by
  obtain ⟨earlier, fewer, hash⟩ := stuck.hash
  rw [Ne, checkHash_inside documented stuck.version (by omega) bound hash]
  rintro ⟨-, same⟩
  have lengths := congrArg List.length (chainHash_injective collisionFree same)
  rw [List.length_map, List.length_map, List.length_take] at lengths
  omega

/-! ### Opening a database -/

/-- A program with fewer scripts than were run does not open the database, and leaves it as it
is. -/
theorem applyMigrations_ahead (documented : migrations.Documented)
    {database : MigratedDatabase Hash} {opening : Opening}
    (version : database.userVersion = database.applied.length)
    (ahead : opening.program.scripts.length < database.applied.length) :
    applyMigrations hasher migrations database opening = (.error .migrationError, database) := by
  rw [applyMigrations, checkHash_elsewhere documented version (.inr ahead)]
  simp only [documented.tooFarAhead opening database (by omega)]

theorem applyMigrations_unchecked {database : MigratedDatabase Hash} {opening : Opening}
    (refused : checkHash hasher migrations opening.program database ≠ .ok ()) :
    ∃ error, error ≠ .interrupted ∧
      applyMigrations hasher migrations database opening = (.error error, database) := by
  rcases checked : checkHash hasher migrations opening.program database with error | result
  · refine ⟨error, ?_, by rw [applyMigrations, checked]⟩
    rintro rfl
    rw [checkHash] at checked
    split at checked
    · split at checked
      · cases checked
      · split at checked
        · cases checked
        · split at checked <;> cases checked
    · cases checked
  · exact absurd checked refused

/-- What a program does with a database whose scripts it has run before. -/
theorem applyMigrations_checked (documented : migrations.Documented)
    {database : MigratedDatabase Hash} {opening : Opening}
    (version : database.userVersion = database.applied.length)
    (checked : checkHash hasher migrations opening.program database = .ok ())
    (bound : database.applied.length ≤ opening.program.scripts.length) :
    applyMigrations hasher migrations database opening =
      if database.applied.length = opening.program.scripts.length then (.ok (), database)
      else if opening.scriptsRun then
        if opening.hashWritten then
          (.ok (), ⟨database.applied ++
            opening.program.scripts.drop database.applied.length,
            opening.program.scripts.length,
            some (chainHash hasher opening.program.scripts)⟩)
        else (.error .interrupted, ⟨database.applied ++
          opening.program.scripts.drop database.applied.length,
          opening.program.scripts.length, database.migrationHash⟩)
      else (.error .migrationError, database) := by
  have positive : 0 < opening.program.scripts.length :=
    List.length_pos_iff.mpr opening.program.nonempty
  rw [applyMigrations, checked]
  by_cases same : database.applied.length = opening.program.scripts.length
  · simp only [documented.upToDate opening database (version.trans same), if_pos same, if_true]
  · simp only [documented.behind opening database (by omega), if_neg same, version]
    rcases opening.scriptsRun with _ | _
    · simp
    · have raised : ∀ next : MigratedDatabase Hash,
          next.userVersion = opening.program.scripts.length →
          migrations.currentVersion opening.program database ≠
            migrations.currentVersion opening.program next := by
        intro next latest equal
        rw [documented.inside _ next (by omega) (by omega), latest] at equal
        rcases Nat.eq_zero_or_pos database.userVersion with unset | set
        · rw [documented.noneSet _ _ unset] at equal
          cases equal
        · rw [documented.inside _ _ set (by omega), version] at equal
          exact same (SchemaVersion.inside.inj equal)
      simp only [if_true]
      rw [if_neg (raised _ rfl), migrationHashes_getLast?]

/-- A sound database is opened, up to date afterwards, exactly by a program that has run its
scripts and gets the others run and recorded. It stays sound, or is stuck when the program is
interrupted. -/
theorem applyMigrations_sound (documented : migrations.Documented)
    (collisionFree : hasher.CollisionFree)
    {database : MigratedDatabase Hash} (sound : Sound hasher database) (opening : Opening) :
    ((applyMigrations hasher migrations database opening).1 = .ok () ↔
      RunBy database opening.program ∧
        (database.applied.length < opening.program.scripts.length →
          opening.scriptsRun = true ∧ opening.hashWritten = true)) ∧
      ((applyMigrations hasher migrations database opening).1 = .ok () →
        (applyMigrations hasher migrations database opening).2.applied.map removeSpaces =
          opening.program.scripts.map removeSpaces) ∧
      ((applyMigrations hasher migrations database opening).1 ≠ .error .interrupted →
        Sound hasher (applyMigrations hasher migrations database opening).2) ∧
      ((applyMigrations hasher migrations database opening).1 = .error .interrupted →
        Stuck hasher (applyMigrations hasher migrations database opening).2) := by
  by_cases ahead : opening.program.scripts.length < database.applied.length
  · have refused : ¬RunBy database opening.program := fun runBy => by
      have := (runBy_iff.mp runBy).1
      omega
    rw [applyMigrations_ahead documented sound.version ahead]
    simp [refused, sound]
  have bound : database.applied.length ≤ opening.program.scripts.length := not_lt.mp ahead
  by_cases runBy : RunBy database opening.program
  · have checked := (checkHash_sound_iff documented collisionFree sound).mpr (.inr runBy)
    have first := (runBy_iff.mp runBy).2
    have all : (database.applied ++ opening.program.scripts.drop database.applied.length).map
        removeSpaces = opening.program.scripts.map removeSpaces := by
      rw [List.map_append, first, ← List.map_append, List.take_append_drop]
    have grown : (database.applied ++
        opening.program.scripts.drop database.applied.length).length =
        opening.program.scripts.length := by
      rw [List.length_append, List.length_drop]
      omega
    rw [applyMigrations_checked documented sound.version checked bound]
    by_cases same : database.applied.length = opening.program.scripts.length
    · rw [if_pos same]
      refine ⟨iff_of_true rfl ⟨runBy, fun shorter => by omega⟩, fun _ => ?_, fun _ => sound,
        fun interrupted => by cases interrupted⟩
      rw [first, same, List.take_length]
    · rw [if_neg same]
      rcases ran : opening.scriptsRun with _ | _
      · rw [if_neg Bool.false_ne_true]
        refine ⟨iff_of_false (fun opened => by cases opened) fun holds => ?_,
          fun opened => (by cases opened), fun _ => sound, fun interrupted => by cases interrupted⟩
        exact absurd (holds.2 (by omega)).1 Bool.false_ne_true
      · rw [if_pos rfl]
        rcases written : opening.hashWritten with _ | _
        · rw [if_neg Bool.false_ne_true]
          refine ⟨iff_of_false (fun opened => by cases opened) fun holds => ?_,
            fun opened => (by cases opened), fun kept => absurd rfl kept, fun _ => ⟨grown.symm, ?_⟩⟩
          · exact absurd (holds.2 (by omega)).2 Bool.false_ne_true
          · refine ⟨database.applied, ?_, sound.hash⟩
            show database.applied.length < (database.applied ++ _).length
            rw [grown]
            omega
        · rw [if_pos rfl]
          refine ⟨iff_of_true rfl ⟨runBy, fun _ => ⟨rfl, rfl⟩⟩, fun _ => all,
            fun _ => ⟨grown.symm, ?_⟩, fun interrupted => by cases interrupted⟩
          have nonempty : database.applied ++
              opening.program.scripts.drop database.applied.length ≠ [] := by
            intro empty
            rw [empty] at grown
            exact opening.program.nonempty (List.eq_nil_of_length_eq_zero grown.symm)
          show some (chainHash hasher opening.program.scripts) = _
          rw [if_neg nonempty, chainHash_congr all]
  · have refused : checkHash hasher migrations opening.program database ≠ .ok () := by
      rw [Ne, checkHash_sound_iff documented collisionFree sound]
      rintro (shorter | runs)
      · exact ahead shorter
      · exact runBy runs
    obtain ⟨error, other, given⟩ := applyMigrations_unchecked refused
    rw [given]
    simp [runBy, sound, other]

/-- A stuck database is never opened again, and stays as it is. -/
theorem applyMigrations_stuck (documented : migrations.Documented)
    (collisionFree : hasher.CollisionFree)
    {database : MigratedDatabase Hash} (stuck : Stuck hasher database) (opening : Opening) :
    ∃ error, applyMigrations hasher migrations database opening = (.error error, database) := by
  by_cases ahead : opening.program.scripts.length < database.applied.length
  · exact ⟨_, applyMigrations_ahead documented stuck.version ahead⟩
  · obtain ⟨error, -, given⟩ :=
      applyMigrations_unchecked (checkHash_stuck documented collisionFree stuck (not_lt.mp ahead))
    exact ⟨error, given⟩

/-! ### Runs -/

/-- After a run, a database is sound if no program was interrupted between its scripts and their
hash, and stuck otherwise. -/
theorem run_sound_or_stuck (documented : migrations.Documented)
    (collisionFree : hasher.CollisionFree) (openings : List Opening) :
    (Run.Conforms (step hasher migrations) (Recorded hasher migrations) created openings ∧
      Sound hasher (openings.foldl (step hasher migrations) created)) ∨
      (¬Run.Conforms (step hasher migrations) (Recorded hasher migrations) created openings ∧
        Stuck hasher (openings.foldl (step hasher migrations) created)) := by
  induction openings using List.reverseRecOn with
  | nil => exact .inl ⟨trivial, created_sound⟩
  | append_singleton earlier opening inductionHypothesis =>
    rw [Run.conforms_append, List.foldl_append, List.foldl_cons, List.foldl_nil]
    rcases inductionHypothesis with ⟨recorded, sound⟩ | ⟨interrupted, stuck⟩
    · obtain ⟨-, -, keeps, loses⟩ := applyMigrations_sound documented collisionFree sound opening
      by_cases kept :
          Recorded hasher migrations (earlier.foldl (step hasher migrations) created) opening
      · exact .inl ⟨⟨recorded, kept, trivial⟩, keeps kept⟩
      · exact .inr ⟨fun conforms => kept conforms.2.1, loses (not_not.mp kept)⟩
    · obtain ⟨error, given⟩ := applyMigrations_stuck documented collisionFree stuck opening
      refine .inr ⟨fun conforms => interrupted conforms.1, ?_⟩
      rw [step, given]
      exact stuck

/-- A program opens a database if and only if no program before it was interrupted between the
scripts it ran and their hash, the scripts that were run are its own first ones, up to white space,
and it gets those that are missing run and recorded. The database then has all its scripts. -/
theorem applyMigrations_ok_iff (documented : migrations.Documented)
    (collisionFree : hasher.CollisionFree) (openings : List Opening)
    (opening : Opening) :
    ((applyMigrations hasher migrations
        (openings.foldl (step hasher migrations) created) opening).1 = .ok () ↔
      Run.Conforms (step hasher migrations) (Recorded hasher migrations) created openings ∧
        RunBy (openings.foldl (step hasher migrations) created) opening.program ∧
        ((openings.foldl (step hasher migrations) created).applied.length <
            opening.program.scripts.length →
          opening.scriptsRun = true ∧ opening.hashWritten = true)) ∧
      ((applyMigrations hasher migrations
          (openings.foldl (step hasher migrations) created) opening).1 = .ok () →
        (applyMigrations hasher migrations
          (openings.foldl (step hasher migrations) created) opening).2.applied.map
          removeSpaces = opening.program.scripts.map removeSpaces) := by
  rcases run_sound_or_stuck documented collisionFree openings with
    ⟨recorded, sound⟩ | ⟨interrupted, stuck⟩
  · obtain ⟨opens, latest, -, -⟩ := applyMigrations_sound documented collisionFree sound opening
    exact ⟨opens.trans (and_iff_right recorded).symm, latest⟩
  · obtain ⟨error, given⟩ := applyMigrations_stuck documented collisionFree stuck opening
    rw [given]
    exact ⟨iff_of_false (fun opened => by cases opened) fun holds => interrupted holds.1,
      fun opened => by cases opened⟩

end Migrations

namespace Sample

open Migrations

/-- Digests without collisions, as those of the hash function are for all that is known. -/
inductive ScriptDigest where
  | zero
  | script (sql : String)
  | merged (first second : ScriptDigest)
  deriving DecidableEq

def scriptHasher : ScriptHasher ScriptDigest :=
  ⟨.zero, .script, .merged⟩

theorem scriptHasher_collisionFree : scriptHasher.CollisionFree where
  hash := fun _ _ same => ScriptDigest.script.inj same
  merge := fun _ _ _ _ same => ScriptDigest.merged.inj same
  zero := by
    intro first second same
    cases same

/-- The two functions of the crate as they are documented. -/
def rusqliteMigration : RusqliteMigration ScriptDigest where
  currentVersion program database :=
    if database.userVersion = 0 then .noneSet
    else if database.userVersion ≤ program.scripts.length then .inside database.userVersion
    else .outside database.userVersion
  toLatest opening database :=
    if opening.program.scripts.length < database.userVersion then .error .migrationError
    else if database.userVersion = opening.program.scripts.length then .ok database
    else if opening.scriptsRun then
      .ok { database with
        applied := database.applied ++ opening.program.scripts.drop database.userVersion
        userVersion := opening.program.scripts.length }
    else .error .migrationError

theorem rusqliteMigration_documented : rusqliteMigration.Documented where
  noneSet program database unset := if_pos unset
  inside program database set bound := (if_neg set.ne').trans (if_pos bound)
  outside program database ahead := (if_neg (by omega)).trans (if_neg (by omega))
  tooFarAhead opening database ahead := if_pos ahead
  upToDate opening database same := (if_neg (by omega)).trans (if_pos same)
  behind opening database fewer := (if_neg (by omega)).trans (if_neg (by omega))

/-- A program, one that is interrupted before it has run its scripts, and the next one, which has
laid its first script out differently. -/
def firstOpening : Opening :=
  ⟨⟨["CREATE TABLE migrations"], List.cons_ne_nil _ _⟩, true, true⟩

def failedOpening : Opening :=
  ⟨⟨["CREATE TABLE migrations", "CREATE TABLE notes"], List.cons_ne_nil _ _⟩, false, true⟩

def secondOpening : Opening :=
  ⟨⟨["CREATE TABLE  migrations\n", "CREATE TABLE tags"], List.cons_ne_nil _ _⟩, true, true⟩

theorem applyMigrations_second_ok :
    (applyMigrations scriptHasher rusqliteMigration ([firstOpening, failedOpening].foldl
      (step scriptHasher rusqliteMigration) created) secondOpening).1 = .ok () := by
  refine (applyMigrations_ok_iff rusqliteMigration_documented scriptHasher_collisionFree
    [firstOpening, failedOpening] secondOpening).1.mpr ⟨⟨?_, ?_, trivial⟩, ?_, fun _ => ⟨rfl, rfl⟩⟩
  · rw [Recorded]
    decide +kernel
  · rw [Recorded]
    decide +kernel
  · rw [RunBy]
    decide +kernel

end Sample

end MidenClient
