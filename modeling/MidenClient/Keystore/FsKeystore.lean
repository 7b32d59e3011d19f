/-
This file models the keystore that keeps its keys in a directory
(`rust-client/src/keystore/fs_keystore.rs`), with the parts of the file system it works on and
the calls that are under way.

Every instance reads the index of its directory once, when it is opened, and then works on its
own copy behind a lock; a clone takes the copy along. A call changes the copy, and writes it out
whole: to a temporary file in the temporary directory of the environment, which is then renamed to
the index file. All these files have one name, so a file is named by its directory. The calls of
all instances take their steps in any order, and a step that has to wait for a lock leaves
everything as it is.
-/

import MidenClient.Protocol

namespace MidenClient

open Std (ExtTreeMap ExtTreeSet)

abbrev DirectoryPath := String

abbrev PublicKeyCommitment := Word

inductive KeyStoreError where
  | storageError (message : String)
  | decodingError (message : String)
  deriving DecidableEq, Repr

/-! ### The index -/

/-- The index file: the keys of every account, both by their hexadecimal names. -/
structure KeyIndex where
  version : ℕ
  mappings : ExtTreeMap String (ExtTreeSet String)

/-- The JSON text of an index, the hexadecimal names, the file name of a key, and the text of the
error for a file that is not there. -/
class KeyFormats where
  toStringPretty : KeyIndex → List UInt8
  fromStr : List UInt8 → Except String KeyIndex
  accountToHex : AccountId → String
  wordToHex : Word → String
  hashPubKey : Word → String
  notFound : String

/-- The text of an index can be read back. -/
def KeyFormats.RoundTrip (formats : KeyFormats) : Prop :=
  ∀ index, formats.fromStr (formats.toStringPretty index) = .ok index

namespace KeyIndex

variable [formats : KeyFormats]

def indexVersion : ℕ := 1

/-- `KeyIndex::new`. -/
def new : KeyIndex := ⟨indexVersion, ∅⟩

def addMapping (index : KeyIndex) (accountId : AccountId)
    (pubKeyCommitment : PublicKeyCommitment) : KeyIndex :=
  let accountIdHex := formats.accountToHex accountId
  let pubKeyHex := formats.wordToHex pubKeyCommitment
  { index with
    mappings := index.mappings.insert accountIdHex
      ((index.mappings.getD accountIdHex ∅).insert pubKeyHex) }

/-- An account without keys is dropped. -/
def removeAllMappingsForKey (index : KeyIndex) (pubKeyCommitment : PublicKeyCommitment) :
    KeyIndex :=
  let pubKeyHex := formats.wordToHex pubKeyCommitment
  { index with
    mappings := index.mappings.filterMap fun _ commitments =>
      let remaining := commitments.erase pubKeyHex
      if remaining.isEmpty then none else some remaining }

end KeyIndex

/-! ### The files -/

abbrev Inode := ℕ

/-- The files with the name of the index file: the one in each directory, and what each holds,
also after its name is gone. -/
structure IndexFiles where
  entries : DirectoryPath → Option Inode
  contents : Inode → List UInt8
  next : Inode

namespace IndexFiles

def read (files : IndexFiles) (directory : DirectoryPath) : Option (List UInt8) :=
  (files.entries directory).map files.contents

/-- `File::create`: a file that is there is emptied. -/
def create (files : IndexFiles) (directory : DirectoryPath) : IndexFiles × Inode :=
  match files.entries directory with
  | some file => ({ files with contents := Function.update files.contents file [] }, file)
  | none =>
    ({ entries := Function.update files.entries directory (some files.next)
       contents := Function.update files.contents files.next []
       next := files.next + 1 }, files.next)

/-- The bytes of a file after bytes were written at a position; a gap is filled with zeros. -/
def splice (held : List UInt8) (position : ℕ) (bytes : List UInt8) : List UInt8 :=
  held.take position ++ List.replicate (position - held.length) 0 ++ bytes ++
    held.drop (position + bytes.length)

def writeAt (files : IndexFiles) (file : Inode) (position : ℕ) (bytes : List UInt8) :
    IndexFiles :=
  { files with
    contents := Function.update files.contents file (splice (files.contents file) position bytes) }

/-- `fs::rename`, of the file in one directory to the one in another. -/
def rename (files : IndexFiles) (source target : DirectoryPath) : Option IndexFiles :=
  match files.entries source with
  | none => none
  | some file =>
    if source = target then some files
    else some { files with
      entries := Function.update (Function.update files.entries target (some file)) source none }

/-- No two directories share a file, and a new file is nobody's. -/
structure Proper (files : IndexFiles) : Prop where
  separate : ∀ first second file, files.entries first = some file →
    files.entries second = some file → first = second
  allocated : ∀ directory file, files.entries directory = some file → file < files.next

section Spec

variable {files : IndexFiles} {directory other source target : DirectoryPath} {file held : Inode}

theorem entries_create_self :
    (files.create directory).1.entries directory = some (files.create directory).2 := by
  unfold create
  split
  · assumption
  · exact Function.update_self ..

theorem entries_create_of_ne (differs : other ≠ directory) :
    (files.create directory).1.entries other = files.entries other := by
  unfold create
  split
  · rfl
  · exact Function.update_of_ne differs ..

theorem contents_create_self :
    (files.create directory).1.contents (files.create directory).2 = [] := by
  unfold create
  split <;> exact Function.update_self ..

theorem contents_create_of_ne (differs : file ≠ (files.create directory).2) :
    (files.create directory).1.contents file = files.contents file := by
  revert differs
  unfold create
  split <;> exact fun differs => Function.update_of_ne differs ..

/-- A file that is there is kept. -/
theorem create_of_entry (entry : files.entries directory = some file) :
    (files.create directory).2 = file := by
  unfold create
  rw [entry]

theorem Proper.create (proper : files.Proper) (directory : DirectoryPath) :
    (files.create directory).1.Proper := by
  unfold IndexFiles.create
  split
  · exact ⟨proper.separate, proper.allocated⟩
  · constructor
    · intro first second file one two
      dsimp only at one two
      by_cases isFirst : first = directory
      · by_cases isSecond : second = directory
        · exact isFirst.trans isSecond.symm
        · rw [isFirst, Function.update_self] at one
          rw [Function.update_of_ne isSecond] at two
          obtain rfl := Option.some.inj one
          exact absurd (proper.allocated second _ two) (Nat.lt_irrefl _)
      · rw [Function.update_of_ne isFirst] at one
        by_cases isSecond : second = directory
        · rw [isSecond, Function.update_self] at two
          obtain rfl := Option.some.inj two
          exact absurd (proper.allocated first _ one) (Nat.lt_irrefl _)
        · rw [Function.update_of_ne isSecond] at two
          exact proper.separate first second file one two
    · intro other file entry
      dsimp only at entry ⊢
      by_cases same : other = directory
      · rw [same, Function.update_self] at entry
        obtain rfl := Option.some.inj entry
        exact Nat.lt_succ_self _
      · rw [Function.update_of_ne same] at entry
        exact Nat.lt_succ_of_lt (proper.allocated other file entry)

/-- A file that is there can be renamed. -/
theorem rename_eq_some (entry : files.entries source = some file) (differs : source ≠ target) :
    files.rename source target = some { files with
      entries := Function.update (Function.update files.entries target (some file)) source
        none } := by
  unfold rename
  rw [entry]
  exact if_neg differs

theorem rename_self (entry : files.entries source = some file) :
    files.rename source source = some files := by
  unfold rename
  rw [entry]
  exact if_pos rfl

theorem rename_eq_none (missing : files.entries source = none) :
    files.rename source target = none := by
  unfold rename
  rw [missing]

theorem Proper.rename (proper : files.Proper) (entry : files.entries source = some file) :
    IndexFiles.Proper { files with
      entries := Function.update (Function.update files.entries target (some file)) source
        none } := by
  have origin : ∀ directory held,
      Function.update (Function.update files.entries target (some file)) source none directory =
        some held → directory ≠ source ∧ (directory = target ∧ held = file ∨
          directory ≠ target ∧ files.entries directory = some held) := by
    intro directory held found
    by_cases isSource : directory = source
    · rw [isSource, Function.update_self] at found
      contradiction
    · rw [Function.update_of_ne isSource] at found
      by_cases isTarget : directory = target
      · rw [isTarget, Function.update_self] at found
        exact ⟨isSource, .inl ⟨isTarget, (Option.some.inj found).symm⟩⟩
      · rw [Function.update_of_ne isTarget] at found
        exact ⟨isSource, .inr ⟨isTarget, found⟩⟩
  constructor
  · intro first second held one two
    obtain ⟨notFirst, ⟨isFirst, rfl⟩ | ⟨-, before⟩⟩ := origin first held one
    · obtain ⟨notSecond, ⟨isSecond, -⟩ | ⟨-, also⟩⟩ := origin second held two
      · exact isFirst.trans isSecond.symm
      · exact absurd (proper.separate second source held also entry) notSecond
    · obtain ⟨notSecond, ⟨-, rfl⟩ | ⟨-, also⟩⟩ := origin second held two
      · exact absurd (proper.separate first source held before entry) notFirst
      · exact proper.separate first second held before also
  · intro directory held found
    obtain ⟨-, ⟨-, rfl⟩ | ⟨-, found⟩⟩ := origin directory held found
    · exact proper.allocated source held entry
    · exact proper.allocated directory held found

/-- Creating a file leaves the other directories as they are. -/
theorem Proper.read_create (proper : files.Proper) (differs : other ≠ directory) :
    (files.create directory).1.read other = files.read other := by
  unfold read
  rw [entries_create_of_ne differs]
  cases entry : files.entries other with
  | none => rfl
  | some held =>
    rw [Option.map_some, Option.map_some, contents_create_of_ne]
    rintro rfl
    exact differs ((proper.create directory).separate other directory _
      ((entries_create_of_ne differs).trans entry) entries_create_self)

/-- So does writing to it. -/
theorem Proper.read_writeAt (proper : files.Proper) (entry : files.entries directory = some file)
    (differs : other ≠ directory) (position : ℕ) (bytes : List UInt8) :
    (files.writeAt file position bytes).read other = files.read other := by
  unfold read writeAt
  dsimp only
  cases found : files.entries other with
  | none => rfl
  | some held =>
    rw [Option.map_some, Option.map_some, Function.update_of_ne]
    rintro rfl
    exact differs (proper.separate other directory held found entry)

end Spec

/-! ### Writing a text piece by piece -/

/-- A file begins as a text does. -/
def Agrees (held text : List UInt8) (count : ℕ) : Prop :=
  ∀ place < count, held[place]? = text[place]?

variable {held text : List UInt8} {count position bytes : ℕ}

theorem length_splice (held : List UInt8) (position : ℕ) (chunk : List UInt8) :
    (splice held position chunk).length = max held.length (position + chunk.length) := by
  unfold splice
  simp only [List.length_append, List.length_take, List.length_replicate, List.length_drop]
  omega

theorem getElem?_splice {place : ℕ} (chunk : List UInt8)
    (reached : place < position → place < held.length) :
    (splice held position chunk)[place]? =
      if position ≤ place ∧ place < position + chunk.length then chunk[place - position]?
      else held[place]? := by
  have start : (held.take position ++ List.replicate (position - held.length) 0).length =
      position := by
    simp only [List.length_append, List.length_take, List.length_replicate]
    omega
  unfold splice
  split
  · next inside =>
    rw [List.getElem?_append_left (by rw [List.length_append, start]; exact inside.2),
      List.getElem?_append_right (by rw [start]; exact inside.1), start]
  · next outside =>
    by_cases before : place < position
    · rw [List.append_assoc, List.getElem?_append_left (by rw [start]; exact before),
        List.getElem?_append_left (by
          rw [List.length_take]
          exact Nat.lt_min.mpr ⟨before, reached before⟩), List.getElem?_take_of_lt before]
    · rw [List.getElem?_append_right (by rw [List.length_append, start]; omega),
        List.length_append, start, List.getElem?_drop]
      congr 1
      omega

/-- Writing a piece of the text at its place keeps what agrees, and adds the piece. -/
theorem Agrees.splice (agrees : Agrees held text count) (inside : count ≤ text.length)
    {chunk : List UInt8} (piece : chunk = (text.drop position).take bytes) {reached : ℕ}
    (within : ∀ place < reached, place < count ∨
      position ≤ place ∧ place < position + chunk.length) :
    Agrees (splice held position chunk) text reached := by
  intro place before
  have there : ∀ earlier < count, earlier < held.length := by
    intro earlier listed
    have same := agrees earlier listed
    rw [List.getElem?_eq_getElem (listed.trans_le inside)] at same
    exact (List.getElem?_eq_some_iff.mp same).1
  rw [getElem?_splice chunk fun early => ?_]
  · split
    · next covered =>
      rw [piece, List.getElem?_take_of_lt, List.getElem?_drop]
      · congr 1
        omega
      · have bound : chunk.length ≤ bytes := by
          rw [piece]
          exact List.length_take_le ..
        omega
    · next apart =>
      exact agrees place ((within place before).resolve_right apart)
  · rcases within place before with listed | covered
    · exact there place listed
    · omega

/-- A file that agrees with a whole text and is not longer is that text. -/
theorem Agrees.eq (agrees : Agrees held text text.length) (short : held.length ≤ text.length) :
    held = text := by
  refine List.ext_getElem? fun place => ?_
  by_cases inside : place < text.length
  · exact agrees place inside
  · rw [List.getElem?_eq_none (short.trans (Nat.le_of_not_lt inside)),
      List.getElem?_eq_none (Nat.le_of_not_lt inside)]

end IndexFiles

/-- `KeyIndex::read_from_file`. -/
def KeyIndex.readFromFile [formats : KeyFormats] (files : IndexFiles)
    (keysDirectory : DirectoryPath) : Except KeyStoreError KeyIndex :=
  match files.read keysDirectory with
  | none => .ok new
  | some contents =>
    (formats.fromStr contents).mapError fun error =>
      .decodingError ("error parsing index file: " ++ error)

/-! ### Instances and calls -/

structure FilesystemKeyStore where
  keysDirectory : DirectoryPath
  index : KeyIndex

inductive KeyOperation where
  | addKey (accountId : AccountId) (pubKeyCommitment : PublicKeyCommitment)
  | removeKey (pubKeyCommitment : PublicKeyCommitment)
  deriving DecidableEq, Repr

/-- What a call does to the index. -/
def KeyOperation.change [KeyFormats] : KeyOperation → KeyIndex → KeyIndex
  | .addKey accountId pubKeyCommitment, index => index.addMapping accountId pubKeyCommitment
  | .removeKey pubKeyCommitment, index => index.removeAllMappingsForKey pubKeyCommitment

/-- What a call does next. From the text of the index to the renaming it holds the lock on the
index for reading. -/
inductive KeyCallPhase where
  | writeKeyFile
  | updateIndex
  | saveIndex
  | createTemp (contents : List UInt8)
  | writeTemp (contents : List UInt8) (file : Inode) (written : ℕ)
  | syncTemp (contents : List UInt8) (file : Inode)
  | renameTemp (contents : List UInt8) (file : Inode)
  | removeKeyFile
  | returned (result : Except KeyStoreError Unit)
  deriving DecidableEq

namespace KeyCallPhase

/-- The text that the call has taken of the index, under the lock. -/
def contents? : KeyCallPhase → Option (List UInt8)
  | createTemp contents | writeTemp contents _ _ | syncTemp contents _ | renameTemp contents _ =>
    some contents
  | _ => none

/-- The temporary file that the call has open or is to rename, and how much it has written. -/
def temporary? : KeyCallPhase → Option (Inode × ℕ)
  | writeTemp _ file written => some (file, written)
  | syncTemp contents file | renameTemp contents file => some (file, contents.length)
  | _ => none

def holdsLock (phase : KeyCallPhase) : Bool :=
  phase.contents?.isSome

/-- The call has changed the index of its instance. -/
def changed : KeyCallPhase → Bool
  | writeKeyFile | updateIndex => false
  | _ => true

/-- The call has changed the index of its instance, and has not renamed the file. -/
def pending : KeyCallPhase → Bool
  | saveIndex => true
  | phase => phase.holdsLock

end KeyCallPhase

/-- What is left when the index is saved. -/
def KeyOperation.afterSaving : KeyOperation → KeyCallPhase
  | .addKey _ _ => .returned (.ok ())
  | .removeKey _ => .removeKeyFile

/-- A call of `add_key` or `remove_key` on an instance. -/
structure KeyCall where
  store : ℕ
  operation : KeyOperation
  phase : KeyCallPhase
  deriving DecidableEq

/-- The index files and the key files, the instances, and the calls made on them so far. A key
file holds the key of a commitment. -/
structure KeyStores where
  files : IndexFiles
  keyFiles : DirectoryPath → String → Option PublicKeyCommitment
  stores : List FilesystemKeyStore
  calls : List KeyCall

/-- What can happen next. A step writes up to a number of bytes, when it writes. -/
inductive KeyEvent where
  | new (keysDirectory : DirectoryPath)
  | clone (store : ℕ)
  | call (store : ℕ) (operation : KeyOperation)
  | advance (call : ℕ) (bytes : ℕ)

namespace KeyStores

variable [formats : KeyFormats]

def setPhase (state : KeyStores) (call : ℕ) (phase : KeyCallPhase) : KeyStores :=
  { state with calls := state.calls.modify call fun record => { record with phase := phase } }

/-- `FilesystemKeyStore::new`. -/
def openStore (state : KeyStores) (keysDirectory : DirectoryPath) : KeyStores :=
  match KeyIndex.readFromFile state.files keysDirectory with
  | .ok index => { state with stores := state.stores ++ [⟨keysDirectory, index⟩] }
  | .error _ => state

def cloneStore (state : KeyStores) (store : ℕ) : KeyStores :=
  match state.stores[store]? with
  | some original => { state with stores := state.stores ++ [original] }
  | none => state

/-- A call on an instance that is there. -/
def startCall (state : KeyStores) (store : ℕ) (operation : KeyOperation) : KeyStores :=
  if store < state.stores.length then
    { state with
      calls := state.calls ++ [{
        store := store
        operation := operation
        phase := match operation with
          | .addKey _ _ => .writeKeyFile
          | .removeKey _ => .updateIndex }] }
  else state

/-- `add_key_without_account`. -/
def addKeyWithoutAccount (state : KeyStores) (keysDirectory : DirectoryPath)
    (operation : KeyOperation) : KeyStores :=
  match operation with
  | .addKey _ pubKeyCommitment =>
    { state with
      keyFiles := Function.update state.keyFiles keysDirectory
        (Function.update (state.keyFiles keysDirectory) (formats.hashPubKey pubKeyCommitment)
          (some pubKeyCommitment)) }
  | .removeKey _ => state

/-- The removal of the key file in `remove_key`. -/
def removeKeyFile (state : KeyStores) (keysDirectory : DirectoryPath)
    (operation : KeyOperation) : KeyStores :=
  match operation with
  | .addKey _ _ => state
  | .removeKey pubKeyCommitment =>
    { state with
      keyFiles := Function.update state.keyFiles keysDirectory
        (Function.update (state.keyFiles keysDirectory) (formats.hashPubKey pubKeyCommitment)
          none) }

/-- A call that holds the lock on the index of an instance keeps all others from changing it. -/
def isLocked (state : KeyStores) (store : ℕ) : Bool :=
  state.calls.any fun call => decide (call.store = store) && call.phase.holdsLock

/-- Changes the index of an instance under its lock. -/
def updateIndex (state : KeyStores) (call : ℕ) (record : KeyCall) : KeyStores :=
  if state.isLocked record.store then state
  else
    { state with
      stores := state.stores.modify record.store fun store =>
        { store with index := record.operation.change store.index } }.setPhase call .saveIndex

/-- Writes some bytes of the text to the temporary file. -/
def writeTemp (state : KeyStores) (call : ℕ) (contents : List UInt8) (file : Inode)
    (written bytes : ℕ) : KeyStores :=
  let chunk := (contents.drop written).take (bytes + 1)
  let phase :=
    if written + chunk.length < contents.length then
      .writeTemp contents file (written + chunk.length)
    else .syncTemp contents file
  { state with files := state.files.writeAt file written chunk }.setPhase call phase

/-- Renames the temporary file to the index file, which ends the saving. -/
def renameTemp (tempDirectory : DirectoryPath) (state : KeyStores) (call : ℕ)
    (operation : KeyOperation) (keysDirectory : DirectoryPath) : KeyStores :=
  match state.files.rename tempDirectory keysDirectory with
  | some files =>
    { state with files := files }.setPhase call operation.afterSaving
  | none =>
    state.setPhase call
      (.returned (.error (.storageError ("error renaming index file: " ++ formats.notFound))))

/-- The next step of a call. -/
def advance (tempDirectory : DirectoryPath) (state : KeyStores) (call bytes : ℕ) : KeyStores :=
  match state.calls[call]? with
  | none => state
  | some record =>
    match state.stores[record.store]? with
    | none => state
    | some store =>
      match record.phase with
      | .writeKeyFile =>
        (state.addKeyWithoutAccount store.keysDirectory record.operation).setPhase call
          .updateIndex
      | .updateIndex => state.updateIndex call record
      | .saveIndex => state.setPhase call (.createTemp (formats.toStringPretty store.index))
      | .createTemp contents =>
        let created := state.files.create tempDirectory
        { state with files := created.1 }.setPhase call (.writeTemp contents created.2 0)
      | .writeTemp contents file written => state.writeTemp call contents file written bytes
      | .syncTemp contents file => state.setPhase call (.renameTemp contents file)
      | .renameTemp _ _ => state.renameTemp tempDirectory call record.operation store.keysDirectory
      | .removeKeyFile =>
        (state.removeKeyFile store.keysDirectory record.operation).setPhase call
          (.returned (.ok ()))
      | .returned _ => state

def perform (tempDirectory : DirectoryPath) (state : KeyStores) : KeyEvent → KeyStores
  | .new keysDirectory => state.openStore keysDirectory
  | .clone store => state.cloneStore store
  | .call store operation => state.startCall store operation
  | .advance call bytes => state.advance tempDirectory call bytes

/-! ### What all calls together should achieve -/

/-- The directory that a call works on. -/
def directory? (state : KeyStores) (record : KeyCall) : Option DirectoryPath :=
  (state.stores[record.store]?).map FilesystemKeyStore.keysDirectory

/-- The call was made on the directory, and performs the operation. -/
def MadeOn (state : KeyStores) (keysDirectory : DirectoryPath)
    (entry : ℕ × KeyOperation) : Prop :=
  ∃ record, state.calls[entry.1]? = some record ∧ record.operation = entry.2 ∧
    state.directory? record = some keysDirectory

def AllReturned (state : KeyStores) : Prop :=
  ∀ record ∈ state.calls, record.phase = .returned (.ok ())

/-- The index file of every directory holds what the calls made on the directory lead to, in some
order. -/
def Serialized (initial : DirectoryPath → KeyIndex) (state : KeyStores) : Prop :=
  ∀ keysDirectory, ∃ order : List (ℕ × KeyOperation),
    (order.map Prod.fst).Nodup ∧ (∀ entry, entry ∈ order ↔ state.MadeOn keysDirectory entry) ∧
      KeyIndex.readFromFile state.files keysDirectory =
        .ok (order.foldl (fun index entry => entry.2.change index) (initial keysDirectory))

/-- No instance is open, and every index file can be read. -/
structure IsStart (initial : DirectoryPath → KeyIndex) (state : KeyStores) : Prop where
  noStores : state.stores = []
  noCalls : state.calls = []
  proper : state.files.Proper
  readable : ∀ keysDirectory,
    KeyIndex.readFromFile state.files keysDirectory = .ok (initial keysDirectory)

end KeyStores

end MidenClient
