/-
This file models what a filesystem keystore answers when its calls are made one after the other
(`rust-client/src/keystore/fs_keystore.rs`): the key files, which are named by a hash of the
commitment, and the index, in memory and in its file.

It answers as a keystore should, about all keys that its calls are about and in every state, exactly
when no key that is added has the file name of another one.
-/

import MidenClient.Library.Fallible
import MidenClient.Keystore.KeyContents

namespace MidenClient

open Std (ExtTreeMap ExtTreeSet)
open KeyTexts

section Directories

variable [texts : KeyTexts]

/-! ### Answers from the index -/

namespace KeyIndex

/-- The account of a commitment: the first one in the order of the names. -/
def getAccountId (index : KeyIndex) (pubKeyCommitment : PublicKeyCommitment) : Option AccountId :=
  (index.mappings.toList.find? fun entry =>
    entry.2.contains (texts.wordToHex pubKeyCommitment)).bind fun entry =>
      (accountFromHex entry.1).toOption

def getCommitments (index : KeyIndex) (accountId : AccountId) :
    Except KeyStoreError (ExtTreeSet PublicKeyCommitment) :=
  match index.mappings[texts.accountToHex accountId]? with
  | some commitments =>
    .ok (ExtTreeSet.ofList (commitments.toList.filterMap fun hex => (wordFromHex hex).toOption))
  | none => .error (.storageError ("account not found " ++ texts.accountToHex accountId))

end KeyIndex

/-! ### The keystore -/

/-- A directory with its key files and its index file, and the index of the instance that is open on
it. -/
structure KeyDirectory where
  keyFiles : ExtTreeMap String (List UInt8)
  indexFile : Option (List UInt8)
  index : KeyIndex

namespace KeyDirectory

def empty : KeyDirectory :=
  ⟨∅, none, .new⟩

/-- `KeyIndex::read_from_file`. -/
def readIndex (directory : KeyDirectory) : Except KeyStoreError KeyIndex :=
  match directory.indexFile with
  | none => .ok .new
  | some contents =>
    (texts.fromStr contents).mapError fun error =>
      .decodingError ("error parsing index file: " ++ error)

/-- `FilesystemKeyStore::new`, which fails when the index cannot be read. -/
def reopened (directory : KeyDirectory) : KeyDirectory :=
  match directory.readIndex with
  | .ok index => { directory with index := index }
  | .error _ => directory

/-- `write_secret_key_file`, to the file of the key. -/
def addKeyWithoutAccount (directory : KeyDirectory) (key : AuthSecretKey) : KeyDirectory :=
  { directory with
    keyFiles := directory.keyFiles.insert (texts.hashPubKey (toCommitment key)) (toBytes key) }

def saveIndex (directory : KeyDirectory) : KeyDirectory :=
  { directory with indexFile := some (texts.toStringPretty directory.index) }

def addKey (directory : KeyDirectory) (key : AuthSecretKey) (accountId : AccountId) :
    Except KeyStoreError Unit × KeyDirectory :=
  let written := directory.addKeyWithoutAccount key
  (.ok (), { written with
    index := written.index.addMapping accountId (toCommitment key) }.saveIndex)

/-- A file that is not there does not matter. -/
def removeKey (directory : KeyDirectory) (pubKey : PublicKeyCommitment) :
    Except KeyStoreError Unit × KeyDirectory :=
  let saved := { directory with index := directory.index.removeAllMappingsForKey pubKey }.saveIndex
  (.ok (), { saved with keyFiles := saved.keyFiles.erase (texts.hashPubKey pubKey) })

/-- `get_key_sync`. -/
def getKey (directory : KeyDirectory) (pubKey : PublicKeyCommitment) :
    Except KeyStoreError (Option AuthSecretKey) :=
  match directory.keyFiles[texts.hashPubKey pubKey]? with
  | some bytes =>
    ((readFromBytes bytes).mapError fun error =>
      .decodingError ("error reading secret key from file: " ++ error)).map some
  | none => .ok none

end KeyDirectory

def filesystemKeyStore : Keystore KeyDirectory where
  addKey := KeyDirectory.addKey
  removeKey := KeyDirectory.removeKey
  getKey := KeyDirectory.getKey
  getAccountKeyCommitments directory accountId := directory.index.getCommitments accountId
  getAccountIdByKeyCommitment directory pubKey := .ok (directory.index.getAccountId pubKey)
  reopened := KeyDirectory.reopened

namespace KeyDirectory

/-- A key that is not there is no key, and an account without keys is an error. -/
def missing : Keystore.Missing where
  key := .ok none
  commitments accountId :=
    .error (.storageError ("account not found " ++ texts.accountToHex accountId))

/-! ### What the index says -/

/-- The names of keys. -/
def names (pubKeys : ExtTreeSet PublicKeyCommitment) : ExtTreeSet String :=
  ExtTreeSet.ofList (pubKeys.toList.map texts.wordToHex)

theorem mem_names {pubKeys : ExtTreeSet PublicKeyCommitment} {name : String} :
    name ∈ names pubKeys ↔ ∃ pubKey ∈ pubKeys, texts.wordToHex pubKey = name := by
  simp [names, ExtTreeSet.mem_ofList]

theorem wordToHex_mem_names {pubKeys : ExtTreeSet PublicKeyCommitment}
    {pubKey : PublicKeyCommitment} :
    texts.wordToHex pubKey ∈ names pubKeys ↔ pubKey ∈ pubKeys := by
  rw [mem_names]
  constructor
  · rintro ⟨other, member, same⟩
    rwa [← wordToHex_injective same]
  · exact fun member => ⟨pubKey, member, rfl⟩

theorem names_insert (pubKeys : ExtTreeSet PublicKeyCommitment) (pubKey : PublicKeyCommitment) :
    names (pubKeys.insert pubKey) = (names pubKeys).insert (texts.wordToHex pubKey) := by
  refine ExtTreeSet.ext_mem fun name => ?_
  rw [mem_names, ExtTreeSet.mem_insert, mem_names, Std.LawfulEqCmp.compare_eq_iff_eq]
  constructor
  · rintro ⟨other, member, rfl⟩
    rcases ExtTreeSet.mem_insert.mp member with same | before
    · exact .inl (congrArg _ (Std.LawfulEqCmp.compare_eq_iff_eq.mp same))
    · exact .inr ⟨other, before, rfl⟩
  · rintro (rfl | ⟨other, member, rfl⟩)
    · exact ⟨pubKey, ExtTreeSet.mem_insert_self, rfl⟩
    · exact ⟨other, ExtTreeSet.mem_insert.mpr (.inr member), rfl⟩

theorem names_erase (pubKeys : ExtTreeSet PublicKeyCommitment) (pubKey : PublicKeyCommitment) :
    names (pubKeys.erase pubKey) = (names pubKeys).erase (texts.wordToHex pubKey) := by
  refine ExtTreeSet.ext_mem fun name => ?_
  rw [mem_names, ExtTreeSet.mem_erase, mem_names]
  constructor
  · rintro ⟨other, member, rfl⟩
    obtain ⟨differs, before⟩ := ExtTreeSet.mem_erase.mp member
    refine ⟨fun same => differs ?_, other, before, rfl⟩
    rw [Std.LawfulEqCmp.compare_eq_iff_eq] at same ⊢
    exact wordToHex_injective same
  · rintro ⟨differs, other, member, rfl⟩
    refine ⟨other, ExtTreeSet.mem_erase.mpr ⟨fun same => differs ?_, member⟩, rfl⟩
    rw [Std.LawfulEqCmp.compare_eq_iff_eq] at same ⊢
    exact congrArg _ same

theorem names_eq_empty {pubKeys : ExtTreeSet PublicKeyCommitment} :
    names pubKeys = ∅ ↔ pubKeys = ∅ := by
  rw [names, ExtTreeSet.ofList_eq_empty_iff, List.map_eq_nil_iff, ExtTreeSet.toList_eq_nil_iff]

/-- The index lists the accounts that have keys, with the names of these. -/
def Indexes (index : KeyIndex) (keysOf : AccountId → ExtTreeSet PublicKeyCommitment) : Prop :=
  ∀ name listed, index.mappings[name]? = some listed ↔
    ∃ accountId, texts.accountToHex accountId = name ∧ keysOf accountId ≠ ∅ ∧
      names (keysOf accountId) = listed

namespace Indexes

variable {index : KeyIndex} {keysOf : AccountId → ExtTreeSet PublicKeyCommitment}

theorem new : Indexes .new fun _ => ∅ := by
  intro name listed
  simp [KeyIndex.new]

theorem getElem? (indexes : Indexes index keysOf) (accountId : AccountId) :
    index.mappings[texts.accountToHex accountId]? =
      if keysOf accountId = ∅ then none else some (names (keysOf accountId)) := by
  split
  · rename_i without
    refine Option.eq_none_iff_forall_ne_some.mpr fun listed found => ?_
    obtain ⟨other, same, keys, -⟩ := (indexes _ listed).mp found
    rw [accountToHex_injective same] at keys
    exact keys without
  · rename_i keys
    exact (indexes _ _).mpr ⟨accountId, rfl, keys, rfl⟩

/-- An index is known by what it lists for the accounts. -/
theorem of_getElem? (listed : ∀ accountId, index.mappings[texts.accountToHex accountId]? =
      if keysOf accountId = ∅ then none else some (names (keysOf accountId)))
    (named : ∀ name, index.mappings[name]? ≠ none → ∃ accountId,
      texts.accountToHex accountId = name) : Indexes index keysOf := by
  intro name given
  constructor
  · intro found
    obtain ⟨accountId, rfl⟩ := named name (by rw [found]; exact Option.some_ne_none _)
    rw [listed] at found
    split at found
    · cases found
    · rename_i keys
      exact ⟨accountId, rfl, keys, Option.some_inj.mp found⟩
  · rintro ⟨accountId, rfl, keys, rfl⟩
    rw [listed, if_neg keys]

theorem addMapping (indexes : Indexes index keysOf) (accountId : AccountId)
    (pubKey : PublicKeyCommitment) :
    Indexes (index.addMapping accountId pubKey)
      (Function.update keysOf accountId ((keysOf accountId).insert pubKey)) := by
  have before : index.mappings.getD (texts.accountToHex accountId) ∅ =
      names (keysOf accountId) := by
    rw [ExtTreeMap.getD_eq_getD_getElem?, indexes.getElem?]
    split
    · rename_i without
      rw [without]
      exact (names_eq_empty.mpr rfl).symm
    · rfl
  have updated : ∀ name, (index.addMapping accountId pubKey).mappings[name]? =
      if texts.accountToHex accountId = name then
        some (names ((keysOf accountId).insert pubKey)) else index.mappings[name]? := by
    intro name
    rw [KeyIndex.addMapping]
    dsimp only
    rw [before, ← names_insert, ExtTreeMap.getElem?_insert]
    simp
  refine of_getElem? (fun other => ?_) fun name listed => ?_
  · rw [updated]
    by_cases same : other = accountId
    · subst same
      rw [if_pos rfl, Function.update_self, if_neg]
      intro absurdity
      exact ExtTreeSet.not_mem_empty (absurdity ▸ ExtTreeSet.mem_insert_self (k := pubKey))
    · rw [if_neg fun equal => same (accountToHex_injective equal).symm,
        Function.update_of_ne same, indexes.getElem?]
  · rw [updated] at listed
    split at listed
    · exact ⟨accountId, ‹_›⟩
    · obtain ⟨held, found⟩ := Option.ne_none_iff_exists'.mp listed
      obtain ⟨other, same, -⟩ := (indexes name held).mp found
      exact ⟨other, same⟩

theorem removeAllMappingsForKey (indexes : Indexes index keysOf) (pubKey : PublicKeyCommitment) :
    Indexes (index.removeAllMappingsForKey pubKey) fun accountId =>
      (keysOf accountId).erase pubKey := by
  have updated : ∀ name : String, (index.removeAllMappingsForKey pubKey).mappings[name]? =
      (index.mappings[name]?).bind fun listed : ExtTreeSet String =>
        if (listed.erase (texts.wordToHex pubKey)).isEmpty then none
        else some (listed.erase (texts.wordToHex pubKey)) := by
    intro name
    rw [KeyIndex.removeAllMappingsForKey]
    dsimp only
    rw [ExtTreeMap.getElem?_filterMap']
  refine of_getElem? (fun accountId => ?_) fun name listed => ?_
  · rw [updated, indexes.getElem?]
    split
    · rename_i without
      have still : (keysOf accountId).erase pubKey = ∅ := by
        rw [without]
        exact ExtTreeSet.erase_empty
      rw [if_pos still]
      rfl
    · rw [Option.bind_some, ← names_erase]
      simp only [ExtTreeSet.isEmpty_iff, names_eq_empty]
  · rw [updated] at listed
    have present : index.mappings[name]? ≠ none := fun absent => listed (by rw [absent]; rfl)
    obtain ⟨held, found⟩ := Option.ne_none_iff_exists'.mp present
    obtain ⟨accountId, same, -⟩ := (indexes name held).mp found
    exact ⟨accountId, same⟩

/-- The commitments of an account are read back from their names. -/
theorem getCommitments (indexes : Indexes index keysOf) (accountId : AccountId) :
    index.getCommitments accountId =
      if keysOf accountId = ∅ then missing.commitments accountId else .ok (keysOf accountId) := by
  rw [KeyIndex.getCommitments, indexes.getElem?]
  split
  · rename_i listed found
    split at found
    · cases found
    · rename_i keys
      rw [← Option.some_inj.mp found, if_neg keys]
      refine congrArg Except.ok (ExtTreeSet.ext_mem fun pubKey => ?_)
      rw [ExtTreeSet.mem_ofList]
      simp only [List.contains_iff_mem, List.mem_filterMap, ExtTreeSet.mem_toList, mem_names]
      constructor
      · rintro ⟨name, ⟨other, member, rfl⟩, read⟩
        rw [wordFromHex_toHex] at read
        rwa [← Option.some_inj.mp read]
      · intro member
        exact ⟨_, ⟨pubKey, member, rfl⟩, by rw [wordFromHex_toHex]; rfl⟩
  · rename_i found
    split at found
    · rw [if_pos ‹_›]
      rfl
    · cases found

/-- The account of a commitment is one that has the key. -/
theorem getAccountId (indexes : Indexes index keysOf) (pubKey : PublicKeyCommitment) :
    (∃ accountId, pubKey ∈ keysOf accountId ∧ index.getAccountId pubKey = some accountId) ∨
      (∀ accountId, pubKey ∉ keysOf accountId) ∧ index.getAccountId pubKey = none := by
  rw [KeyIndex.getAccountId]
  rcases search : index.mappings.toList.find? fun entry =>
      entry.2.contains (texts.wordToHex pubKey) with _ | ⟨name, listed⟩
  · refine .inr ⟨fun accountId member => ?_, by rw [search]; rfl⟩
    have keys : keysOf accountId ≠ ∅ := fun without =>
      ExtTreeSet.not_mem_empty (without ▸ member)
    have found := (indexes _ _).mpr ⟨accountId, rfl, keys, rfl⟩
    have entry := ExtTreeMap.mem_toList_iff_getElem?_eq_some.mpr found
    refine List.find?_eq_none.mp search _ entry ?_
    exact ExtTreeSet.contains_iff_mem.mpr (wordToHex_mem_names.mpr member)
  · have entry := ExtTreeMap.mem_toList_iff_getElem?_eq_some.mp (List.mem_of_find?_eq_some search)
    obtain ⟨accountId, rfl, -, rfl⟩ := (indexes name listed).mp entry
    have contained := List.find?_some search
    refine .inl ⟨accountId, ?_, ?_⟩
    · exact wordToHex_mem_names.mp (ExtTreeSet.contains_iff_mem.mp contained)
    · rw [search, Option.bind_some, accountFromHex_toHex]
      rfl

end Indexes

/-! ### Runs -/

def start : KeySession KeyDirectory :=
  ⟨empty, .empty, true⟩

/-- The commitments of the keys that calls add. -/
def added (calls : List KeystoreCall) : Set PublicKeyCommitment :=
  {pubKey | ∃ key accountId, .addKey key accountId ∈ calls ∧ toCommitment key = pubKey}

/-- The commitments that calls are about. -/
def about (calls : List KeystoreCall) : Set PublicKeyCommitment :=
  {pubKey | ∃ call ∈ calls, call.commitment? = some pubKey}

/-- No key that is added has the file name of another key. -/
def OwnFiles (calls : List KeystoreCall) : Prop :=
  ∀ first ∈ added calls, ∀ second ∈ about calls,
    texts.hashPubKey first = texts.hashPubKey second → first = second

/-- The directory holds the contents, as far as the calls of a run are concerned. -/
structure Holds (calls : List KeystoreCall) (session : KeySession KeyDirectory) : Prop where
  succeeded : session.succeeded = true
  sound : session.contents.Sound
  stored : ∀ pubKey key, session.contents.keys[pubKey]? = some key → pubKey ∈ added calls
  keyFiles : ∀ pubKey ∈ about calls, session.state.keyFiles[texts.hashPubKey pubKey]? =
    (session.contents.keys[pubKey]?).map toBytes
  indexes : Indexes session.state.index session.contents.keysOf
  saved : session.state.readIndex = .ok session.state.index

namespace Holds

variable {calls : List KeystoreCall} {session : KeySession KeyDirectory}

theorem start (calls : List KeystoreCall) : Holds calls KeyDirectory.start where
  succeeded := rfl
  sound := .empty
  stored := by
    intro pubKey key found
    simp [KeyDirectory.start, KeyContents.empty] at found
  keyFiles := by
    intro pubKey member
    simp [KeyDirectory.start, KeyDirectory.empty, KeyContents.empty]
  indexes := .new
  saved := rfl

theorem added_subset_about {pubKey : PublicKeyCommitment} (member : pubKey ∈ added calls) :
    pubKey ∈ about calls := by
  obtain ⟨key, accountId, made, rfl⟩ := member
  exact ⟨_, made, rfl⟩

theorem readIndex_saveIndex (directory : KeyDirectory) :
    directory.saveIndex.readIndex = .ok directory.index := by
  rw [readIndex, saveIndex]
  dsimp only
  rw [roundTrip]
  rfl

theorem getKey (holds : Holds calls session) {pubKey : PublicKeyCommitment}
    (member : pubKey ∈ about calls) :
    session.state.getKey pubKey =
      (session.contents.keys[pubKey]?).elim (.ok none) fun key => .ok (some key) := by
  rw [KeyDirectory.getKey, holds.keyFiles pubKey member]
  cases session.contents.keys[pubKey]? with
  | none => rfl
  | some key =>
    rw [Option.map_some]
    dsimp only
    rw [readFromBytes_toBytes]
    rfl

theorem answersAs (holds : Holds calls session) :
    filesystemKeyStore.AnswersAs missing (about calls) session where
  succeeded := holds.succeeded
  key := fun pubKey member => holds.getKey member
  commitments := holds.indexes.getCommitments
  keys := by
    intro accountId keys
    refine Keystore.getKeysForAccount_eq holds.sound ?_ fun pubKey _ key found => ?_
    · exact (holds.indexes.getCommitments accountId).trans (if_neg keys)
    · have inside := added_subset_about (holds.stored pubKey key found)
      exact (holds.getKey inside).trans (by rw [found]; rfl)
  account := by
    intro pubKey
    rcases holds.indexes.getAccountId pubKey with ⟨accountId, member, given⟩ | ⟨none_has, given⟩
    · exact .inl ⟨accountId, member, congrArg Except.ok given⟩
    · exact .inr ⟨none_has, congrArg Except.ok given⟩

theorem addKey (holds : Holds calls session) (own : OwnFiles calls) {key : AuthSecretKey}
    {accountId : AccountId} (made : .addKey key accountId ∈ calls) :
    Holds calls (filesystemKeyStore.perform session (.addKey key accountId)) where
  succeeded := by
    rw [Keystore.perform, holds.succeeded]
    rfl
  sound := holds.sound.perform (.addKey key accountId)
  stored := by
    intro pubKey stored found
    rw [Keystore.perform, KeyContents.getElem?_keys_add] at found
    split at found
    · exact ⟨key, accountId, made, ‹_›⟩
    · exact holds.stored pubKey stored found
  keyFiles := by
    intro pubKey member
    show (session.state.keyFiles.insert (texts.hashPubKey (toCommitment key))
      (toBytes key))[texts.hashPubKey pubKey]? =
        ((session.contents.perform (.addKey key accountId)).keys[pubKey]?).map toBytes
    rw [KeyContents.getElem?_keys_add, ExtTreeMap.getElem?_insert]
    by_cases same : toCommitment key = pubKey
    · simp [same]
    · have apart : texts.hashPubKey (toCommitment key) ≠ texts.hashPubKey pubKey := fun equal =>
        same (own _ ⟨key, accountId, made, rfl⟩ pubKey member equal)
      simp [same, apart, holds.keyFiles pubKey member]
  indexes := holds.indexes.addMapping accountId (toCommitment key)
  saved := readIndex_saveIndex _

theorem removeKey (holds : Holds calls session) (own : OwnFiles calls)
    {removed : PublicKeyCommitment} (made : .removeKey removed ∈ calls) :
    Holds calls (filesystemKeyStore.perform session (.removeKey removed)) where
  succeeded := by
    rw [Keystore.perform, holds.succeeded]
    rfl
  sound := holds.sound.perform (.removeKey removed)
  stored := by
    intro pubKey stored found
    rw [Keystore.perform, KeyContents.getElem?_keys_remove] at found
    split at found
    · cases found
    · exact holds.stored pubKey stored found
  keyFiles := by
    intro pubKey member
    show (session.state.keyFiles.erase (texts.hashPubKey removed))[texts.hashPubKey pubKey]? =
        ((session.contents.perform (.removeKey removed)).keys[pubKey]?).map toBytes
    rw [KeyContents.getElem?_keys_remove, ExtTreeMap.getElem?_erase]
    by_cases same : removed = pubKey
    · simp [same]
    · by_cases shared : texts.hashPubKey removed = texts.hashPubKey pubKey
      · -- The file is that of a key which is not stored.
        have absent : session.contents.keys[pubKey]? = none := by
          refine Option.eq_none_iff_forall_ne_some.mpr fun key found => same ?_
          exact (own pubKey (holds.stored pubKey key found) removed ⟨_, made, rfl⟩ shared.symm).symm
        simp [same, shared, absent]
      · simp [same, shared, holds.keyFiles pubKey member]
  indexes := holds.indexes.removeAllMappingsForKey removed
  saved := readIndex_saveIndex _

theorem reopened (holds : Holds calls session) :
    Holds calls (filesystemKeyStore.perform session .reopen) := by
  have same : session.state.reopened = session.state := by
    rw [KeyDirectory.reopened, holds.saved]
  have whole : filesystemKeyStore.perform session .reopen = session := by
    rw [Keystore.perform, Keystore.answer]
    show (⟨session.state.reopened, session.contents, _⟩ : KeySession KeyDirectory) = session
    rw [same]
    exact congrArg (KeySession.mk session.state session.contents) (Bool.and_true _)
  rw [whole]
  exact holds

theorem perform (holds : Holds calls session) (own : OwnFiles calls) {call : KeystoreCall}
    (made : call ∈ calls) : Holds calls (filesystemKeyStore.perform session call) := by
  cases call with
  | addKey key accountId => exact holds.addKey own made
  | removeKey removed => exact holds.removeKey own made
  | reopen => exact holds.reopened

theorem foldl (own : OwnFiles calls) {made : List KeystoreCall}
    (inside : ∀ call ∈ made, call ∈ calls) :
    Holds calls (made.foldl filesystemKeyStore.perform KeyDirectory.start) := by
  induction made using List.reverseRecOn with
  | nil => exact start calls
  | append_singleton earlier call inductionHypothesis =>
    have before := inductionHypothesis fun other member =>
      inside other (List.mem_append_left _ member)
    rw [List.foldl_append]
    exact before.perform own (inside call (List.mem_append_right _ (.head _)))

end Holds

/-- A key that was just added is what is read for all that share its file name. -/
theorem getKey_of_shared (directory : KeyDirectory) (key : AuthSecretKey) (accountId : AccountId)
    {other : PublicKeyCommitment}
    (shared : texts.hashPubKey (toCommitment key) = texts.hashPubKey other) :
    (directory.addKey key accountId).2.getKey other = .ok (some key) := by
  have found : (directory.addKey key accountId).2.keyFiles[texts.hashPubKey other]? =
      some (toBytes key) := by
    rw [← shared]
    exact ExtTreeMap.getElem?_insert_self
  rw [getKey, found]
  dsimp only
  rw [readFromBytes_toBytes]
  rfl

/-- What a run should lead to does not depend on the keystore. -/
theorem contents_sound (calls : List KeystoreCall) :
    (calls.foldl filesystemKeyStore.perform start).contents.Sound := by
  induction calls using List.reverseRecOn with
  | nil => exact .empty
  | append_singleton earlier call inductionHypothesis =>
    rw [List.foldl_append]
    exact inductionHypothesis.perform call

/-- A keystore that answers as it should after a key was added has no other one in that file. -/
theorem eq_of_answersAs {session : KeySession KeyDirectory} {key : AuthSecretKey}
    {accountId : AccountId} {pubKeys : Set PublicKeyCommitment} {other : PublicKeyCommitment}
    (sound : session.contents.Sound)
    (answers : filesystemKeyStore.AnswersAs missing pubKeys
      (filesystemKeyStore.perform session (.addKey key accountId)))
    (member : other ∈ pubKeys)
    (shared : texts.hashPubKey (toCommitment key) = texts.hashPubKey other) :
    toCommitment key = other := by
  have read := (getKey_of_shared session.state key accountId shared).symm.trans
    (answers.key other member)
  have later : (filesystemKeyStore.perform session (.addKey key accountId)).contents.Sound :=
    sound.perform (.addKey key accountId)
  rcases stored : (filesystemKeyStore.perform session (.addKey key accountId)).contents.keys[other]?
    with _ | held
  · rw [stored] at read
    cases read
  · rw [stored] at read
    rw [← later.own other held stored, ← Option.some_inj.mp (Except.ok.inj read)]

/-- In every state of a run a filesystem keystore answers what its calls have led to, also after it
has been opened again, if and only if no key that is added has the file name of another key of the
run. -/
theorem filesystemKeyStore_answers_iff (calls : List KeystoreCall) :
    (∀ reached, reached <+: calls → filesystemKeyStore.AnswersAs missing (about calls)
      (reached.foldl filesystemKeyStore.perform start)) ↔ OwnFiles calls := by
  constructor
  · rintro throughout _ ⟨key, accountId, made, rfl⟩ other member shared
    obtain ⟨before, after, rfl⟩ := List.append_of_mem made
    have answers := throughout (before ++ [.addKey key accountId]) ⟨after, by simp⟩
    rw [List.foldl_append] at answers
    exact eq_of_answersAs (contents_sound before) answers member shared
  · rintro own reached ⟨later, rfl⟩
    exact (Holds.foldl own fun call member => List.mem_append_left _ member).answersAs

end KeyDirectory

end Directories

/-! ### Two keys of two accounts -/

namespace Sample

theorem hashPubKey_injective : Function.Injective keyTexts.hashPubKey := by
  intro first second same
  have digits : Nat.toDigits 10 first = Nat.toDigits 10 second := String.ofList_injective same
  rw [← Nat.ofDigitChars_ten_toDigits (n := first), digits, Nat.ofDigitChars_ten_toDigits]

/-- A key is added for two accounts and removed. The directory is opened again, and another key
added for the first account. -/
def addedTwice : List KeystoreCall :=
  [.addKey (secretKey 1) 10, .addKey (secretKey 1) 11, .removeKey 1, .reopen,
    .addKey (secretKey 2) 10]

theorem addedTwice_ownFiles : KeyDirectory.OwnFiles addedTwice :=
  fun _ _ _ _ same => hashPubKey_injective same

/-- The first key is found for both accounts, and removed for both of them. -/
theorem filesystemKeyStore_answers_addedTwice :
    filesystemKeyStore.getAccountKeyCommitments
        ((addedTwice.take 2).foldl filesystemKeyStore.perform KeyDirectory.start).state 11 =
          .ok {1} ∧
      filesystemKeyStore.getAccountKeyCommitments
        (addedTwice.foldl filesystemKeyStore.perform KeyDirectory.start).state 10 = .ok {2} ∧
      filesystemKeyStore.getKey
        (addedTwice.foldl filesystemKeyStore.perform KeyDirectory.start).state 1 = .ok none := by
  have answers := (KeyDirectory.filesystemKeyStore_answers_iff addedTwice).mpr addedTwice_ownFiles
  have before := answers (addedTwice.take 2) (List.take_prefix _ _)
  have after := answers addedTwice List.prefix_rfl
  have both : ((addedTwice.take 2).foldl filesystemKeyStore.perform
      KeyDirectory.start).contents.keysOf 11 = {1} := by
    refine ExtTreeSet.ext_mem fun pubKey => ?_
    simp [addedTwice, Keystore.perform, KeyContents.mem_keysOf_add, KeyDirectory.start,
      KeyContents.empty]
  have kept : (addedTwice.foldl filesystemKeyStore.perform
      KeyDirectory.start).contents.keysOf 10 = {2} := by
    refine ExtTreeSet.ext_mem fun pubKey => ?_
    simp [addedTwice, Keystore.perform, KeyContents.mem_keysOf_add, KeyContents.mem_keysOf_remove,
      KeyContents.perform_reopen, KeyDirectory.start, KeyContents.empty]
  have removed : (addedTwice.foldl filesystemKeyStore.perform KeyDirectory.start).contents.keys[
      (1 : PublicKeyCommitment)]? = none := by
    simp [addedTwice, Keystore.perform, KeyContents.perform]
  refine ⟨?_, ?_, ?_⟩
  · rw [before.commitments, both, if_neg (by simp)]
  · rw [after.commitments, kept, if_neg (by simp)]
  · have given := after.key 1 ⟨.removeKey 1, by simp [addedTwice], rfl⟩
    rwa [removed] at given

end Sample

end MidenClient
