/-
This file models the keystore of the web client (`web-client/src/web_keystore.rs`, with
`web_keystore_db.rs` and `idxdb-store/src/ts/auth.ts`), as it is without callbacks: the secret keys
and the mappings of accounts to keys are two tables of the database.

The table of keys does not take a key twice, also not for another account. The keystore therefore
answers as it should, except that a missing key is an error to it and an unknown account none, in
every state of a run exactly when a key that is there is added only for an account that has it. All
calls succeed as well exactly when no key is added while it is there.
-/

import MidenClient.Keystore.KeyContents
import MidenClient.Keystore.KeyIndexRuns
import MidenClient.Library.OrderedMap

namespace MidenClient

open Std (ExtTreeMap ExtTreeSet)
open KeyTexts

section Tables

variable [texts : KeyTexts]

/-- The tables `accountAuths`, whose secret keys stand under the names of their commitments, and
`accountKeyMappings`, of names of accounts and of commitments. -/
structure WebKeys where
  accountAuths : ExtTreeMap String String
  accountKeyMappings : ExtTreeSet (String ×ₗ String)

namespace WebKeys

def empty : WebKeys :=
  ⟨∅, ∅⟩

/-- A key that is there cannot be added. -/
def insertAccountAuth (keys : WebKeys) (pubKeyCommitmentHex secretKey : String) : Option WebKeys :=
  if pubKeyCommitmentHex ∈ keys.accountAuths then none
  else some { keys with
    accountAuths := keys.accountAuths.insert pubKeyCommitmentHex secretKey }

def insertAccountKeyMapping (keys : WebKeys) (accountIdHex pubKeyCommitmentHex : String) :
    WebKeys :=
  { keys with
    accountKeyMappings :=
      keys.accountKeyMappings.insert (toLex (accountIdHex, pubKeyCommitmentHex)) }

def removeAllMappingsForKey (keys : WebKeys) (pubKeyCommitmentHex : String) : WebKeys :=
  { keys with
    accountKeyMappings := keys.accountKeyMappings.filter fun mapping =>
      decide ((ofLex mapping).2 ≠ pubKeyCommitmentHex) }

def removeAccountAuth (keys : WebKeys) (pubKeyCommitmentHex : String) : WebKeys :=
  { keys with accountAuths := keys.accountAuths.erase pubKeyCommitmentHex }

def getKeyCommitmentsByAccountId (keys : WebKeys) (accountIdHex : String) : List String :=
  (keys.accountKeyMappings.toList.filter fun mapping =>
    decide ((ofLex mapping).1 = accountIdHex)).map fun mapping => (ofLex mapping).2

/-- The account of the first mapping of a key. -/
def getAccountIdByKeyCommitment (keys : WebKeys) (pubKeyCommitmentHex : String) : Option String :=
  (keys.accountKeyMappings.toList.find? fun mapping =>
    decide ((ofLex mapping).2 = pubKeyCommitmentHex)).map fun mapping => (ofLex mapping).1

end WebKeys

def webKeyStore : Keystore WebKeys where
  addKey keys key accountId :=
    match keys.insertAccountAuth (texts.wordToHex (toCommitment key)) (hexEncode (toBytes key)) with
    | none => (.error (.storageError "Failed to insert item into IndexedDB"), keys)
    | some added =>
      (.ok (), added.insertAccountKeyMapping (texts.accountToHex accountId)
        (texts.wordToHex (toCommitment key)))
  removeKey keys pubKey :=
    (.ok (), (keys.removeAllMappingsForKey (texts.wordToHex pubKey)).removeAccountAuth
      (texts.wordToHex pubKey))
  getKey keys pubKey :=
    match keys.accountAuths[texts.wordToHex pubKey]? with
    | none => .error (.storageError "Failed to get secret key from IndexedDB")
    | some secretKeyHex => do
      let bytes ← (hexDecode secretKeyHex).mapError fun error =>
        .decodingError ("error decoding secret key hex: " ++ error)
      let key ← (readFromBytes bytes).mapError fun error =>
        .decodingError ("error reading secret key: " ++ error)
      return some key
  getAccountKeyCommitments keys accountId :=
    .ok (ExtTreeSet.ofList ((keys.getKeyCommitmentsByAccountId
      (texts.accountToHex accountId)).filterMap fun hex => (wordFromHex hex).toOption))
  getAccountIdByKeyCommitment keys pubKey :=
    match keys.getAccountIdByKeyCommitment (texts.wordToHex pubKey) with
    | none => .ok none
    | some hex =>
      ((accountFromHex hex).mapError fun error =>
        .decodingError ("error decoding account id hex: " ++ error)).map some
  reopened := id

namespace WebKeys

/-- A key that is not there is an error, and an account without keys has none. -/
def missing : Keystore.Missing where
  key := .error (.storageError "Failed to get secret key from IndexedDB")
  commitments _ := .ok ∅

/-! ### Runs -/

def start : KeySession WebKeys :=
  ⟨empty, .empty, true⟩

/-- A key is added when it is not there, or for an account that has it. -/
def AddsNewOrHad (session : KeySession WebKeys) : KeystoreCall → Prop
  | .addKey key accountId =>
    session.contents.keys[toCommitment key]? = none ∨
      session.contents.keys[toCommitment key]? = some key ∧
        toCommitment key ∈ session.contents.keysOf accountId
  | .removeKey _ => True
  | .reopen => True

/-- A key is added when it is not there. -/
def AddsNew (session : KeySession WebKeys) : KeystoreCall → Prop
  | .addKey key _ => session.contents.keys[toCommitment key]? = none
  | .removeKey _ => True
  | .reopen => True

/-- The tables hold the contents. -/
structure Holds (session : KeySession WebKeys) : Prop where
  sound : session.contents.Sound
  accountAuths : ∀ pubKey, session.state.accountAuths[texts.wordToHex pubKey]? =
    (session.contents.keys[pubKey]?).map fun key => hexEncode (toBytes key)
  accountKeyMappings : ∀ mapping, mapping ∈ session.state.accountKeyMappings ↔
    ∃ accountId, ∃ pubKey ∈ session.contents.keysOf accountId,
      toLex (texts.accountToHex accountId, texts.wordToHex pubKey) = mapping

namespace Holds

variable {session : KeySession WebKeys}

theorem start : Holds WebKeys.start where
  sound := .empty
  accountAuths := by
    intro pubKey
    simp [WebKeys.start, WebKeys.empty, KeyContents.empty]
  accountKeyMappings := by
    intro mapping
    simp [WebKeys.start, WebKeys.empty, KeyContents.empty]

theorem getKey (holds : Holds session) (pubKey : PublicKeyCommitment) :
    webKeyStore.getKey session.state pubKey =
      (session.contents.keys[pubKey]?).elim missing.key fun key => .ok (some key) := by
  rw [webKeyStore]
  dsimp only
  rw [holds.accountAuths]
  cases session.contents.keys[pubKey]? with
  | none => rfl
  | some key =>
    rw [Option.map_some]
    dsimp only
    rw [hexDecode_hexEncode]
    show ((readFromBytes (toBytes key)).mapError _ >>= fun read => pure (some read)) = _
    rw [readFromBytes_toBytes]
    rfl

theorem mem_getKeyCommitmentsByAccountId (holds : Holds session) {accountId : AccountId}
    {name : String} :
    name ∈ session.state.getKeyCommitmentsByAccountId (texts.accountToHex accountId) ↔
      ∃ pubKey ∈ session.contents.keysOf accountId, texts.wordToHex pubKey = name := by
  simp only [getKeyCommitmentsByAccountId, List.mem_map, List.mem_filter, ExtTreeSet.mem_toList,
    holds.accountKeyMappings, decide_eq_true_eq]
  constructor
  · rintro ⟨mapping, ⟨⟨other, pubKey, member, rfl⟩, same⟩, rfl⟩
    rw [accountToHex_injective same] at member
    exact ⟨pubKey, member, rfl⟩
  · rintro ⟨pubKey, member, rfl⟩
    exact ⟨_, ⟨⟨accountId, pubKey, member, rfl⟩, rfl⟩, rfl⟩

/-- The commitments of an account are read back from its mappings. -/
theorem getAccountKeyCommitments (holds : Holds session) (accountId : AccountId) :
    webKeyStore.getAccountKeyCommitments session.state accountId =
      .ok (session.contents.keysOf accountId) := by
  refine congrArg Except.ok (ExtTreeSet.ext_mem fun pubKey => ?_)
  rw [ExtTreeSet.mem_ofList]
  simp only [List.contains_iff_mem, List.mem_filterMap, holds.mem_getKeyCommitmentsByAccountId]
  constructor
  · rintro ⟨name, ⟨other, member, rfl⟩, read⟩
    rw [wordFromHex_toHex] at read
    rwa [← Option.some_inj.mp read]
  · intro member
    exact ⟨_, ⟨pubKey, member, rfl⟩, by rw [wordFromHex_toHex]; rfl⟩

/-- The account of a commitment is one that has the key. -/
theorem getAccountIdByKeyCommitment (holds : Holds session) (pubKey : PublicKeyCommitment) :
    (∃ accountId, pubKey ∈ session.contents.keysOf accountId ∧
        webKeyStore.getAccountIdByKeyCommitment session.state pubKey = .ok (some accountId)) ∨
      (∀ accountId, pubKey ∉ session.contents.keysOf accountId) ∧
        webKeyStore.getAccountIdByKeyCommitment session.state pubKey = .ok none := by
  simp only [webKeyStore, WebKeys.getAccountIdByKeyCommitment]
  rcases search : session.state.accountKeyMappings.toList.find? fun mapping =>
      decide ((ofLex mapping).2 = texts.wordToHex pubKey) with _ | mapping
  · refine .inr ⟨fun accountId member => ?_, by rw [search]; rfl⟩
    have entry := (holds.accountKeyMappings _).mpr ⟨accountId, pubKey, member, rfl⟩
    have other := List.find?_eq_none.mp search _ (ExtTreeSet.mem_toList.mpr entry)
    exact other (decide_eq_true rfl)
  · have entry := ExtTreeSet.mem_toList.mp (List.mem_of_find?_eq_some search)
    obtain ⟨accountId, held, member, rfl⟩ := (holds.accountKeyMappings mapping).mp entry
    have chosen := List.find?_some search
    have same : texts.wordToHex held = texts.wordToHex pubKey := of_decide_eq_true chosen
    rw [wordToHex_injective same] at member
    refine .inl ⟨accountId, member, ?_⟩
    rw [search, Option.map_some]
    show ((accountFromHex (texts.accountToHex accountId)).mapError _).map some = _
    rw [accountFromHex_toHex]
    rfl

theorem answers (holds : Holds session) : webKeyStore.Answers missing Set.univ session where
  key := fun pubKey _ => holds.getKey pubKey
  commitments := by
    intro accountId
    rw [holds.getAccountKeyCommitments]
    split
    · rw [‹session.contents.keysOf accountId = ∅›]
      rfl
    · rfl
  keys := by
    intro accountId keys
    refine Keystore.getKeysForAccount_eq holds.sound (holds.getAccountKeyCommitments accountId) ?_
    intro pubKey _ key found
    exact (holds.getKey pubKey).trans (by rw [found]; rfl)
  account := holds.getAccountIdByKeyCommitment

theorem mem_accountAuths_iff (holds : Holds session) (pubKey : PublicKeyCommitment) :
    texts.wordToHex pubKey ∈ session.state.accountAuths ↔
      session.contents.keys[pubKey]? ≠ none := by
  rw [ExtTreeMap.mem_iff_isSome_getElem?, holds.accountAuths, Option.isSome_map,
    Option.isSome_iff_ne_none]

/-- A key is taken exactly when it is not there. -/
theorem addKey_isOk_iff (holds : Holds session) (key : AuthSecretKey) (accountId : AccountId) :
    (webKeyStore.addKey session.state key accountId).1.isOk = true ↔
      session.contents.keys[toCommitment key]? = none := by
  simp only [webKeyStore, insertAccountAuth, holds.mem_accountAuths_iff]
  by_cases there : session.contents.keys[toCommitment key]? = none
  · simp [there, Except.isOk, Except.toBool]
  · simp [there, Except.isOk, Except.toBool]

/-- A key that is there is refused, and the tables stay as they are. -/
theorem addKey_refused (holds : Holds session) {key : AuthSecretKey} (accountId : AccountId)
    (there : session.contents.keys[toCommitment key]? ≠ none) :
    (webKeyStore.addKey session.state key accountId).2 = session.state := by
  have taken := (holds.mem_accountAuths_iff (toCommitment key)).mpr there
  simp only [webKeyStore, insertAccountAuth, if_pos taken]

theorem addKey (holds : Holds session) {key : AuthSecretKey} {accountId : AccountId}
    (new : session.contents.keys[toCommitment key]? = none) :
    Holds (webKeyStore.perform session (.addKey key accountId)) := by
  have absent : texts.wordToHex (toCommitment key) ∉ session.state.accountAuths := fun there =>
    (holds.mem_accountAuths_iff _).mp there new
  have added : webKeyStore.addKey session.state key accountId = (.ok (),
      { accountAuths := session.state.accountAuths.insert (texts.wordToHex (toCommitment key))
          (hexEncode (toBytes key))
        accountKeyMappings := session.state.accountKeyMappings.insert
          (toLex (texts.accountToHex accountId, texts.wordToHex (toCommitment key))) }) := by
    simp only [webKeyStore, insertAccountAuth, if_neg absent, insertAccountKeyMapping]
  simp only [Keystore.perform, Keystore.answer, added]
  refine ⟨holds.sound.perform (.addKey key accountId), fun pubKey => ?_, fun mapping => ?_⟩
  · dsimp only
    rw [KeyContents.getElem?_keys_add, ExtTreeMap.getElem?_insert]
    by_cases same : toCommitment key = pubKey
    · simp [same]
    · have apart : texts.wordToHex (toCommitment key) ≠ texts.wordToHex pubKey := fun equal =>
        same (wordToHex_injective equal)
      simp [same, apart, holds.accountAuths]
  · dsimp only
    rw [ExtTreeSet.mem_insert, holds.accountKeyMappings, Std.LawfulEqCmp.compare_eq_iff_eq]
    simp only [KeyContents.mem_keysOf_add]
    constructor
    · rintro (rfl | ⟨other, pubKey, member, rfl⟩)
      · exact ⟨accountId, _, .inl ⟨rfl, rfl⟩, rfl⟩
      · exact ⟨other, pubKey, .inr member, rfl⟩
    · rintro ⟨other, pubKey, ⟨rfl, rfl⟩ | member, rfl⟩
      · exact .inl rfl
      · exact .inr ⟨other, pubKey, member, rfl⟩

/-- A key that the account has is refused, and should not change anything. -/
theorem addKey_again (holds : Holds session) {key : AuthSecretKey} {accountId : AccountId}
    (there : session.contents.keys[toCommitment key]? = some key)
    (had : toCommitment key ∈ session.contents.keysOf accountId) :
    Holds (webKeyStore.perform session (.addKey key accountId)) := by
  have kept := holds.addKey_refused accountId (there ▸ Option.some_ne_none key)
  simp only [Keystore.perform, Keystore.answer, kept]
  refine ⟨holds.sound.perform (.addKey key accountId), fun pubKey => ?_, fun mapping => ?_⟩
  · dsimp only
    rw [KeyContents.getElem?_keys_add, holds.accountAuths]
    by_cases same : toCommitment key = pubKey
    · rw [if_pos same, ← same, there]
    · rw [if_neg same]
  · dsimp only
    simp only [holds.accountKeyMappings, KeyContents.mem_keysOf_add]
    constructor
    · rintro ⟨other, pubKey, member, rfl⟩
      exact ⟨other, pubKey, .inr member, rfl⟩
    · rintro ⟨other, pubKey, ⟨rfl, rfl⟩ | member, rfl⟩
      · exact ⟨other, _, had, rfl⟩
      · exact ⟨other, pubKey, member, rfl⟩

theorem removeKey (holds : Holds session) (removed : PublicKeyCommitment) :
    Holds (webKeyStore.perform session (.removeKey removed)) := by
  simp only [Keystore.perform, Keystore.answer, webKeyStore, removeAllMappingsForKey,
    removeAccountAuth]
  refine ⟨holds.sound.perform (.removeKey removed), fun pubKey => ?_, fun mapping => ?_⟩
  · dsimp only
    rw [KeyContents.getElem?_keys_remove, ExtTreeMap.getElem?_erase]
    by_cases same : removed = pubKey
    · simp [same]
    · have apart : texts.wordToHex removed ≠ texts.wordToHex pubKey := fun equal =>
        same (wordToHex_injective equal)
      simp [same, apart, holds.accountAuths]
  · dsimp only
    simp only [ExtTreeSet.mem_filter, ExtTreeSet.get_eq, holds.accountKeyMappings, exists_prop,
      KeyContents.mem_keysOf_remove, decide_eq_true_eq]
    constructor
    · rintro ⟨⟨accountId, pubKey, member, rfl⟩, differs⟩
      exact ⟨accountId, pubKey, ⟨fun same => differs (congrArg _ same.symm), member⟩, rfl⟩
    · rintro ⟨accountId, pubKey, ⟨differs, member⟩, rfl⟩
      exact ⟨⟨accountId, pubKey, member, rfl⟩, fun same => differs (wordToHex_injective same).symm⟩

theorem perform (holds : Holds session) {call : KeystoreCall} (adds : AddsNewOrHad session call) :
    Holds (webKeyStore.perform session call) := by
  cases call with
  | addKey key accountId =>
    rcases adds with new | ⟨there, had⟩
    · exact holds.addKey new
    · exact holds.addKey_again there had
  | removeKey removed => exact holds.removeKey removed
  | reopen => exact ⟨holds.sound, holds.accountAuths, holds.accountKeyMappings⟩

/-- When a key is added, what is answered next is right only if the key is new, or the account has
it. -/
theorem newOrHad_of_answers (holds : Holds session) {call : KeystoreCall}
    (answers : webKeyStore.Answers missing Set.univ (webKeyStore.perform session call)) :
    AddsNewOrHad session call := by
  cases call with
  | addKey key accountId =>
    by_cases there : session.contents.keys[toCommitment key]? = none
    · exact .inl there
    · have kept := holds.addKey_refused accountId there
      have own : (webKeyStore.perform session (.addKey key accountId)).contents.keys[
          toCommitment key]? = some key := by
        rw [Keystore.perform, KeyContents.getElem?_keys_add, if_pos rfl]
      have member : toCommitment key ∈
          (webKeyStore.perform session (.addKey key accountId)).contents.keysOf accountId :=
        KeyContents.mem_keysOf_add.mpr (.inl ⟨rfl, rfl⟩)
      refine .inr ⟨?_, ?_⟩
      · have given := answers.key (toCommitment key) (Set.mem_univ _)
        rw [own, Keystore.perform, Keystore.answer, kept, holds.getKey] at given
        obtain ⟨held, found⟩ := Option.ne_none_iff_exists'.mp there
        rw [found] at given ⊢
        exact Except.ok.inj given
      · have given := answers.commitments accountId
        rw [if_neg (fun none_had => by
          rw [none_had] at member; exact ExtTreeSet.not_mem_empty member),
          Keystore.perform, Keystore.answer, kept, holds.getAccountKeyCommitments] at given
        rw [Except.ok.inj given]
        exact member
  | removeKey removed => exact trivial
  | reopen => exact trivial

end Holds

theorem AddsNew.newOrHad {session : KeySession WebKeys} {call : KeystoreCall}
    (new : AddsNew session call) : AddsNewOrHad session call := by
  cases call with
  | addKey key accountId => exact .inl new
  | removeKey removed => exact trivial
  | reopen => exact trivial

/-- A call succeeds exactly when it does not add a key that is there. -/
theorem Holds.answer_isOk_iff {session : KeySession WebKeys} (holds : Holds session)
    (call : KeystoreCall) :
    (webKeyStore.answer session.state call).1.isOk = true ↔ AddsNew session call := by
  cases call with
  | addKey key accountId => exact holds.addKey_isOk_iff key accountId
  | removeKey removed => exact iff_of_true rfl trivial
  | reopen => exact iff_of_true rfl trivial

/-- In every state of a run the keystore of the web client answers as if every call had taken
effect, but for its own answers about what is missing, if and only if a key that is there is added
only for accounts that have it. All calls have succeeded too, if and only if no key is added while
it is there. -/
theorem webKeyStore_answers_iff (calls : List KeystoreCall) :
    ((∀ reached, reached <+: calls → webKeyStore.Answers missing Set.univ
      (reached.foldl webKeyStore.perform start)) ↔
        Run.Conforms webKeyStore.perform AddsNewOrHad start calls) ∧
      ((∀ reached, reached <+: calls → webKeyStore.AnswersAs missing Set.univ
        (reached.foldl webKeyStore.perform start)) ↔
          Run.Conforms webKeyStore.perform AddsNew start calls) := by
  constructor
  · have answers : ∀ session : KeySession WebKeys, Holds session →
        webKeyStore.Answers missing Set.univ session := fun _ holds => holds.answers
    refine Run.forall_prefix_iff_conforms answers (fun session call holds => ?_)
      (fun session call holds adds => holds.perform adds) .start
    exact ⟨holds.newOrHad_of_answers, fun adds => (holds.perform adds).answers⟩
  · let invariant := fun session : KeySession WebKeys =>
      Holds session ∧ session.succeeded = true
    have answersAs : ∀ session, invariant session →
        webKeyStore.AnswersAs missing Set.univ session :=
      fun _ ⟨holds, succeeded⟩ => ⟨holds.answers, succeeded⟩
    have keeps : ∀ session call, invariant session → AddsNew session call →
        invariant (webKeyStore.perform session call) := by
      rintro session call ⟨holds, succeeded⟩ new
      refine ⟨holds.perform new.newOrHad, ?_⟩
      rw [Keystore.perform, succeeded, Bool.true_and]
      exact (holds.answer_isOk_iff call).mpr new
    refine Run.forall_prefix_iff_conforms answersAs (fun session call holds => ?_) keeps
      ⟨.start, rfl⟩
    refine ⟨fun answers => ?_, fun new => answersAs _ (keeps session call holds new)⟩
    have succeeded := answers.succeeded
    rw [Keystore.perform, Bool.and_eq_true] at succeeded
    exact (holds.1.answer_isOk_iff call).mp succeeded.2

/-- A key that is added for two accounts gets to the first of them only. -/
example (key : AuthSecretKey) (first second : AccountId) (differ : first ≠ second) :
    ¬Run.Conforms webKeyStore.perform AddsNewOrHad start
      [.addKey key first, .addKey key second] := by
  rintro ⟨-, adds, -⟩
  simp [AddsNewOrHad, Keystore.perform, KeyContents.perform, start, KeyContents.empty,
    differ.symm] at adds

end WebKeys

end Tables

namespace Sample

/-- A key is added twice for an account and removed, and then added for another one; the first
account gets another key. -/
def addedAgain : List KeystoreCall :=
  [.addKey (secretKey 1) 10, .addKey (secretKey 1) 10, .removeKey 1, .reopen,
    .addKey (secretKey 2) 10, .addKey (secretKey 1) 11]

theorem addedAgain_newOrHad :
    Run.Conforms webKeyStore.perform WebKeys.AddsNewOrHad WebKeys.start addedAgain := by
  refine ⟨.inl ?_, .inr ⟨?_, ?_⟩, trivial, trivial, .inl ?_, .inl ?_, trivial⟩ <;>
    simp [Keystore.perform, KeyContents.perform, WebKeys.start, KeyContents.empty]

theorem addedAgain_not_new :
    ¬Run.Conforms webKeyStore.perform WebKeys.AddsNew WebKeys.start addedAgain := by
  rintro ⟨-, new, -⟩
  simp [WebKeys.AddsNew, Keystore.perform, KeyContents.perform] at new

/-- The keystore answers rightly after every call, although the second one was refused. In the end
each account has its key. -/
theorem webKeyStore_answers_addedAgain :
    webKeyStore.getAccountKeyCommitments (addedAgain.foldl webKeyStore.perform WebKeys.start).state
        10 = .ok {2} ∧
      webKeyStore.getAccountKeyCommitments
        (addedAgain.foldl webKeyStore.perform WebKeys.start).state 11 = .ok {1} ∧
      webKeyStore.getKey (addedAgain.foldl webKeyStore.perform WebKeys.start).state 1 =
        .ok (some (secretKey 1)) ∧
      ¬∀ reached, reached <+: addedAgain → webKeyStore.AnswersAs WebKeys.missing Set.univ
        (reached.foldl webKeyStore.perform WebKeys.start) := by
  obtain ⟨answers_iff, succeeds_iff⟩ := WebKeys.webKeyStore_answers_iff addedAgain
  have answers := answers_iff.mpr addedAgain_newOrHad addedAgain List.prefix_rfl
  have first : (addedAgain.foldl webKeyStore.perform WebKeys.start).contents.keysOf 10 = {2} := by
    refine ExtTreeSet.ext_mem fun pubKey => ?_
    simp [addedAgain, Keystore.perform, KeyContents.mem_keysOf_add, KeyContents.mem_keysOf_remove,
      KeyContents.perform_reopen, WebKeys.start, KeyContents.empty]
  have second : (addedAgain.foldl webKeyStore.perform WebKeys.start).contents.keysOf 11 = {1} := by
    refine ExtTreeSet.ext_mem fun pubKey => ?_
    simp [addedAgain, Keystore.perform, KeyContents.mem_keysOf_add, KeyContents.mem_keysOf_remove,
      KeyContents.perform_reopen, WebKeys.start, KeyContents.empty]
  have stored : (addedAgain.foldl webKeyStore.perform WebKeys.start).contents.keys[
      (1 : PublicKeyCommitment)]? = some (secretKey 1) := by
    simp [addedAgain, Keystore.perform, KeyContents.perform]
  refine ⟨?_, ?_, ?_, mt succeeds_iff.mp addedAgain_not_new⟩
  · rw [answers.commitments, first, if_neg (by simp)]
  · rw [answers.commitments, second, if_neg (by simp)]
  · have given := answers.key 1 (Set.mem_univ 1)
    rwa [stored] at given

end Sample

end MidenClient
