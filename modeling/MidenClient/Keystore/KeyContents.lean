/-
This file models what a keystore promises (`rust-client/src/keystore/mod.rs`), whatever it keeps its
keys in: a secret key is found by the commitment of its public key, and an account has the keys
that were added for it and not removed since.

The contents are what the calls made so far should have led to. A session keeps them beside the
state of a keystore, so that what the keystore answers can be compared with them.
-/

import MidenClient.Library.Run
import MidenClient.Keystore.KeyIndexRuns

namespace MidenClient

open Std (ExtTreeMap ExtTreeSet)

/-- The secret keys, and the texts by which they, their commitments and accounts are kept. Each of
these can be read back. -/
class KeyTexts extends KeyFormats where
  AuthSecretKey : Type
  toCommitment : AuthSecretKey → PublicKeyCommitment
  toBytes : AuthSecretKey → List UInt8
  readFromBytes : List UInt8 → Except String AuthSecretKey
  readFromBytes_toBytes : ∀ key, readFromBytes (toBytes key) = .ok key
  hexEncode : List UInt8 → String
  hexDecode : String → Except String (List UInt8)
  hexDecode_hexEncode : ∀ bytes, hexDecode (hexEncode bytes) = .ok bytes
  accountFromHex : String → Except String AccountId
  accountFromHex_toHex : ∀ accountId, accountFromHex (accountToHex accountId) = .ok accountId
  wordFromHex : String → Except String Word
  wordFromHex_toHex : ∀ word, wordFromHex (wordToHex word) = .ok word
  roundTrip : toKeyFormats.RoundTrip

open KeyTexts

section Contents

variable [texts : KeyTexts]

theorem accountToHex_injective : Function.Injective texts.accountToHex := by
  intro first second same
  have read := accountFromHex_toHex first
  rw [same, accountFromHex_toHex] at read
  exact (Except.ok.inj read).symm

theorem wordToHex_injective : Function.Injective texts.wordToHex := by
  intro first second same
  have read := wordFromHex_toHex first
  rw [same, wordFromHex_toHex] at read
  exact (Except.ok.inj read).symm

/-! ### The trait -/

/-- `Keystore`, on a state of its own. The last field is what a new instance starts from. -/
structure Keystore (State : Type) where
  addKey : State → AuthSecretKey → AccountId → Except KeyStoreError Unit × State
  removeKey : State → PublicKeyCommitment → Except KeyStoreError Unit × State
  getKey : State → PublicKeyCommitment → Except KeyStoreError (Option AuthSecretKey)
  getAccountKeyCommitments : State → AccountId →
    Except KeyStoreError (ExtTreeSet PublicKeyCommitment)
  getAccountIdByKeyCommitment : State → PublicKeyCommitment →
    Except KeyStoreError (Option AccountId)
  reopened : State → State

variable {State : Type}

/-- The keys of an account, as far as they are found. -/
def Keystore.getKeysForAccount (keystore : Keystore State) (state : State)
    (accountId : AccountId) : Except KeyStoreError (List AuthSecretKey) := do
  let commitments ← keystore.getAccountKeyCommitments state accountId
  let keys ← commitments.toList.mapM (keystore.getKey state)
  return keys.reduceOption

inductive KeystoreCall where
  | addKey (key : AuthSecretKey) (accountId : AccountId)
  | removeKey (pubKey : PublicKeyCommitment)
  | reopen

/-- The commitment of the key that a call is about. -/
def KeystoreCall.commitment? : KeystoreCall → Option PublicKeyCommitment
  | .addKey key _ => some (toCommitment key)
  | .removeKey pubKey => some pubKey
  | .reopen => none

/-! ### Contents -/

structure KeyContents where
  keys : ExtTreeMap PublicKeyCommitment AuthSecretKey
  keysOf : AccountId → ExtTreeSet PublicKeyCommitment

namespace KeyContents

def empty : KeyContents :=
  ⟨∅, fun _ => ∅⟩

def perform (contents : KeyContents) : KeystoreCall → KeyContents
  | .addKey key accountId =>
    { keys := contents.keys.insert (toCommitment key) key
      keysOf := Function.update contents.keysOf accountId
        ((contents.keysOf accountId).insert (toCommitment key)) }
  | .removeKey pubKey =>
    { keys := contents.keys.erase pubKey
      keysOf := fun accountId => (contents.keysOf accountId).erase pubKey }
  | .reopen => contents

/-- Keys stand under their own commitments, and the keys of accounts are there. -/
structure Sound (contents : KeyContents) : Prop where
  own : ∀ pubKey key, contents.keys[pubKey]? = some key → toCommitment key = pubKey
  present : ∀ accountId, ∀ pubKey ∈ contents.keysOf accountId,
    ∃ key, contents.keys[pubKey]? = some key

theorem getElem?_keys_add (contents : KeyContents) (key : AuthSecretKey) (accountId : AccountId)
    (pubKey : PublicKeyCommitment) :
    (contents.perform (.addKey key accountId)).keys[pubKey]? =
      if toCommitment key = pubKey then some key else contents.keys[pubKey]? := by
  simp [perform, ExtTreeMap.getElem?_insert]

theorem getElem?_keys_remove (contents : KeyContents) (removed pubKey : PublicKeyCommitment) :
    (contents.perform (.removeKey removed)).keys[pubKey]? =
      if removed = pubKey then none else contents.keys[pubKey]? := by
  simp [perform, ExtTreeMap.getElem?_erase]

theorem mem_keysOf_add {contents : KeyContents} {key : AuthSecretKey}
    {accountId other : AccountId} {pubKey : PublicKeyCommitment} :
    pubKey ∈ (contents.perform (.addKey key accountId)).keysOf other ↔
      other = accountId ∧ toCommitment key = pubKey ∨ pubKey ∈ contents.keysOf other := by
  rw [perform]
  by_cases same : other = accountId
  · subst same
    simp [ExtTreeSet.mem_insert]
  · simp [same]

theorem mem_keysOf_remove {contents : KeyContents} {accountId : AccountId}
    {removed pubKey : PublicKeyCommitment} :
    pubKey ∈ (contents.perform (.removeKey removed)).keysOf accountId ↔
      removed ≠ pubKey ∧ pubKey ∈ contents.keysOf accountId := by
  simp [perform, ExtTreeSet.mem_erase]

theorem perform_reopen (contents : KeyContents) : contents.perform .reopen = contents :=
  rfl

theorem Sound.empty : KeyContents.empty.Sound where
  own := by
    intro pubKey key found
    simp [KeyContents.empty] at found
  present := by
    intro accountId pubKey member
    exact absurd member ExtTreeSet.not_mem_empty

theorem Sound.perform {contents : KeyContents} (sound : contents.Sound) (call : KeystoreCall) :
    (contents.perform call).Sound := by
  cases call with
  | addKey key accountId =>
    refine ⟨fun pubKey stored found => ?_, fun other pubKey member => ?_⟩
    · rw [getElem?_keys_add] at found
      split at found
      · rename_i same
        rw [← Option.some_inj.mp found]
        exact same
      · exact sound.own pubKey stored found
    · rw [getElem?_keys_add]
      split
      · exact ⟨key, rfl⟩
      · rename_i differs
        rcases mem_keysOf_add.mp member with ⟨-, same⟩ | before
        · exact absurd same differs
        · exact sound.present other pubKey before
  | removeKey removed =>
    refine ⟨fun pubKey stored found => ?_, fun other pubKey member => ?_⟩
    · rw [getElem?_keys_remove] at found
      split at found
      · cases found
      · exact sound.own pubKey stored found
    · obtain ⟨differs, before⟩ := mem_keysOf_remove.mp member
      rw [getElem?_keys_remove, if_neg differs]
      exact sound.present other pubKey before
  | reopen => exact sound

end KeyContents

/-! ### Sessions -/

/-- A keystore that is used, what it should contain, and whether all calls have succeeded. -/
structure KeySession (State : Type) where
  state : State
  contents : KeyContents
  succeeded : Bool

namespace Keystore

variable (keystore : Keystore State)

/-- What a call returns, and the state it leaves. -/
def answer (state : State) : KeystoreCall → Except KeyStoreError Unit × State
  | .addKey key accountId => keystore.addKey state key accountId
  | .removeKey pubKey => keystore.removeKey state pubKey
  | .reopen => (.ok (), keystore.reopened state)

def perform (session : KeySession State) (call : KeystoreCall) : KeySession State :=
  { state := (keystore.answer session.state call).2
    contents := session.contents.perform call
    succeeded := session.succeeded && (keystore.answer session.state call).1.isOk }

/-- What a keystore answers about a key that is not there, and about an account without keys. -/
structure Missing where
  key : Except KeyStoreError (Option AuthSecretKey)
  commitments : AccountId → Except KeyStoreError (ExtTreeSet PublicKeyCommitment)

/-- A keystore answers what its contents say: about the accounts, and about the keys of a set. -/
structure Answers (missing : Missing) (about : Set PublicKeyCommitment)
    (session : KeySession State) : Prop where
  key : ∀ pubKey ∈ about, keystore.getKey session.state pubKey =
    (session.contents.keys[pubKey]?).elim missing.key fun key => .ok (some key)
  commitments : ∀ accountId, keystore.getAccountKeyCommitments session.state accountId =
    if session.contents.keysOf accountId = ∅ then missing.commitments accountId
    else .ok (session.contents.keysOf accountId)
  keys : ∀ accountId, session.contents.keysOf accountId ≠ ∅ →
    keystore.getKeysForAccount session.state accountId =
      .ok ((session.contents.keysOf accountId).toList.filterMap (session.contents.keys[·]?))
  account : ∀ pubKey,
    (∃ accountId, pubKey ∈ session.contents.keysOf accountId ∧
        keystore.getAccountIdByKeyCommitment session.state pubKey = .ok (some accountId)) ∨
      (∀ accountId, pubKey ∉ session.contents.keysOf accountId) ∧
        keystore.getAccountIdByKeyCommitment session.state pubKey = .ok none

/-- All calls have succeeded, and a keystore answers what its contents say. -/
structure AnswersAs (missing : Missing) (about : Set PublicKeyCommitment)
    (session : KeySession State) : Prop extends keystore.Answers missing about session where
  succeeded : session.succeeded = true

variable {keystore}

/-- The keys of an account are found when each key is. -/
theorem getKeysForAccount_eq {state : State} {contents : KeyContents} (sound : contents.Sound)
    {accountId : AccountId}
    (commitments : keystore.getAccountKeyCommitments state accountId =
      .ok (contents.keysOf accountId))
    (found : ∀ pubKey ∈ contents.keysOf accountId, ∀ key, contents.keys[pubKey]? = some key →
      keystore.getKey state pubKey = .ok (some key)) :
    keystore.getKeysForAccount state accountId =
      .ok ((contents.keysOf accountId).toList.filterMap (contents.keys[·]?)) := by
  have each : ∀ listed : List PublicKeyCommitment,
      (∀ pubKey ∈ listed, pubKey ∈ contents.keysOf accountId) →
        listed.mapM (keystore.getKey state) =
          .ok (listed.map (contents.keys[·]?)) := by
    intro listed inside
    induction listed with
    | nil => rfl
    | cons pubKey rest inductionHypothesis =>
      have member := inside pubKey (.head _)
      obtain ⟨key, stored⟩ := sound.present accountId pubKey member
      rw [List.mapM_cons, found pubKey member key stored,
        inductionHypothesis fun other later => inside other (.tail _ later), List.map_cons, stored]
      rfl
  rw [getKeysForAccount, commitments]
  show (do
    let keys ← (contents.keysOf accountId).toList.mapM (keystore.getKey state)
    return keys.reduceOption) = _
  rw [each _ fun pubKey member => ExtTreeSet.mem_toList.mp member]
  show Except.ok _ = _
  rw [List.reduceOption, List.filterMap_map]
  rfl

end Keystore

end Contents

namespace Sample

/-- Texts that can be read back, of keys that are numbers. -/
noncomputable scoped instance keyTexts : KeyTexts where
  toKeyFormats := { formats with accountToHex := Nat.repr, wordToHex := Nat.repr }
  AuthSecretKey := ℕ
  toCommitment key := key
  toBytes key := List.replicate key 0
  readFromBytes bytes := .ok bytes.length
  readFromBytes_toBytes key := by rw [List.length_replicate]
  hexEncode bytes := String.ofList (bytes.map fun byte => Char.ofNat byte.toNat)
  hexDecode text := .ok (text.toList.map fun letter => UInt8.ofNat letter.toNat)
  hexDecode_hexEncode bytes := by
    have same : ∀ byte : UInt8, UInt8.ofNat (Char.ofNat byte.toNat).toNat = byte := by
      decide +kernel
    have whole : ((fun letter : Char => UInt8.ofNat letter.toNat) ∘ fun byte : UInt8 =>
        Char.ofNat byte.toNat) = id := funext same
    rw [String.toList_ofList, List.map_map, whole, List.map_id]
  accountFromHex text := .ok (Nat.ofDigitChars 10 text.toList 0)
  accountFromHex_toHex accountId := by
    show Except.ok (Nat.ofDigitChars 10 accountId.repr.toList 0) = _
    rw [Nat.toList_repr, Nat.ofDigitChars_ten_toDigits]
  wordFromHex text := .ok (Nat.ofDigitChars 10 text.toList 0)
  wordFromHex_toHex word := by
    show Except.ok (Nat.ofDigitChars 10 word.repr.toList 0) = _
    rw [Nat.toList_repr, Nat.ofDigitChars_ten_toDigits]
  roundTrip index := formats_roundTrip index

def secretKey (number : ℕ) : AuthSecretKey :=
  number

@[simp]
theorem toCommitment_secretKey (number : ℕ) : toCommitment (secretKey number) = number :=
  rfl

end Sample

end MidenClient
