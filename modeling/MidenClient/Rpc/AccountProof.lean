/-
This file models what the client gets to know about an account from the node
(`rust-client/src/rpc/domain/account.rs`): the details of a public account, which leave out
a vault or a storage map that is too large, and the proof they come with.

The constructors of the protocol library that put an account together from such parts are
taken as a class of functions.
-/

import MidenClient.Store.AccountReads

namespace MidenClient

open Std (ExtTreeMap)

inductive AccountStateAt where
  | block (blockNum : BlockNumber)
  | chainTip
  deriving DecidableEq, Repr

/-- The keys that are requested of some map slots. No keys stand for all entries. -/
abbrev AccountStorageRequirements := List (StorageSlotName × List StorageMapKey)

def AccountStorageRequirements.keysForSlot (requirements : AccountStorageRequirements)
    (slotName : StorageSlotName) : List StorageMapKey :=
  ((requirements.find? fun requirement => requirement.1 = slotName).map Prod.snd).getD []

inductive StorageMapEntries where
  | allEntries (entries : List (StorageMapKey × Word))
  | entriesWithProofs (proofs : List SmtProof)

/-- The entries of a storage map, or a flag that there are too many of them. -/
structure AccountStorageMapDetails where
  slotName : StorageSlotName
  tooManyEntries : Bool
  entries : StorageMapEntries

abbrev StorageSlotHeader := StorageSlotName × StorageSlotType × Word

structure AccountStorageDetails where
  header : List StorageSlotHeader
  mapDetails : List AccountStorageMapDetails

namespace AccountStorageDetails

/-- Find the matching details for a map, given its storage slot name. -/
def findMapDetails (details : AccountStorageDetails) (target : StorageSlotName) :
    Option AccountStorageMapDetails :=
  details.mapDetails.find? fun mapDetail => mapDetail.slotName = target

end AccountStorageDetails

/-- The assets of a vault, or a flag that there are too many of them. -/
structure AccountVaultDetails where
  tooManyAssets : Bool
  assets : List Asset

/-- The details of a public account. The code stands for itself as its commitment. -/
structure AccountDetails where
  header : AccountHeader
  storageDetails : AccountStorageDetails
  code : Word
  vaultDetails : AccountVaultDetails

/-- What the client uses of the constructors of the protocol library. -/
class AccountConstructors where
  /-- `StorageMap::with_entries`. -/
  storageMap : List (StorageMapKey × Word) → Except String (ExtTreeMap StorageMapKey Word)
  /-- `AssetVault::new`. -/
  assetVault : List Asset → Except String (ExtTreeMap AssetVaultKey Asset)
  /-- `AccountStorage::new`. -/
  accountStorage : List (StorageSlotName × StorageSlotContent) →
    Except String (ExtTreeMap StorageSlotName StorageSlotContent)
  /-- The checks of `Account::new`. -/
  checkAccount : Account → Except String Unit

/-! ### Account proofs -/

/-- The identifier of an account with the commitment of its state. -/
structure AccountWitness where
  id : AccountId
  stateCommitment : Word
  deriving DecidableEq, Repr

structure AccountProof where
  accountWitness : AccountWitness
  stateHeaders : Option AccountDetails

namespace AccountProof

variable [ProtocolLibrary]

/-- The details must be those of the account in the witness. -/
def new (accountWitness : AccountWitness) (accountDetails : Option AccountDetails) :
    Except String AccountProof :=
  match accountDetails with
  | none => .ok ⟨accountWitness, none⟩
  | some details =>
    if details.header.toCommitment ≠ accountWitness.stateCommitment then
      .error
        "the received account commitment doesn't match the received account header's commitment"
    else if details.header.id ≠ accountWitness.id then
      .error "the received account id doesn't match the received account header's id"
    else if details.code ≠ details.header.codeCommitment then
      .error
        "the received code commitment doesn't match the received account header's code commitment"
    else .ok ⟨accountWitness, some details⟩

def accountCommitment (proof : AccountProof) : Word :=
  proof.accountWitness.stateCommitment

theorem new_eq_ok {accountWitness : AccountWitness} {details : AccountDetails}
    {proof : AccountProof} (made : new accountWitness (some details) = .ok proof) :
    proof = ⟨accountWitness, some details⟩ ∧
      details.header.toCommitment = accountWitness.stateCommitment ∧
        details.header.id = accountWitness.id ∧ details.code = details.header.codeCommitment := by
  unfold new at made
  dsimp only at made
  split at made
  · cases made
  · rename_i commitment
    split at made
    · cases made
    · rename_i id
      split at made
      · cases made
      · rename_i code
        cases made
        exact ⟨rfl, not_not.mp commitment, not_not.mp id, not_not.mp code⟩

end AccountProof

end MidenClient
