/-
This file models the account data the stores keep: headers, assets, storage slots and
the deltas a transaction applies to them.

Hash functions, Merkle roots and the bound on asset amounts belong to the protocol
library. The stores only compare their results, so they are taken as a class of
functions, and what a result needs of them is a hypothesis of that result.
-/

import MidenClient.Protocol

namespace MidenClient

open Std (ExtTreeMap)

/-- The parts of an account state that its commitment is computed from. -/
structure AccountHeader where
  id : AccountId
  nonce : ℕ
  vaultRoot : Word
  storageCommitment : Word
  codeCommitment : Word
  deriving DecidableEq, Repr

/-- The name of a storage slot. -/
abbrev StorageSlotName := ℕ

abbrev StorageMapKey := Word

inductive StorageSlotType where
  | value
  | map
  deriving DecidableEq, Repr

/-- Identifies an asset in a vault: by its faucet, or by the asset itself when it is not
fungible. -/
inductive AssetVaultKey where
  | fungible (faucetId : AccountId)
  | nonFungible (asset : Word)
  deriving DecidableEq, Repr

namespace AssetVaultKey

/-- The position of a key in the order of vault keys. -/
def rank : AssetVaultKey → ℕ ×ₗ ℕ
  | .fungible faucetId => toLex (0, faucetId)
  | .nonFungible asset => toLex (1, asset)

theorem rank_injective : Function.Injective rank := by
  intro first second same
  cases first <;> cases second <;> cases Prod.mk.inj (toLex_inj.mp same) <;> simp_all

instance : LinearOrder AssetVaultKey :=
  LinearOrder.lift' rank rank_injective

instance : Std.LawfulEqOrd AssetVaultKey where
  compare_self := compare_eq_iff_eq.mpr rfl
  eq_of_compare := compare_eq_iff_eq.mp

/-- The order as the tree maps ask for it. -/
instance transCmp : Std.TransCmp (compare : AssetVaultKey → AssetVaultKey → Ordering) :=
  inferInstance

end AssetVaultKey

/-- A fungible asset: an amount of one faucet's token. -/
structure FungibleAsset where
  faucetId : AccountId
  amount : ℕ
  deriving DecidableEq, Repr

inductive Asset where
  | fungible (asset : FungibleAsset)
  | nonFungible (asset : Word)
  deriving DecidableEq, Repr

def FungibleAsset.vaultKey (asset : FungibleAsset) : AssetVaultKey :=
  .fungible asset.faucetId

def Asset.vaultKey : Asset → AssetVaultKey
  | .fungible asset => asset.vaultKey
  | .nonFungible asset => .nonFungible asset

/-- What the client uses of the protocol library. -/
class ProtocolLibrary where
  /-- `AccountHeader::to_commitment`. -/
  accountCommitment : AccountHeader → Word
  /-- The commitment to the storage slots of an account. -/
  storageCommitment : List (StorageSlotName × StorageSlotType × Word) → Word
  /-- Whether the account state is kept off chain. -/
  isPrivate : AccountId → Bool
  /-- `FungibleAsset::MAX_AMOUNT`. -/
  maxFungibleAmount : ℕ
  /-- The root of a sparse Merkle tree without entries. -/
  emptySmtRoot : Word
  /-- The root of a tree, given by its root, after some leaves are set. -/
  smtBatchInsert : Word → List (Word × Word) → Word
  /-- The leaf key of an asset. -/
  vaultKeyWord : AssetVaultKey → Word
  /-- The leaf value of an asset. -/
  assetValueWord : Asset → Word
  /-- The leaf key of a storage map entry. -/
  mapKeyHash : StorageMapKey → Word

section Commitments

variable [ProtocolLibrary]

/-- The commitment of an account state. -/
def AccountHeader.toCommitment (header : AccountHeader) : Word :=
  ProtocolLibrary.accountCommitment header

/-- Account commitments are collision free. -/
def CollisionFree : Prop :=
  Function.Injective AccountHeader.toCommitment

end Commitments

/-! ### Deltas -/

inductive NonFungibleDeltaAction where
  | add
  | remove
  deriving DecidableEq, Repr

/-- The change of one storage slot: a new value, or new values of some map entries. -/
inductive StorageSlotDelta where
  | value (word : Word)
  | map (entries : ExtTreeMap StorageMapKey Word)

/-- The change of an account by a transaction. -/
structure AccountDelta where
  storage : ExtTreeMap StorageSlotName StorageSlotDelta
  fungible : ExtTreeMap AccountId ℤ
  nonFungible : ExtTreeMap Word NonFungibleDeltaAction

namespace AccountDelta

def empty : AccountDelta :=
  ⟨∅, ∅, ∅⟩

end AccountDelta

/-! ### Whole accounts -/

/-- The content of a storage slot. -/
inductive StorageSlotContent where
  | value (word : Word)
  | map (entries : ExtTreeMap StorageMapKey Word)

section Roots

variable [ProtocolLibrary]

/-- The root of a storage map. -/
def storageMapRoot (entries : ExtTreeMap StorageMapKey Word) : Word :=
  ProtocolLibrary.smtBatchInsert ProtocolLibrary.emptySmtRoot
    (entries.toList.map fun entry => (ProtocolLibrary.mapKeyHash entry.1, entry.2))

namespace StorageSlotContent

def slotType : StorageSlotContent → StorageSlotType
  | .value _ => .value
  | .map _ => .map

/-- The top-level value of a slot: for maps, the root. -/
def topValue : StorageSlotContent → Word
  | .value word => word
  | .map entries => storageMapRoot entries

end StorageSlotContent

/-- A complete account state. -/
structure Account where
  id : AccountId
  vault : ExtTreeMap AssetVaultKey Asset
  storage : ExtTreeMap StorageSlotName StorageSlotContent
  codeCommitment : Word
  nonce : ℕ
  seed : Option Word

namespace Account

/-- The root of the asset vault. -/
def vaultRoot (account : Account) : Word :=
  ProtocolLibrary.smtBatchInsert ProtocolLibrary.emptySmtRoot
    (account.vault.toList.map fun entry =>
      (ProtocolLibrary.vaultKeyWord entry.1, ProtocolLibrary.assetValueWord entry.2))

def toHeader (account : Account) : AccountHeader where
  id := account.id
  nonce := account.nonce
  vaultRoot := account.vaultRoot
  storageCommitment := ProtocolLibrary.storageCommitment
    (account.storage.toList.map fun slot => (slot.1, slot.2.slotType, slot.2.topValue))
  codeCommitment := account.codeCommitment

/-- The storage slots with their top-level values. -/
def storageSlots (account : Account) : List (StorageSlotName × Word × StorageSlotType) :=
  account.storage.toList.map fun slot => (slot.1, slot.2.topValue, slot.2.slotType)

/-- The entries of all storage maps. -/
def mapEntries (account : Account) : List ((StorageSlotName ×ₗ StorageMapKey) × Word) :=
  account.storage.toList.flatMap fun slot => match slot.2 with
    | .value _ => []
    | .map entries => entries.toList.map fun entry => (toLex (slot.1, entry.1), entry.2)

/-- The assets by their vault keys. -/
def vaultAssets (account : Account) : List (AssetVaultKey × Asset) :=
  account.vault.toList.map fun entry => (entry.2.vaultKey, entry.2)

end Account

end Roots

/-! ### A library to compute with -/

namespace Sample

/-- Commitments that pair up what they commit to, and roots that collect the leaves set. -/
scoped instance library : ProtocolLibrary where
  accountCommitment header := Nat.pair header.id (Nat.pair header.nonce
    (Nat.pair header.vaultRoot (Nat.pair header.storageCommitment header.codeCommitment)))
  storageCommitment slots := slots.foldl (fun commitment slot =>
    2 * commitment + slot.1 + slot.2.2 + 1) 0
  isPrivate id := id % 2 = 1
  maxFungibleAmount := 2 ^ 63 - 2 ^ 31
  emptySmtRoot := 0
  smtBatchInsert root leaves := leaves.foldl (fun root leaf => 2 * root + leaf.1 + leaf.2 + 1) root
  vaultKeyWord
    | .fungible faucetId => 2 * faucetId
    | .nonFungible asset => 2 * asset + 1
  assetValueWord
    | .fungible asset => asset.amount
    | .nonFungible asset => asset
  mapKeyHash key := key

theorem collisionFree : CollisionFree := by
  intro first second same
  obtain ⟨id, same⟩ := Nat.pair_eq_pair.mp same
  obtain ⟨nonce, same⟩ := Nat.pair_eq_pair.mp same
  obtain ⟨vaultRoot, same⟩ := Nat.pair_eq_pair.mp same
  obtain ⟨storageCommitment, codeCommitment⟩ := Nat.pair_eq_pair.mp same
  cases first
  cases second
  simp_all

end Sample

end MidenClient
