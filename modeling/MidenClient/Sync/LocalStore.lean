/-
This file puts the note tables and the chain tables of a store together, and models the
operations of the client that touch both (`rust-client/src/sync/mod.rs`,
`rust-client/src/sync/block_header.rs` and `upsert_input_notes` of the stores).

The two stores differ in how they write headers, so the kind of the store is a parameter.
-/

import MidenClient.Library.Run
import MidenClient.Store.ChainData

namespace MidenClient

open Std (ExtTreeMap)
open Fallible

/-- The tables of a store, without those of the accounts. -/
structure LocalStore where
  client : ClientStore
  chain : ChainData

/-- What a sync of the client takes from outside the tables: the settings, the tracked
accounts, the node, what the screener finds consumable, whether the account part of the update
succeeds and the update is written, and whether the tables are pruned after it. -/
structure ChainSyncEnvironment (Delta : Type) where
  txDiscardDelta : Option ℕ
  syncNullifiers : Bool
  accounts : List AccountId
  node : SyncNode Delta
  canConsume : Note → Except ClientError Bool
  accountUpdates : Except ClientError Unit
  pruned : Except ClientError Unit

namespace LocalStore

def empty : LocalStore :=
  ⟨.empty, .empty⟩

/-- Fetches and stores the genesis header, when a session of the client starts. -/
def ensureGenesisInPlace (kind : StoreKind) (store : LocalStore) (genesis : BlockHeader) :
    LocalStore :=
  { store with chain := kind.insertBlockHeader store.chain genesis [] false }

def pruneIrrelevantBlocks (kind : StoreKind) (store : LocalStore) : LocalStore :=
  { store with chain := kind.pruneIrrelevantBlocks store.client.syncHeight store.chain }

section

variable [NoteLibrary]

def upsertInputNote (kind : StoreKind) (store : LocalStore) (note : InputNoteRecord) :
    LocalStore :=
  ⟨store.client.upsertInputNote note, kind.flagNoteBlock store.chain note⟩

def upsertInputNotes (kind : StoreKind) (store : LocalStore) (notes : List InputNoteRecord) :
    LocalStore :=
  notes.foldl (upsertInputNote kind) store

end

variable [ChainLibrary] {Delta : Type}

/-- Runs an operation on the chain tables. -/
def onChain {α : Type} (operation : EStateM ClientError ChainData α) :
    EStateM ClientError LocalStore α := fun store =>
  match operation store.chain with
  | .ok value chain => .ok value { store with chain := chain }
  | .error reason chain => .error reason { store with chain := chain }

/-- Loads the partial MMR, and stores a block with its authentication data. -/
def authenticateBlock (Mmr : Type) [MmrLibrary Mmr Delta] (kind : StoreKind)
    (writes : ChainData.BlockWrites) (answer : ChainData.BlockProofAnswer)
    (blockNum : BlockNumber) : EStateM ClientError LocalStore BlockHeader := do
  let store ← get
  let mmr : Mmr ← fromExcept (store.chain.getCurrentPartialMmr store.client.syncHeight)
  onChain (ChainData.getAndStoreAuthenticatedBlock kind writes answer blockNum mmr)

variable [NoteLibrary]

/-- The component a client syncs with. -/
def stateSync (store : LocalStore) (environment : ChainSyncEnvironment Delta) : StateSync where
  noteScreener := store.client.onNoteReceived environment.canConsume
  txDiscardDelta := environment.txDiscardDelta
  syncNullifiers := environment.syncNullifiers

/-- The updates a sync computes. The partial MMR it worked on is dropped. -/
def syncUpdates (Mmr : Type) [MmrLibrary Mmr Delta] (store : LocalStore)
    (environment : ChainSyncEnvironment Delta) :
    Except ClientError (StateSyncUpdate × BlockUpdates) := do
  let mmr : Mmr ← store.chain.getCurrentPartialMmr store.client.syncHeight
  match (store.stateSync environment).syncChain environment.node
      (store.client.buildSyncInput environment.accounts) store.client.uniqueNoteTags mmr with
  | .ok updates _ => return updates
  | .error reason _ => throw reason

/-- Writes a sync update. -/
def applyStateSync (kind : StoreKind) (store : LocalStore)
    (updates : StateSyncUpdate × BlockUpdates) : LocalStore :=
  ⟨store.client.applyStateSync updates.1, kind.applyBlockUpdates store.chain updates.2⟩

/-- Syncs the client's state with the node, applies the update to the store and then prunes it. An
update that is written stays when the pruning fails. -/
def syncState (Mmr : Type) [MmrLibrary Mmr Delta] (kind : StoreKind)
    (environment : ChainSyncEnvironment Delta) : EStateM ClientError LocalStore Unit := do
  let store ← get
  let updates ← fromExcept (store.syncUpdates Mmr environment)
  fromExcept environment.accountUpdates
  modify fun store => store.applyStateSync kind updates
  fromExcept environment.pruned
  modify fun store => store.pruneIrrelevantBlocks kind

end LocalStore

end MidenClient
