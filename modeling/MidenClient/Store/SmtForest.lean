/-
This file models the forest of account Merkle trees
(`rust-client/src/store/smt_forest.rs`).

The forest of the protocol library keeps a tree for every root it was given, until
that root is popped. The wrapper registers the roots of every account, counts how
often each root is referenced, and keeps the replaced root lists of an account on a
stack until the transactions that replaced them are committed or discarded.

The stack is a list with its top first.
-/

import MidenClient.Account

namespace MidenClient

open Std (ExtTreeMap)

/-- The errors of the account operations of a store. -/
inductive StoreError where
  /-- The check or the foreign key of a table is violated. -/
  | databaseError
  | accountDataNotFound (id : AccountId)
  | fungibleAssetAmountTooBig (amount : ℕ)
  | fungibleAssetAmountNotSufficient (minuend subtrahend : ℕ)
  | fungibleAssetInconsistentFaucetIds (id other : AccountId)
  | rootNotInStore (root : Word)
  | conflictingRoots (expectedRoot actualRoot : Word)
  /-- A panic while the forest is locked for writing. -/
  | stagedChangesPending (id : AccountId)
  /-- The panic on a lock that an earlier panic poisoned. -/
  | lockPoisoned
  deriving DecidableEq, Repr

/-- The panics among the errors. -/
def StoreError.isPanic : StoreError → Bool
  | .stagedChangesPending _ => true
  | .lockPoisoned => true
  | _ => false

/-- The forest of the protocol library: the roots that were inserted and not popped. -/
structure SmtForest where
  roots : Finset Word

/-- Thin wrapper around the forest for account vault and storage proofs and updates. -/
structure AccountSmtForest where
  forest : SmtForest
  /-- Current roots per account (vault root and storage map roots). -/
  accountRoots : ExtTreeMap AccountId (List Word)
  /-- Stack of old roots saved during staging, awaiting commit or undo. -/
  pendingOldRoots : ExtTreeMap AccountId (List (List Word))
  /-- Reference count for each root across all accounts. -/
  rootRefcounts : ExtTreeMap Word ℕ

namespace AccountSmtForest

def new : AccountSmtForest :=
  ⟨⟨∅⟩, ∅, ∅, ∅⟩

/-! ### Reference counts -/

def incrementRefcounts (refcounts : ExtTreeMap Word ℕ) (roots : List Word) :
    ExtTreeMap Word ℕ :=
  roots.foldl (fun counts root => counts.alter root fun count => some (count.getD 0 + 1)) refcounts

/-- Decrements the count of one root, and says whether it reached zero. -/
def decrementRefcount (refcounts : ExtTreeMap Word ℕ) (root : Word) : ExtTreeMap Word ℕ × Bool :=
  match refcounts[root]? with
  | none => (refcounts, false)
  | some count =>
    if count - 1 = 0 then (refcounts.erase root, true)
    else (refcounts.insert root (count - 1), false)

/-- Decrements refcounts for the given roots, returning those that reached zero. -/
def decrementRefcounts (refcounts : ExtTreeMap Word ℕ) (roots : List Word) :
    ExtTreeMap Word ℕ × List Word :=
  roots.foldl (fun state root =>
    let (counts, popped) := decrementRefcount state.1 root
    (counts, if popped then state.2 ++ [root] else state.2)) (refcounts, [])

/-- Pops roots that are no longer referenced by any account. -/
def safePopSmts (forest : AccountSmtForest) (roots : List Word) : AccountSmtForest :=
  { forest with forest := ⟨forest.forest.roots \ roots.toFinset⟩ }

/-- Releases one root list: decrements its counts and pops what reached zero. -/
def release (forest : AccountSmtForest) (roots : List Word) : AccountSmtForest :=
  let (counts, toPop) := decrementRefcounts forest.rootRefcounts roots
  { forest with rootRefcounts := counts }.safePopSmts toPop

/-! ### Tracking roots -/

def getRoots (forest : AccountSmtForest) (id : AccountId) : Option (List Word) :=
  forest.accountRoots[id]?

/-- Stages new roots for an account, saving old roots for potential rollback. -/
def stageRoots (forest : AccountSmtForest) (id : AccountId) (newRoots : List Word) :
    AccountSmtForest :=
  { forest with
    rootRefcounts := incrementRefcounts forest.rootRefcounts newRoots
    accountRoots := forest.accountRoots.insert id newRoots
    pendingOldRoots := match forest.accountRoots[id]? with
      | some oldRoots =>
        forest.pendingOldRoots.alter id fun stack => some (oldRoots :: stack.getD [])
      | none => forest.pendingOldRoots }

/-- Commits staged changes: releases all pending old roots for the account. -/
def commitRoots (forest : AccountSmtForest) (id : AccountId) : AccountSmtForest :=
  match forest.pendingOldRoots[id]? with
  | some stack =>
    stack.reverse.foldl release
      { forest with pendingOldRoots := forest.pendingOldRoots.erase id }
  | none => forest

/-- Discards the most recent staged change: restores old roots and releases new roots. Without
old roots the current roots are simply removed. -/
def discardRoots (forest : AccountSmtForest) (id : AccountId) : AccountSmtForest :=
  let newRoots := forest.accountRoots[id]?
  let restored : AccountSmtForest := match forest.pendingOldRoots[id]? with
    | some (oldRoots :: rest) =>
      { forest with
        accountRoots := forest.accountRoots.insert id oldRoots
        pendingOldRoots := forest.pendingOldRoots.insert id rest }
    | _ => { forest with accountRoots := forest.accountRoots.erase id }
  let released := match newRoots with
    | some roots => restored.release roots
    | none => restored
  -- clean up an empty stack
  if released.pendingOldRoots[id]? = some [] then
    { released with pendingOldRoots := released.pendingOldRoots.erase id }
  else released

/-- Replaces roots atomically: sets new roots and immediately releases old roots. Panics if
there are pending staged changes for the account. -/
def replaceRoots (forest : AccountSmtForest) (id : AccountId) (newRoots : List Word) :
    Except StoreError AccountSmtForest :=
  if forest.pendingOldRoots.contains id then .error (.stagedChangesPending id)
  else
    let registered : AccountSmtForest :=
      { forest with
        rootRefcounts := incrementRefcounts forest.rootRefcounts newRoots
        accountRoots := forest.accountRoots.insert id newRoots }
    .ok (match forest.accountRoots[id]? with
      | some oldRoots => registered.release oldRoots
      | none => registered)

/-! ### Trees -/

/-- The trees of the forest may differ, the registered roots, the stacks and the counts do
not. -/
structure SameRegistration (first second : AccountSmtForest) : Prop where
  accountRoots : first.accountRoots = second.accountRoots
  pendingOldRoots : first.pendingOldRoots = second.pendingOldRoots
  rootRefcounts : first.rootRefcounts = second.rootRefcounts

theorem SameRegistration.refl (forest : AccountSmtForest) : SameRegistration forest forest :=
  ⟨rfl, rfl, rfl⟩

variable [ProtocolLibrary]

/-- `SmtForest::batch_insert`: adds the tree that results from setting leaves of a known tree,
and returns its root. -/
def batchInsert (forest : AccountSmtForest) (root : Word) (entries : List (Word × Word)) :
    Except StoreError (AccountSmtForest × Word) :=
  if root ≠ ProtocolLibrary.emptySmtRoot ∧ root ∉ forest.forest.roots then
    .error (.rootNotInStore root)
  else
    let newRoot := ProtocolLibrary.smtBatchInsert root entries
    .ok ({ forest with forest := ⟨insert newRoot forest.forest.roots⟩ }, newRoot)

/-- Updates the forest with the new asset values. -/
def updateAssetNodes (forest : AccountSmtForest) (root : Word) (newAssets : List Asset)
    (removedVaultKeys : List AssetVaultKey) : Except StoreError (AccountSmtForest × Word) :=
  let entries :=
    newAssets.map (fun asset =>
      (ProtocolLibrary.vaultKeyWord asset.vaultKey, ProtocolLibrary.assetValueWord asset)) ++
    removedVaultKeys.map fun key => (ProtocolLibrary.vaultKeyWord key, emptyWord)
  if entries.isEmpty then .ok (forest, root) else forest.batchInsert root entries

/-- Updates the forest with the new storage map values. -/
def updateStorageMapNodes (forest : AccountSmtForest) (root : Word)
    (entries : List (StorageMapKey × Word)) : Except StoreError (AccountSmtForest × Word) :=
  if entries.isEmpty then .ok (forest, root)
  else forest.batchInsert root
    (entries.map fun entry => (ProtocolLibrary.mapKeyHash entry.1, entry.2))

/-- Inserts the asset vault nodes. The empty tree is always known, so this cannot fail. -/
def insertAssetNodes (forest : AccountSmtForest) (account : Account) : AccountSmtForest :=
  if account.vault.isEmpty then forest
  else { forest with forest := ⟨insert account.vaultRoot forest.forest.roots⟩ }

/-- Inserts all storage map nodes. -/
def insertStorageMapNodes (forest : AccountSmtForest) (account : Account) : AccountSmtForest :=
  account.storage.toList.foldl (fun forest slot => match slot.2 with
    | .value _ => forest
    | .map entries =>
      if entries.isEmpty then forest
      else { forest with forest := ⟨insert (storageMapRoot entries) forest.forest.roots⟩ }) forest

/-- Collects all roots (vault root and storage map roots) of an account's state. -/
def collectAccountRoots (account : Account) : List Word :=
  account.vaultRoot :: account.storage.toList.filterMap fun slot => match slot.2 with
    | .value _ => none
    | .map entries => some (storageMapRoot entries)

/-- Inserts the nodes of an account's vault and storage maps, without tracking roots. -/
def insertAccountState (forest : AccountSmtForest) (account : Account) : AccountSmtForest :=
  (forest.insertStorageMapNodes account).insertAssetNodes account

/-- Inserts all nodes of an account's vault and storage, then replaces the account's tracked
roots atomically. -/
def insertAndRegisterAccountState (forest : AccountSmtForest) (account : Account) :
    Except StoreError AccountSmtForest :=
  (forest.insertAccountState account).replaceRoots account.id (collectAccountRoots account)

theorem batchInsert_sameRegistration {forest next : AccountSmtForest} {root newRoot : Word}
    {entries : List (Word × Word)}
    (inserted : forest.batchInsert root entries = .ok (next, newRoot))
    {original : AccountSmtForest} (same : forest.SameRegistration original) :
    next.SameRegistration original := by
  unfold batchInsert at inserted
  split at inserted
  · cases inserted
  · cases inserted
    exact ⟨same.accountRoots, same.pendingOldRoots, same.rootRefcounts⟩

theorem updateAssetNodes_sameRegistration {forest next : AccountSmtForest} {root newRoot : Word}
    {assets : List Asset} {removed : List AssetVaultKey}
    (updated : forest.updateAssetNodes root assets removed = .ok (next, newRoot))
    {original : AccountSmtForest} (same : forest.SameRegistration original) :
    next.SameRegistration original := by
  unfold updateAssetNodes at updated
  dsimp only at updated
  split at updated
  · cases updated
    exact same
  · exact batchInsert_sameRegistration updated same

theorem updateStorageMapNodes_sameRegistration {forest next : AccountSmtForest}
    {root newRoot : Word} {entries : List (StorageMapKey × Word)}
    (updated : forest.updateStorageMapNodes root entries = .ok (next, newRoot))
    {original : AccountSmtForest} (same : forest.SameRegistration original) :
    next.SameRegistration original := by
  unfold updateStorageMapNodes at updated
  split at updated
  · cases updated
    exact same
  · exact batchInsert_sameRegistration updated same

/-- The root that an update of a storage map returns. -/
theorem updateStorageMapNodes_root {forest next : AccountSmtForest} {root newRoot : Word}
    {entries : List (StorageMapKey × Word)}
    (updated : forest.updateStorageMapNodes root entries = .ok (next, newRoot)) :
    newRoot = if entries.isEmpty then root
      else ProtocolLibrary.smtBatchInsert root
        (entries.map fun entry => (ProtocolLibrary.mapKeyHash entry.1, entry.2)) := by
  unfold updateStorageMapNodes batchInsert at updated
  by_cases empty : entries.isEmpty = true
  · rw [if_pos empty] at updated ⊢
    cases updated
    rfl
  · rw [if_neg empty] at updated ⊢
    split at updated
    · cases updated
    · cases updated
      rfl

end AccountSmtForest

end MidenClient
