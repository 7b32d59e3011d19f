/-
This file models the two helpers that read the node's transaction records during a
sync (`rust-client/src/sync/state_sync.rs`): `derive_account_commitment_updates`,
which takes one final commitment per account, and `compute_ordered_nullifiers`,
which lists the consumed notes in execution order.

The records of one account form an execution chain: each starts from the state the
previous one ended in, and the block numbers do not fall along the chain. The node
may list the records in any order.
-/

import MidenClient.Library.Grouping
import MidenClient.Rpc.Transaction

namespace MidenClient

open Std (ExtTreeMap)

namespace RpcTransactionRecord

abbrev accountId (record : RpcTransactionRecord) : AccountId :=
  record.transactionHeader.accountId

abbrev initialState (record : RpcTransactionRecord) : Word :=
  record.transactionHeader.initialStateCommitment

abbrev finalState (record : RpcTransactionRecord) : Word :=
  record.transactionHeader.finalStateCommitment

abbrev nullifiers (record : RpcTransactionRecord) : List Nullifier :=
  record.transactionHeader.inputNotes

end RpcTransactionRecord

/-- The transactions of one account in execution order: each starts where the previous one
ended, in the same block or a later one. -/
def IsExecutionChain (chain : List RpcTransactionRecord) : Prop :=
  chain.IsChain fun earlier later =>
    later.initialState = earlier.finalState ∧ earlier.blockNum ≤ later.blockNum

/-- The records are, account by account, the transactions of the given execution chains, in
any order. -/
structure ListsChains (records : List RpcTransactionRecord)
    (chain : AccountId → List RpcTransactionRecord) : Prop where
  perm : ∀ account, (records.filter fun record => record.accountId = account).Perm (chain account)
  linked : ∀ account, IsExecutionChain (chain account)

namespace ListsChains

variable {records : List RpcTransactionRecord} {chain : AccountId → List RpcTransactionRecord}

theorem mem_chain_iff (lists : ListsChains records chain) (account : AccountId)
    (record : RpcTransactionRecord) :
    record ∈ chain account ↔ record ∈ records ∧ record.accountId = account := by
  rw [← (lists.perm account).mem_iff, List.mem_filter, decide_eq_true_iff]

theorem of_perm (lists : ListsChains records chain) {listed : List RpcTransactionRecord}
    (same : listed.Perm records) : ListsChains listed chain where
  perm account := (same.filter _).trans (lists.perm account)
  linked := lists.linked

end ListsChains

/-- The block numbers do not fall along a chain. -/
theorem IsExecutionChain.sorted {chain : List RpcTransactionRecord}
    (linked : IsExecutionChain chain) :
    chain.Pairwise fun earlier later => earlier.blockNum ≤ later.blockNum := by
  have blocks : (chain.map RpcTransactionRecord.blockNum).IsChain (· ≤ ·) := by
    rw [List.isChain_map]
    exact linked.imp fun _ _ step => step.2
  exact List.pairwise_map.mp blocks.pairwise

/-! ### The latest commitment of every account -/

/-- Keeps the record of the higher block, and the earlier listed one at equal blocks. -/
def keepLatest (record : RpcTransactionRecord) :
    Option RpcTransactionRecord → Option RpcTransactionRecord
  | some existing => some (if existing.blockNum < record.blockNum then record else existing)
  | none => some record

/-- For each unique account, takes the final state commitment from the transaction with the
highest block number. -/
def deriveAccountCommitmentUpdates (records : List RpcTransactionRecord) :
    List (AccountId × Word) :=
  let latestByAccount : ExtTreeMap AccountId RpcTransactionRecord :=
    records.foldl (fun latest record => latest.alter record.accountId (keepLatest record)) ∅
  latestByAccount.toList.map fun entry => (entry.1, entry.2.finalState)

/-- The map of the loop holds, for each account, the first record of the highest block. -/
theorem latestByAccount_getElem? (records : List RpcTransactionRecord) (account : AccountId) :
    (records.foldl (fun latest record => latest.alter record.accountId (keepLatest record))
        (∅ : ExtTreeMap AccountId RpcTransactionRecord))[account]? =
      (records.filter fun record => record.accountId = account).argmax
        RpcTransactionRecord.blockNum := by
  induction records using List.reverseRecOn with
  | nil => simp
  | append_singleton records record inductionHypothesis =>
    rw [List.foldl_append, List.foldl_cons, List.foldl_nil, ExtTreeMap.getElem?_alter,
      List.filter_append, List.filter_singleton]
    by_cases same : record.accountId = account
    · subst same
      rw [if_pos Std.ReflCmp.compare_self, inductionHypothesis]
      simp only [decide_true, cond_true, List.argmax_concat]
      cases (records.filter fun other => other.accountId = record.accountId).argmax
        RpcTransactionRecord.blockNum with
      | none => rfl
      | some existing =>
        simp only [keepLatest]
        split <;> rfl
    · rw [if_neg (by rwa [Std.compare_eq_iff_eq]), inductionHypothesis]
      simp [same]

/-- The last transaction of a chain is in the highest block of the chain. -/
theorem IsExecutionChain.le_getLast {chain : List RpcTransactionRecord}
    (linked : IsExecutionChain chain) {last : RpcTransactionRecord}
    (ends : chain.getLast? = some last) (record : RpcTransactionRecord) (member : record ∈ chain) :
    record.blockNum ≤ last.blockNum := by
  obtain ⟨front, rfl⟩ := List.getLast?_eq_some_iff.mp ends
  rcases List.mem_append.mp member with early | final
  · exact (List.pairwise_append.mp linked.sorted).2.2 record early last List.mem_cons_self
  · rw [List.mem_singleton.mp final]

/-- What is derived for an account comes from its first record of the highest block. -/
theorem mem_deriveAccountCommitmentUpdates_argmax (records : List RpcTransactionRecord)
    (account : AccountId) (commitment : Word) :
    (account, commitment) ∈ deriveAccountCommitmentUpdates records ↔
      ((records.filter fun record => record.accountId = account).argmax
        RpcTransactionRecord.blockNum).map RpcTransactionRecord.finalState = some commitment := by
  rw [← latestByAccount_getElem?, deriveAccountCommitmentUpdates, Option.map_eq_some_iff]
  simp only [List.mem_map, Prod.exists, Prod.mk.injEq, ExtTreeMap.mem_toList_iff_getElem?_eq_some]
  constructor
  · rintro ⟨other, record, found, rfl, final⟩
    exact ⟨record, found, final⟩
  · rintro ⟨record, found, final⟩
    exact ⟨account, record, found, rfl, final⟩

/-- Where the highest block of an account is known, it is the record of that block that is listed
first. -/
theorem mem_deriveAccountCommitmentUpdates_find {records : List RpcTransactionRecord}
    {account : AccountId} {last : RpcTransactionRecord}
    (listed : last ∈ records.filter fun record => record.accountId = account)
    (highest : ∀ record ∈ records.filter fun record => record.accountId = account,
      record.blockNum ≤ last.blockNum) (commitment : Word) :
    (account, commitment) ∈ deriveAccountCommitmentUpdates records ↔
      (records.find? fun record =>
        record.accountId = account ∧ record.blockNum = last.blockNum).map
          RpcTransactionRecord.finalState = some commitment := by
  rw [mem_deriveAccountCommitmentUpdates_argmax,
    Grouping.argmax_eq_find? _ _ _ ⟨last, listed, rfl⟩ highest, List.find?_filter]
  simp

/-- What is derived for an account is the final commitment of the record listed first among
those in the block of the last transaction. -/
theorem mem_deriveAccountCommitmentUpdates_iff {records : List RpcTransactionRecord}
    {chain : AccountId → List RpcTransactionRecord} (lists : ListsChains records chain)
    (account : AccountId) (commitment : Word) :
    (account, commitment) ∈ deriveAccountCommitmentUpdates records ↔
      ∃ last ∈ (chain account).getLast?,
        (records.find? fun record =>
          record.accountId = account ∧ record.blockNum = last.blockNum).map
            RpcTransactionRecord.finalState = some commitment := by
  have perm := lists.perm account
  cases ends : (chain account).getLast? with
  | none =>
    rw [List.getLast?_eq_none_iff.mp ends] at perm
    rw [mem_deriveAccountCommitmentUpdates_argmax, perm.eq_nil]
    simp
  | some last =>
    rw [mem_deriveAccountCommitmentUpdates_find (perm.mem_iff.mpr (List.mem_of_getLast? ends))
      fun record member =>
        (lists.linked account).le_getLast ends record (perm.mem_iff.mp member)]
    simp

/-- Every account of the records, and no other, is given the final commitment of the last
transaction of its chain. -/
def DerivesLastCommitments (records : List RpcTransactionRecord)
    (chain : AccountId → List RpcTransactionRecord) : Prop :=
  ((deriveAccountCommitmentUpdates records).map Prod.fst).Nodup ∧
    ∀ account commitment, (account, commitment) ∈ deriveAccountCommitmentUpdates records ↔
      (chain account).getLast?.map RpcTransactionRecord.finalState = some commitment

theorem deriveAccountCommitmentUpdates_nodup (records : List RpcTransactionRecord) :
    ((deriveAccountCommitmentUpdates records).map Prod.fst).Nodup := by
  rw [deriveAccountCommitmentUpdates, List.map_map]
  exact List.pairwise_map.mpr ((OrderedMap.pairwise_lt_toList _).imp fun before => before.ne)

/-- The derived commitments are those of the last transactions exactly when, for every
account, the record listed first among those of the account's highest block ends in the
same state as the last transaction. -/
theorem derivesLastCommitments_iff (records : List RpcTransactionRecord)
    (chain : AccountId → List RpcTransactionRecord) (lists : ListsChains records chain) :
    DerivesLastCommitments records chain ↔
      ∀ account, ∀ last ∈ (chain account).getLast?, ∀ first ∈ records.find? fun record =>
          record.accountId = account ∧ record.blockNum = last.blockNum,
        first.finalState = last.finalState := by
  constructor
  · rintro ⟨-, derived⟩ account last ends first found
    have right := (derived account last.finalState).mpr (by rw [Option.mem_def.mp ends]; rfl)
    obtain ⟨other, sameEnds, final⟩ :=
      (mem_deriveAccountCommitmentUpdates_iff lists account _).mp right
    rw [Option.mem_unique sameEnds ends, Option.mem_def.mp found] at final
    exact Option.some.inj final
  · intro first
    refine ⟨deriveAccountCommitmentUpdates_nodup records, ?_⟩
    intro account commitment
    rw [mem_deriveAccountCommitmentUpdates_iff lists]
    cases ends : (chain account).getLast? with
    | none => simp
    | some last =>
      have listed := ((lists.mem_chain_iff account last).mp (List.mem_of_getLast? ends))
      obtain ⟨found, search⟩ : ∃ found, (records.find? fun record =>
          record.accountId = account ∧ record.blockNum = last.blockNum) = some found := by
        rw [← Option.isSome_iff_exists, List.find?_isSome]
        exact ⟨last, listed.1, by simpa using listed.2⟩
      have same := first account last ends found search
      simp only [Option.mem_some_iff, exists_eq_left', search, Option.map_some, same]

/-- Account 1 goes from state 10 over 11 to 12 in block 5. -/
def sameBlockRecords : List RpcTransactionRecord :=
  [⟨5, ⟨21, 1, 10, 11, []⟩⟩, ⟨5, ⟨22, 1, 11, 12, []⟩⟩]

/-- The chains of a list of records of account 1 that is in execution order. -/
def chainOfFirst (records : List RpcTransactionRecord) (account : AccountId) :
    List RpcTransactionRecord :=
  if account = 1 then records else []

theorem listsChains_chainOfFirst (records : List RpcTransactionRecord)
    (owned : ∀ record ∈ records, record.accountId = 1) (linked : IsExecutionChain records) :
    ListsChains records (chainOfFirst records) where
  perm account := by
    unfold chainOfFirst
    by_cases same : account = 1
    · rw [if_pos same, List.filter_eq_self.mpr]
      intro record member
      rw [owned record member, same]
      rfl
    · rw [if_neg same, List.filter_eq_nil_iff.mpr]
      intro record member
      rw [owned record member, decide_eq_true_iff]
      exact fun equal => same equal.symm
  linked account := by
    unfold chainOfFirst
    split
    · exact linked
    · exact List.IsChain.nil

/-- Both transactions are in one block, and the state between them is reported. -/
theorem not_derivesLastCommitments_sameBlock :
    ListsChains sameBlockRecords (chainOfFirst sameBlockRecords) ∧
      ¬DerivesLastCommitments sameBlockRecords (chainOfFirst sameBlockRecords) := by
  have lists : ListsChains sameBlockRecords (chainOfFirst sameBlockRecords) :=
    listsChains_chainOfFirst _ (by decide) (by simp [IsExecutionChain, sameBlockRecords])
  refine ⟨lists, ?_⟩
  rintro ⟨-, derived⟩
  have listed : (1, 11) ∈ deriveAccountCommitmentUpdates sameBlockRecords := by decide
  have last := (derived 1 11).mp listed
  exact absurd last (by decide)

/-- With the two transactions in different blocks the last commitment is derived. -/
theorem derivesLastCommitments_iff_twoBlocks :
    DerivesLastCommitments [⟨4, ⟨21, 1, 10, 11, []⟩⟩, ⟨5, ⟨22, 1, 11, 12, []⟩⟩]
      (chainOfFirst [⟨4, ⟨21, 1, 10, 11, []⟩⟩, ⟨5, ⟨22, 1, 11, 12, []⟩⟩]) := by
  refine (derivesLastCommitments_iff _ _
    (listsChains_chainOfFirst _ (by decide) (by simp [IsExecutionChain]))).mpr ?_
  intro account last ends first found
  by_cases same : account = 1
  · subst same
    simp only [chainOfFirst, if_true, List.getLast?_cons_cons, List.getLast?_singleton,
      Option.mem_some_iff] at ends
    subst ends
    simp at found
    rw [← found]
  · simp [chainOfFirst, same] at ends

end MidenClient
