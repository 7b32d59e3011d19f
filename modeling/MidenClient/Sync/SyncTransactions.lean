/-
This file follows the transaction records of a sync: the single request for them
(`sync_transactions` in `rust-client/src/rpc/tonic_client/mod.rs`), what is derived from
the answer (`fetch_transaction_data` in `rust-client/src/sync/state_sync.rs`), and the
sync height that the update moves to.

A node may answer a prefix of the requested range only, and says in the answer up to
which block it got. Nothing reads that block: the sync moves to the chain tip anyway, and
the next one asks from there. Of what was answered, the commitments and the nullifiers of
several transactions of one account in a block get through in some listings only.
-/

import MidenClient.Sync.LostNullifiers
import MidenClient.Sync.StateSync

namespace MidenClient

/-- A list of transaction records that were included in a range of blocks. -/
structure TransactionsInfo where
  chainTip : BlockNumber
  /-- The block up to which the range was answered. -/
  blockNum : BlockNumber
  transactionRecords : List RpcTransactionRecord

/-- What a sync derives from the transaction records. -/
structure TransactionData where
  accountCommitmentUpdates : List (AccountId × Word)
  transactions : List TransactionInclusion
  nullifiers : List Nullifier

/-- A node, as far as transactions are concerned: the transactions of its chain, and its answers
to requests for a range of blocks and some accounts. -/
structure TransactionNode where
  chain : List RpcTransactionRecord
  syncTransactions : BlockNumber → BlockNumber → List AccountId → TransactionsInfo

/-- The data that is derived from some records. -/
def TransactionData.ofRecords (records : List RpcTransactionRecord) : TransactionData where
  accountCommitmentUpdates := deriveAccountCommitmentUpdates records
  transactions := records.map RpcTransactionRecord.toInclusion
  nullifiers := computeOrderedNullifiers records

namespace TransactionNode

/-- The node answers with transactions of its chain, each of them once. After the first block of the
range these are all transactions of the accounts up to the block that it reports. The chain is in
execution order, and no note is consumed twice. -/
structure Honest (node : TransactionNode) : Prop where
  distinct : (node.chain.map fun record => record.transactionHeader.id).Nodup
  linked : ∀ account, IsExecutionChain (node.chain.filter fun record => record.accountId = account)
  consumedOnce : (node.chain.flatMap RpcTransactionRecord.nullifiers).Nodup
  answered : ∀ blockFrom blockTo accountIds,
    (node.syncTransactions blockFrom blockTo accountIds).blockNum ≤ blockTo
  onChain : ∀ blockFrom blockTo accountIds,
    ∀ record ∈ (node.syncTransactions blockFrom blockTo accountIds).transactionRecords,
      record ∈ node.chain
  once : ∀ blockFrom blockTo accountIds,
    (node.syncTransactions blockFrom blockTo accountIds).transactionRecords.Nodup
  listed : ∀ blockFrom blockTo accountIds (record : RpcTransactionRecord),
    blockFrom < record.blockNum →
      (record ∈ (node.syncTransactions blockFrom blockTo accountIds).transactionRecords ↔
        record ∈ node.chain ∧ record.accountId ∈ accountIds ∧
          record.blockNum ≤ (node.syncTransactions blockFrom blockTo accountIds).blockNum)

/-- Fetches transaction data for the given range and account ids. -/
def fetchTransactionData (node : TransactionNode) (blockFrom blockTo : BlockNumber)
    (accountIds : List AccountId) : TransactionData :=
  if accountIds.isEmpty then ⟨[], [], []⟩
  else .ofRecords (node.syncTransactions blockFrom blockTo accountIds).transactionRecords

/-- The transactions of some accounts in a range of blocks. -/
def transactionsIn (node : TransactionNode) (blockFrom blockTo : BlockNumber)
    (accountIds : List AccountId) (record : RpcTransactionRecord) : Prop :=
  record ∈ node.chain ∧ record.accountId ∈ accountIds ∧ blockFrom < record.blockNum ∧
    record.blockNum ≤ blockTo

/-- The last transaction of an account in a range of blocks. -/
def lastIn (node : TransactionNode) (blockFrom blockTo : BlockNumber) (account : AccountId) :
    Option RpcTransactionRecord :=
  (node.chain.filter fun record => record.accountId = account ∧ blockFrom < record.blockNum ∧
    record.blockNum ≤ blockTo).getLast?

/-- The data has all transactions of some accounts in a range of blocks: the inclusion and the
nullifiers of each, and for every account the commitment that the last of them ends in. -/
structure Processed (node : TransactionNode) (blockFrom blockTo : BlockNumber)
    (accountIds : List AccountId) (data : TransactionData) : Prop where
  included : ∀ record, node.transactionsIn blockFrom blockTo accountIds record →
    record.toInclusion ∈ data.transactions
  nullified : ∀ record, node.transactionsIn blockFrom blockTo accountIds record →
    ∀ nullifier ∈ record.nullifiers, nullifier ∈ data.nullifiers
  updated : ∀ account ∈ accountIds, ∀ last ∈ node.lastIn blockFrom blockTo account,
    (account, last.finalState) ∈ data.accountCommitmentUpdates

/-- The answer reaches the last transaction of the accounts, lists a record that ends in the last
state of an account first in the last block of the account, and lists the transactions of an account
in a block so that those with notes lie on a path. -/
structure ListsProcessably (node : TransactionNode) (blockFrom blockTo : BlockNumber)
    (accountIds : List AccountId) : Prop where
  reached : ∀ record, node.transactionsIn blockFrom blockTo accountIds record →
    record.blockNum ≤ (node.syncTransactions blockFrom blockTo accountIds).blockNum
  finalFirst : ∀ account ∈ accountIds, ∀ last ∈ node.lastIn blockFrom blockTo account,
    ∀ first ∈ (node.syncTransactions blockFrom blockTo accountIds).transactionRecords.find?
        fun record => record.accountId = account ∧ record.blockNum = last.blockNum,
      first.finalState = last.finalState
  keepsGroups : ∀ account ∈ accountIds, ∀ block, blockFrom < block → block ≤ blockTo →
    KeepsGroup ((node.syncTransactions blockFrom blockTo accountIds).transactionRecords.filter
      fun record => groupKey record = toLex (account, block))

variable {node : TransactionNode} {blockFrom blockTo : BlockNumber} {accountIds : List AccountId}

/-- A transaction of the chain is determined by its inclusion. -/
theorem Honest.eq_of_toInclusion (honest : node.Honest) {first second : RpcTransactionRecord}
    (memberFirst : first ∈ node.chain) (memberSecond : second ∈ node.chain)
    (same : first.toInclusion = second.toInclusion) : first = second :=
  List.inj_on_of_nodup_map honest.distinct memberFirst memberSecond
    (congrArg TransactionInclusion.transactionId same)

/-- A transaction of the chain is determined by a note that it consumes. -/
theorem Honest.eq_of_mem_nullifiers (honest : node.Honest) {first second : RpcTransactionRecord}
    (memberFirst : first ∈ node.chain) (memberSecond : second ∈ node.chain) {nullifier : Nullifier}
    (consumedFirst : nullifier ∈ first.nullifiers)
    (consumedSecond : nullifier ∈ second.nullifiers) : first = second := by
  by_contra apart
  have disjoint := (List.nodup_flatMap.mp honest.consumedOnce).2
  have : Std.Symm (Function.onFun List.Disjoint RpcTransactionRecord.nullifiers) :=
    ⟨fun _ _ apart => List.Disjoint.symm apart⟩
  exact disjoint.forall memberFirst memberSecond apart consumedFirst consumedSecond

theorem mem_lastIn {account : AccountId} {last : RpcTransactionRecord}
    (ends : last ∈ node.lastIn blockFrom blockTo account) :
    last ∈ node.chain ∧ last.accountId = account ∧ blockFrom < last.blockNum ∧
      last.blockNum ≤ blockTo := by
  obtain ⟨member, inRange⟩ := List.mem_filter.mp (List.mem_of_getLast? ends)
  exact ⟨member, of_decide_eq_true inRange⟩

/-- The last transaction of an account in a range is in the highest block of the account. -/
theorem Honest.le_lastIn (honest : node.Honest) {account : AccountId}
    {last record : RpcTransactionRecord} (ends : last ∈ node.lastIn blockFrom blockTo account)
    (member : record ∈ node.chain) (owned : record.accountId = account)
    (after : blockFrom < record.blockNum) (upTo : record.blockNum ≤ blockTo) :
    record.blockNum ≤ last.blockNum := by
  have sorted := (honest.linked account).sorted.filter fun record =>
    decide (blockFrom < record.blockNum ∧ record.blockNum ≤ blockTo)
  rw [List.filter_filter] at sorted
  have same : (node.chain.filter fun record => decide (blockFrom < record.blockNum ∧
        record.blockNum ≤ blockTo) && decide (record.accountId = account)) =
      node.chain.filter fun record => record.accountId = account ∧ blockFrom < record.blockNum ∧
        record.blockNum ≤ blockTo :=
    List.filter_congr fun record _ => by
      rw [← Bool.decide_and]
      exact decide_eq_decide.mpr and_comm
  rw [same] at sorted
  have listed : record ∈ node.chain.filter fun record => record.accountId = account ∧
      blockFrom < record.blockNum ∧ record.blockNum ≤ blockTo :=
    List.mem_filter.mpr ⟨member, decide_eq_true ⟨owned, after, upTo⟩⟩
  obtain ⟨front, split⟩ := List.getLast?_eq_some_iff.mp (show _ = some last from ends)
  rw [split] at sorted listed
  rcases List.mem_append.mp listed with early | final
  · exact (List.pairwise_append.mp sorted).2.2 record early last List.mem_cons_self
  · rw [List.mem_singleton.mp final]

/-! ### What is derived from an answer -/

/-- The records are the answer for the whole range, if the range is all that is looked at. -/
structure ListsRange (node : TransactionNode) (blockFrom blockTo : BlockNumber)
    (accountIds : List AccountId) (records : List RpcTransactionRecord) : Prop where
  once : records.Nodup
  onChain : ∀ record ∈ records, record ∈ node.chain
  listed : ∀ record : RpcTransactionRecord, blockFrom < record.blockNum →
    (record ∈ records ↔
      record ∈ node.chain ∧ record.accountId ∈ accountIds ∧ record.blockNum ≤ blockTo)

theorem Honest.listsRange (honest : node.Honest)
    (reached : ∀ record, node.transactionsIn blockFrom blockTo accountIds record →
      record.blockNum ≤ (node.syncTransactions blockFrom blockTo accountIds).blockNum) :
    ListsRange node blockFrom blockTo accountIds
      (node.syncTransactions blockFrom blockTo accountIds).transactionRecords where
  once := honest.once blockFrom blockTo accountIds
  onChain := honest.onChain blockFrom blockTo accountIds
  listed record after := by
    refine (honest.listed blockFrom blockTo accountIds record after).trans ?_
    refine and_congr_right fun member => and_congr_right fun tracked => ⟨fun below => ?_, ?_⟩
    · exact below.trans (honest.answered blockFrom blockTo accountIds)
    · exact fun upTo => reached record ⟨member, tracked, after, upTo⟩

variable {records : List RpcTransactionRecord} {account : AccountId}

/-- The last commitment of an account is derived exactly when the record that is listed first in its
last block ends in it. -/
theorem ListsRange.updated_iff (lists : ListsRange node blockFrom blockTo accountIds records)
    (honest : node.Honest) (tracked : account ∈ accountIds) {last : RpcTransactionRecord}
    (ends : last ∈ node.lastIn blockFrom blockTo account) :
    (account, last.finalState) ∈ deriveAccountCommitmentUpdates records ↔
      ∀ first ∈ records.find? fun record =>
          record.accountId = account ∧ record.blockNum = last.blockNum,
        first.finalState = last.finalState := by
  obtain ⟨member, owned, after, upTo⟩ := mem_lastIn ends
  have listed : last ∈ records := (lists.listed last after).mpr ⟨member, owned ▸ tracked, upTo⟩
  have highest : ∀ record ∈ records.filter fun record => record.accountId = account,
      record.blockNum ≤ last.blockNum := by
    intro record listedRecord
    obtain ⟨inRecords, ownedRecord⟩ := List.mem_filter.mp listedRecord
    rcases le_or_gt record.blockNum blockFrom with early | late
    · exact early.trans after.le
    · obtain ⟨onChain, -, below⟩ := (lists.listed record late).mp inRecords
      exact honest.le_lastIn ends onChain (of_decide_eq_true ownedRecord) late below
  obtain ⟨first, found⟩ : ∃ first, (records.find? fun record =>
      record.accountId = account ∧ record.blockNum = last.blockNum) = some first := by
    rw [← Option.isSome_iff_exists, List.find?_isSome]
    exact ⟨last, listed, decide_eq_true ⟨owned, rfl⟩⟩
  rw [mem_deriveAccountCommitmentUpdates_find
    (List.mem_filter.mpr ⟨listed, decide_eq_true owned⟩) highest, found]
  simp

/-- The answered transactions of an account in a block are those of the chain. -/
theorem ListsRange.group_perm (lists : ListsRange node blockFrom blockTo accountIds records)
    (honest : node.Honest) (tracked : account ∈ accountIds) {block : BlockNumber}
    (after : blockFrom < block) (upTo : block ≤ blockTo) :
    (records.filter fun record => groupKey record = toLex (account, block)).Perm
      ((node.chain.filter fun record => record.accountId = account).filter fun record =>
        record.blockNum = block) := by
  refine (List.perm_ext_iff_of_nodup (lists.once.filter _)
    ((honest.distinct.of_map.filter _).filter _)).mpr fun record => ?_
  simp only [List.mem_filter, decide_eq_true_eq, groupKey, toLex_inj, Prod.mk.injEq]
  constructor
  · rintro ⟨member, owned, inBlock⟩
    exact ⟨⟨lists.onChain record member, owned⟩, inBlock⟩
  · rintro ⟨⟨member, owned⟩, inBlock⟩
    exact ⟨(lists.listed record (inBlock ▸ after)).mpr ⟨member, owned ▸ tracked, inBlock ▸ upTo⟩,
      owned, inBlock⟩

theorem mem_computeOrderedNullifiers_iff (records : List RpcTransactionRecord)
    (nullifier : Nullifier) :
    nullifier ∈ computeOrderedNullifiers records ↔
      ∃ key, ∃ record ∈ orderGroup (records.filter fun record => groupKey record = key),
        nullifier ∈ record.nullifiers := by
  rw [computeOrderedNullifiers_eq_flatMap, List.mem_flatMap]
  constructor
  · rintro ⟨key, -, consumed⟩
    obtain ⟨record, visited, consumes⟩ := List.mem_flatMap.mp consumed
    exact ⟨key, record, visited, consumes⟩
  · rintro ⟨key, record, visited, consumes⟩
    obtain ⟨listed, hasKey⟩ := List.mem_filter.mp ((orderGroup_subperm _).subset visited)
    exact ⟨key, (Grouping.mem_groupKeys_iff groupKey records key).mpr
      ⟨record, listed, of_decide_eq_true hasKey⟩, List.mem_flatMap.mpr ⟨record, visited, consumes⟩⟩

/-- The nullifiers of an account in a block are all collected exactly when the group of the block
keeps them. -/
theorem ListsRange.keepsGroup_iff (lists : ListsRange node blockFrom blockTo accountIds records)
    (honest : node.Honest) (tracked : account ∈ accountIds) {block : BlockNumber}
    (after : blockFrom < block) (upTo : block ≤ blockTo) :
    KeepsGroup (records.filter fun record => groupKey record = toLex (account, block)) ↔
      ∀ record ∈ records, groupKey record = toLex (account, block) →
        ∀ nullifier ∈ record.nullifiers, nullifier ∈ computeOrderedNullifiers records := by
  rw [← filter_subperm_orderGroup_iff ((honest.linked account).linked_block block)
    (lists.group_perm honest tracked after upTo)]
  constructor
  · intro kept record member inGroup nullifier consumes
    refine (mem_computeOrderedNullifiers_iff records nullifier).mpr
      ⟨toLex (account, block), record, kept.subset (List.mem_filter.mpr ⟨?_, ?_⟩), consumes⟩
    · exact List.mem_filter.mpr ⟨member, decide_eq_true inGroup⟩
    · exact decide_eq_true (List.ne_nil_of_mem consumes)
  · intro collected
    refine List.subperm_of_subset ((lists.once.filter _).filter _) fun record listed => ?_
    obtain ⟨inGroup, consumes⟩ := List.mem_filter.mp listed
    obtain ⟨member, hasKey⟩ := List.mem_filter.mp inGroup
    obtain ⟨nullifier, consumed⟩ := List.exists_mem_of_ne_nil _ (of_decide_eq_true consumes)
    obtain ⟨key, other, visited, consumedByOther⟩ :=
      (mem_computeOrderedNullifiers_iff records nullifier).mp
        (collected record member (of_decide_eq_true hasKey) nullifier consumed)
    obtain ⟨otherListed, otherKey⟩ := List.mem_filter.mp ((orderGroup_subperm _).subset visited)
    -- Only one transaction of the chain consumes the note.
    obtain rfl := honest.eq_of_mem_nullifiers (lists.onChain other otherListed)
      (lists.onChain record member) consumedByOther consumed
    rw [of_decide_eq_true hasKey] at otherKey
    rwa [← of_decide_eq_true otherKey] at visited

/-- All transactions of the range are processed exactly when the answer lists them so. -/
theorem Honest.fetchTransactionData_processed_iff (honest : node.Honest) :
    node.Processed blockFrom blockTo accountIds
        (node.fetchTransactionData blockFrom blockTo accountIds) ↔
      node.ListsProcessably blockFrom blockTo accountIds := by
  by_cases nobody : accountIds = []
  · -- without accounts nothing is asked for, and there is nothing to process
    subst nobody
    constructor
    · intro _
      exact ⟨fun _ inRange => absurd inRange.2.1 List.not_mem_nil,
        fun _ tracked => absurd tracked List.not_mem_nil,
        fun _ tracked => absurd tracked List.not_mem_nil⟩
    · intro _
      exact ⟨fun _ inRange => absurd inRange.2.1 List.not_mem_nil,
        fun _ inRange => absurd inRange.2.1 List.not_mem_nil,
        fun _ tracked => absurd tracked List.not_mem_nil⟩
  · have fetched : node.fetchTransactionData blockFrom blockTo accountIds =
        .ofRecords (node.syncTransactions blockFrom blockTo accountIds).transactionRecords := by
      unfold fetchTransactionData
      rw [if_neg (by rwa [List.isEmpty_iff])]
    rw [fetched]
    constructor
    · intro processed
      have reached : ∀ record, node.transactionsIn blockFrom blockTo accountIds record →
          record.blockNum ≤ (node.syncTransactions blockFrom blockTo accountIds).blockNum := by
        intro record inRange
        obtain ⟨other, answered, same⟩ := List.mem_map.mp (processed.included record inRange)
        obtain rfl : other = record :=
          honest.eq_of_toInclusion (honest.onChain _ _ _ other answered) inRange.1 same
        exact ((honest.listed _ _ _ other inRange.2.2.1).mp answered).2.2
      have lists := honest.listsRange reached
      refine ⟨reached, fun account tracked last ends => ?_,
        fun account tracked block after upTo => ?_⟩
      · exact (lists.updated_iff honest tracked ends).mp
          (processed.updated account tracked last ends)
      · refine (lists.keepsGroup_iff honest tracked after upTo).mpr ?_
        intro record member inGroup nullifier consumes
        obtain ⟨owned, inBlock⟩ := Prod.mk.inj (toLex_inj.mp inGroup)
        exact processed.nullified record ⟨lists.onChain record member, owned ▸ tracked,
          inBlock ▸ after, inBlock ▸ upTo⟩ nullifier consumes
    · intro processable
      have lists := honest.listsRange processable.reached
      have listed : ∀ record, node.transactionsIn blockFrom blockTo accountIds record →
          record ∈ (node.syncTransactions blockFrom blockTo accountIds).transactionRecords :=
        fun record inRange =>
          (lists.listed record inRange.2.2.1).mpr ⟨inRange.1, inRange.2.1, inRange.2.2.2⟩
      refine ⟨fun record inRange => List.mem_map_of_mem (listed record inRange),
        fun record inRange nullifier consumes => ?_, fun account tracked last ends => ?_⟩
      · exact (lists.keepsGroup_iff honest inRange.2.1 inRange.2.2.1 inRange.2.2.2).mp
          (processable.keepsGroups _ inRange.2.1 _ inRange.2.2.1 inRange.2.2.2) record
          (listed record inRange) rfl nullifier consumes
      · exact (lists.updated_iff honest tracked ends).mpr
          (processable.finalFirst account tracked last ends)

/-- The answers of the node in a sync; the part about notes is given. -/
def fetchSyncData (node : TransactionNode) (others : RawStateSyncData) (blockNum : BlockNumber)
    (accountIds : List AccountId) : RawStateSyncData :=
  { others with
    transactions := (node.syncTransactions blockNum others.chainTipHeader.blockNum
      accountIds).transactionRecords }

end TransactionNode

namespace StateSync

variable [NoteLibrary] {node : TransactionNode} {sync : StateSync} {blockNum : BlockNumber}
  {input : StateSyncInput} {others : RawStateSyncData} {update : StateSyncUpdate}

omit [NoteLibrary] in
/-- The data that a sync applies to its transactions and nullifiers is the fetched one. -/
theorem ofRecords_includedTransactions (node : TransactionNode) (blockNum : BlockNumber)
    (input : StateSyncInput) (others : RawStateSyncData) :
    TransactionData.ofRecords (includedTransactions input
        (node.fetchSyncData others blockNum input.accounts)) =
      node.fetchTransactionData blockNum others.chainTipHeader.blockNum input.accounts := by
  unfold includedTransactions TransactionNode.fetchTransactionData
  split
  · rfl
  · rfl

/-- A successful sync moves to the chain tip. -/
theorem syncState_blockNum {data : RawStateSyncData}
    (synced : sync.syncState blockNum input data = .ok update) :
    update.blockNum = data.chainTipHeader.blockNum := by
  unfold syncState at synced
  split at synced
  · rename_i arrived
    cases synced
    exact arrived.symm
  · obtain ⟨screened, -, nullified⟩ := Fallible.bind_eq_ok.mp synced
    refine Fallible.foldlM_invariant (fun _ (current : StateSyncUpdate) =>
      current.blockNum = data.chainTipHeader.blockNum) applyNullifier
      (fun nullifier rest current next same applied => ?_) _ _ _ rfl nullified
    unfold applyNullifier at applied
    split at applied
    · cases applied
      exact same
    · cases applied

end StateSync

/-! ### A truncated answer -/

namespace Sample

open StateSync

/-- A node that answers up to some block. -/
def nodeUpTo (limit : BlockNumber) (chain : List RpcTransactionRecord) : TransactionNode where
  chain := chain
  syncTransactions blockFrom blockTo accountIds :=
    { chainTip := blockTo
      blockNum := min blockTo limit
      transactionRecords := chain.filter fun record => record.accountId ∈ accountIds ∧
        blockFrom < record.blockNum ∧ record.blockNum ≤ min blockTo limit }

theorem nodeUpTo_honest (limit : BlockNumber) {chain : List RpcTransactionRecord}
    (distinct : (chain.map fun record => record.transactionHeader.id).Nodup)
    (linked : ∀ account, IsExecutionChain (chain.filter fun record => record.accountId = account))
    (consumedOnce : (chain.flatMap RpcTransactionRecord.nullifiers).Nodup) :
    (nodeUpTo limit chain).Honest where
  distinct := distinct
  linked := linked
  consumedOnce := consumedOnce
  answered blockFrom blockTo accountIds := min_le_left blockTo limit
  onChain blockFrom blockTo accountIds record member := List.mem_of_mem_filter member
  once blockFrom blockTo accountIds := distinct.of_map.filter _
  listed blockFrom blockTo accountIds record after := by
    refine List.mem_filter.trans (and_congr_right fun _ => ?_)
    rw [decide_eq_true_eq]
    exact ⟨fun kept => ⟨kept.1, kept.2.2⟩, fun kept => ⟨kept.1, after, kept.2⟩⟩

/-- Two transactions of account 2, in blocks 5 and 9. -/
def twoTransactions : List RpcTransactionRecord :=
  [⟨5, ⟨1, 2, 10, 11, [3]⟩⟩, ⟨9, ⟨2, 2, 11, 12, [4]⟩⟩]

theorem nodeUpTo_twoTransactions_honest (limit : BlockNumber) :
    (nodeUpTo limit twoTransactions).Honest := by
  refine nodeUpTo_honest limit (by decide) (fun account => ?_) (by decide)
  by_cases same : account = 2
  · subst same
    simp [twoTransactions, IsExecutionChain]
  · rw [List.filter_eq_nil_iff.mpr]
    · exact List.IsChain.nil
    · simp [twoTransactions, Ne.symm same]

/-- A sync of account 2 with chain tip 10. -/
def quietSync : StateSync :=
  ⟨fun _ _ => .ok .discard, none, true⟩

def trackAccount : StateSyncInput :=
  ⟨[2], [], [], []⟩

def tipData : RawStateSyncData :=
  ⟨⟨10, 7, 100⟩, [], ∅, [], []⟩

end Sample

end MidenClient
