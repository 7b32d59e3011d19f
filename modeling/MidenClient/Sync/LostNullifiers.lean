/-
This file determines which nullifiers `compute_ordered_nullifiers` loses.

A group loses nothing when the walk passes every transaction that consumes a note.
For a chain whose only repeated states come from transactions that leave the account
as it is, that has a plain form: such a transaction must not be the first of its
block, nothing after it in the block may consume notes, and it must be listed last
among the transactions of the block that start from its state.
-/

import MidenClient.Sync.OrderedNullifiers

namespace MidenClient

open Std (ExtTreeMap)

/-! ### What a group keeps -/

/-- The walk of a group can pass every transaction that consumes a note: they lie, each once,
on a path of transactions that starts where no transaction of the group ends, that never
starts twice from one state, and on which every transaction is the one listed last among
those of the group that start from its state. -/
def KeepsGroup (txs : List RpcTransactionRecord) : Prop :=
  (∃ tx ∈ txs, tx.nullifiers ≠ []) →
    ∃ path : List RpcTransactionRecord,
      Linked path ∧
      (path.map RpcTransactionRecord.initialState).Nodup ∧
      (∀ first ∈ path.head?, first.initialState ∉ txs.map RpcTransactionRecord.finalState) ∧
      (∀ tx ∈ path,
        (txs.filter fun other => other.initialState = tx.initialState).getLast? = some tx) ∧
      (txs.filter fun tx => tx.nullifiers ≠ []).Subperm path

theorem keepsGroup_nil : KeepsGroup [] :=
  fun consumes => by simp at consumes

/-- A transaction that is alone in its block keeps its notes when it changes the account. -/
theorem keepsGroup_singleton (tx : RpcTransactionRecord)
    (changes : tx.initialState ≠ tx.finalState) : KeepsGroup [tx] := by
  intro _
  refine ⟨[tx], List.IsChain.singleton tx, List.nodup_singleton _, ?_, ?_, ?_⟩
  · intro first head
    rw [← Option.some.inj head]
    simpa using changes
  · intro other member
    rw [List.mem_singleton.mp member]
    simp
  · exact List.filter_sublist.subperm

theorem LinkedFrom.linked {state : Word} {path : List RpcTransactionRecord}
    (linkedFrom : LinkedFrom state path) : Linked path := by
  induction path generalizing state with
  | nil => exact List.IsChain.nil
  | cons tx rest inductionHypothesis =>
    cases rest with
    | nil => exact List.IsChain.singleton tx
    | cons next later =>
      exact List.isChain_cons_cons.mpr ⟨linkedFrom.2.1, inductionHypothesis linkedFrom.2⟩

theorem initToTx_keyed (txs : List RpcTransactionRecord) (key : Word) (tx : RpcTransactionRecord)
    (found : (initToTx txs)[key]? = some tx) : tx.initialState = key :=
  (initToTx_getElem?_eq_some found).2

/-- Every visited transaction is one of the group, and none is visited twice. -/
theorem orderGroup_subperm (txs : List RpcTransactionRecord) : (orderGroup txs).Subperm txs := by
  rw [orderGroup]
  cases chainStart txs with
  | none => exact List.nil_subperm
  | some start =>
    have path := walk_isPath (initToTx txs) start.initialState (initToTx_keyed txs)
    refine List.subperm_of_subset path.distinct.of_map ?_
    exact fun tx member => (initToTx_getElem?_eq_some (path.entries tx member)).1

/-- The visited transactions contain all that consume notes exactly when a path does. -/
theorem filter_subperm_orderGroup_iff {txs segment : List RpcTransactionRecord}
    (linked : Linked segment) (perm : txs.Perm segment) :
    (txs.filter fun tx => tx.nullifiers ≠ []).Subperm (orderGroup txs) ↔ KeepsGroup txs := by
  constructor
  · rintro kept ⟨consumer, member, consumes⟩
    have visited : consumer ∈ orderGroup txs :=
      kept.subset (List.mem_filter.mpr ⟨member, by simpa using consumes⟩)
    rw [orderGroup] at kept visited
    cases found : chainStart txs with
    | none =>
      rw [found] at visited
      cases visited
    | some start =>
      rw [found] at kept
      have path := walk_isPath (initToTx txs) start.initialState (initToTx_keyed txs)
      refine ⟨walk (initToTx txs) start.initialState, path.linked.linked, path.distinct, ?_, ?_,
        kept⟩
      · intro first head
        have starts : first.initialState = start.initialState := by
          have linkedFrom := path.linked
          cases walked : walk (initToTx txs) start.initialState with
          | nil =>
            rw [walked] at head
            cases head
          | cons tx rest =>
            rw [walked] at head linkedFrom
            obtain rfl := Option.some.inj head
            exact linkedFrom.1
        rw [starts]
        exact (chainStart_eq_some found).2
      · intro tx passed
        rw [← initToTx_getElem?]
        exact path.entries tx passed
  · intro keeps
    by_cases consuming : ∃ tx ∈ txs, tx.nullifiers ≠ []
    · obtain ⟨path, linkedPath, distinct, starts, last, covers⟩ := keeps consuming
      obtain ⟨consumer, member, consumes⟩ := consuming
      have passed : consumer ∈ path :=
        covers.subset (List.mem_filter.mpr ⟨member, by simpa using consumes⟩)
      obtain ⟨first, head⟩ : ∃ first, path.head? = some first := by
        rw [← Option.isSome_iff_exists, List.isSome_head?]
        exact List.ne_nil_of_mem passed
      have isPath : IsPath (initToTx txs) first.initialState path :=
        ⟨linkedPath.linkedFrom head, distinct, fun tx onPath => by
          rw [initToTx_getElem?]
          exact last tx onPath⟩
      have firstEntry := isPath.entries first (List.mem_of_head? head)
      rw [orderGroup_of_start linked perm (initToTx_getElem?_eq_some firstEntry).1
        (starts first head)]
      exact covers.trans isPath.prefix_walk.sublist.subperm
    · push Not at consuming
      rw [List.filter_eq_nil_iff.mpr (by simpa using consuming)]
      exact List.nil_subperm

/-- Nothing is lost exactly when every group of an account and a block keeps its notes. -/
theorem computeOrderedNullifiers_perm_iff_keepsGroup {records : List RpcTransactionRecord}
    {chain : AccountId → List RpcTransactionRecord} (lists : ListsChains records chain) :
    (computeOrderedNullifiers records).Perm (records.flatMap RpcTransactionRecord.nullifiers) ↔
      ∀ account block,
        KeepsGroup (records.filter fun record => groupKey record = toLex (account, block)) := by
  have regrouped : (records.flatMap RpcTransactionRecord.nullifiers).Perm
      ((Grouping.groupKeys groupKey records).flatMap fun key =>
        (records.filter fun record => groupKey record = key).flatMap
          RpcTransactionRecord.nullifiers) := by
    rw [← List.flatMap_assoc]
    refine (Grouping.flatMap_filter_perm groupKey _ records ?_ ?_).symm.flatMap_right _
    · exact (Grouping.pairwise_lt_groupKeys groupKey records).imp fun below => below.ne
    · exact fun record member => (Grouping.mem_groupKeys_iff groupKey records _).mpr
        ⟨record, member, rfl⟩
  have group : ∀ key : AccountId ×ₗ BlockNumber,
      ((orderGroup (records.filter fun record => groupKey record = key)).flatMap
          RpcTransactionRecord.nullifiers).Perm
        ((records.filter fun record => groupKey record = key).flatMap
          RpcTransactionRecord.nullifiers) ↔
      KeepsGroup (records.filter fun record => groupKey record = key) := by
    intro key
    obtain ⟨account, block⟩ := key
    rw [Grouping.flatMap_perm_iff_filter_subperm _ (orderGroup_subperm _)]
    exact filter_subperm_orderGroup_iff ((lists.linked account).linked_block block)
      (lists.filter_key_perm account block)
  have parts : ∀ key ∈ Grouping.groupKeys groupKey records,
      ((orderGroup (records.filter fun record => groupKey record = key)).flatMap
          RpcTransactionRecord.nullifiers).Subperm
        ((records.filter fun record => groupKey record = key).flatMap
          RpcTransactionRecord.nullifiers) := by
    intro key _
    obtain ⟨kept, same, sublist⟩ :=
      orderGroup_subperm (records.filter fun record => groupKey record = key)
    exact ⟨_, same.flatMap_right _, sublist.flatMap _⟩
  rw [computeOrderedNullifiers_eq_flatMap]
  refine ⟨fun together account block => ?_, fun keeps => ?_⟩
  · by_cases listed : toLex (account, block) ∈ Grouping.groupKeys groupKey records
    · exact (group _).mp ((Grouping.flatMap_perm_flatMap_iff _ _ _ parts).mp
        (together.trans regrouped) _ listed)
    · rintro ⟨tx, member, _⟩
      obtain ⟨inRecords, key⟩ := List.mem_filter.mp member
      exact absurd ((Grouping.mem_groupKeys_iff groupKey records _).mpr
        ⟨tx, inRecords, of_decide_eq_true key⟩) listed
  · refine ((Grouping.flatMap_perm_flatMap_iff _ _ _ parts).mpr ?_).trans regrouped.symm
    intro key _
    exact (group key).mpr (keeps (ofLex key).1 (ofLex key).2)

/-! ### Chains with transactions that leave the account as it is -/

/-- The transaction leaves the account state commitment unchanged. -/
def PassThrough (tx : RpcTransactionRecord) : Prop :=
  tx.initialState = tx.finalState

/-- A pass-through transaction of a block is not the first of the account, no transaction after
it consumes a note, and it is listed last among those that start from its state. -/
def KeepsPassThroughs (txs segment : List RpcTransactionRecord) : Prop :=
  ∀ before tx after, segment = before ++ tx :: after → PassThrough tx →
    before ≠ [] ∧ (∀ other ∈ after, other.nullifiers = []) ∧
      (txs.filter fun other => other.initialState = tx.initialState).getLast? = some tx

/-- Every transaction that changes the account raises the nonce of its state. -/
def RaisesNonce (nonce : Word → ℕ) (segment : List RpcTransactionRecord) : Prop :=
  ∀ tx ∈ segment, ¬PassThrough tx → nonce tx.initialState < nonce tx.finalState

section Nonce

variable {nonce : Word → ℕ} {txs segment : List RpcTransactionRecord}

theorem RaisesNonce.le (raises : RaisesNonce nonce segment) {tx : RpcTransactionRecord}
    (member : tx ∈ segment) : nonce tx.initialState ≤ nonce tx.finalState := by
  by_cases same : PassThrough tx
  · exact (congrArg nonce same).le
  · exact (raises tx member same).le

theorem RaisesNonce.subset (raises : RaisesNonce nonce segment)
    {part : List RpcTransactionRecord} (included : part ⊆ segment) : RaisesNonce nonce part :=
  fun tx member => raises tx (included member)

/-- Nonces do not fall along linked transactions. -/
theorem Linked.nonce_le (linked : Linked segment) (raises : RaisesNonce nonce segment) :
    segment.Pairwise fun earlier later =>
      nonce earlier.finalState ≤ nonce later.initialState := by
  induction segment with
  | nil => exact List.Pairwise.nil
  | cons first rest inductionHypothesis =>
    have later := inductionHypothesis linked.tail (raises.subset (List.subset_cons_self first rest))
    refine List.pairwise_cons.mpr ⟨?_, later⟩
    cases rest with
    | nil => exact fun _ member => nomatch member
    | cons next others =>
      have step := (List.isChain_cons_cons.mp linked).1
      intro tx member
      rcases List.mem_cons.mp member with rfl | member
      · rw [step]
      · calc nonce first.finalState
            = nonce next.initialState := by rw [step]
          _ ≤ nonce next.finalState :=
            raises.le (List.mem_cons_of_mem first List.mem_cons_self)
          _ ≤ nonce tx.initialState := (List.pairwise_cons.mp later).1 tx member

/-- A path of a group never goes on behind a pass-through transaction. -/
theorem eq_nil_of_passThrough {before after : List RpcTransactionRecord}
    {tx : RpcTransactionRecord} (linked : Linked (before ++ tx :: after))
    (distinct : ((before ++ tx :: after).map RpcTransactionRecord.initialState).Nodup)
    (unchanged : PassThrough tx) : after = [] := by
  cases after with
  | nil => rfl
  | cons next later =>
    have step := (List.isChain_cons_cons.mp linked.right_of_append).1
    rw [List.map_append] at distinct
    have apart := (List.nodup_append.mp distinct).2.1
    rw [List.map_cons, List.map_cons, step, ← unchanged] at apart
    exact absurd List.mem_cons_self (List.nodup_cons.mp apart).1

/-- A group that keeps its notes treats its pass-through transactions well. -/
theorem KeepsGroup.keepsPassThroughs (keeps : KeepsGroup txs) (linked : Linked segment)
    (perm : txs.Perm segment) (raises : RaisesNonce nonce segment)
    (consume : ∀ tx ∈ segment, PassThrough tx → tx.nullifiers ≠ []) :
    KeepsPassThroughs txs segment := by
  rintro before tx after rfl unchanged
  have inSegment : tx ∈ before ++ tx :: after := List.mem_append_right _ List.mem_cons_self
  have consumes := consume tx inSegment unchanged
  obtain ⟨path, linkedPath, distinct, starts, last, covers⟩ :=
    keeps ⟨tx, perm.mem_iff.mpr inSegment, consumes⟩
  have passed : ∀ other ∈ before ++ tx :: after, other.nullifiers ≠ [] → other ∈ path := by
    intro other member consuming
    exact covers.subset
      (List.mem_filter.mpr ⟨perm.mem_iff.mpr member, by simpa using consuming⟩)
  have fromGroup : ∀ other ∈ path, other ∈ before ++ tx :: after := by
    intro other onPath
    exact perm.mem_iff.mp (List.mem_filter.mp (List.mem_of_getLast? (last other onPath))).1
  have onPath := passed tx inSegment consumes
  refine ⟨?_, ?_, last tx onPath⟩
  · rintro rfl
    obtain ⟨first, head⟩ : ∃ first, path.head? = some first := by
      rw [← Option.isSome_iff_exists, List.isSome_head?]
      exact List.ne_nil_of_mem onPath
    refine starts first head ((perm.map _).mem_iff.mpr ?_)
    rcases List.mem_cons.mp (fromGroup first (List.mem_of_head? head)) with rfl | later
    · rw [show first.initialState = first.finalState from unchanged]
      exact List.mem_cons_self
    · exact linked.initialState_mem first later
  · intro other later
    by_contra consuming
    have otherInSegment : other ∈ before ++ tx :: after :=
      List.mem_append_right _ (List.mem_cons_of_mem tx later)
    have otherOnPath := passed other otherInSegment consuming
    obtain ⟨early, late, rfl⟩ := List.append_of_mem onPath
    obtain rfl := eq_nil_of_passThrough linkedPath distinct unchanged
    rcases List.mem_append.mp otherOnPath with member | same
    · have inOrder := (List.pairwise_append.mp (linkedPath.nonce_le
        (raises.subset fromGroup))).2.2 other member tx List.mem_cons_self
      have behind := (List.pairwise_cons.mp (List.pairwise_append.mp
        (linked.nonce_le raises)).2.1).1 other later
      have stays : PassThrough other := by
        by_contra changes
        have rises := raises other otherInSegment changes
        rw [← show tx.initialState = tx.finalState from unchanged] at behind
        omega
      obtain ⟨front, back, rfl⟩ := List.append_of_mem member
      rw [List.append_assoc, List.cons_append] at linkedPath distinct
      have nothing := eq_nil_of_passThrough linkedPath distinct stays
      exact List.append_ne_nil_of_right_ne_nil back (List.cons_ne_nil tx []) nothing
    · obtain rfl := List.mem_singleton.mp same
      have once : List.count other (early ++ [other]) ≤ 1 :=
        List.nodup_iff_count_le_one.mp distinct.of_map other
      have twice : 2 ≤ List.count other (txs.filter fun tx => tx.nullifiers ≠ []) := by
        rw [List.count_filter (by simpa using consumes), perm.count_eq, List.count_append,
          List.count_cons_self]
        have again := List.count_pos_iff.mpr later
        omega
      exact absurd ((twice.trans (covers.count_le other)).trans once) (by omega)

instance (tx : RpcTransactionRecord) : Decidable (PassThrough tx) :=
  inferInstanceAs (Decidable (tx.initialState = tx.finalState))

/-- The part of a segment up to its first pass-through transaction. -/
theorem exists_clean_append (segment : List RpcTransactionRecord) :
    ∃ clean rest, segment = clean ++ rest ∧ (∀ tx ∈ clean, ¬PassThrough tx) ∧
      ∀ tx ∈ rest.head?, PassThrough tx := by
  refine ⟨segment.takeWhile fun tx => ¬PassThrough tx, segment.dropWhile fun tx => ¬PassThrough tx,
    List.takeWhile_append_dropWhile.symm, ?_, ?_⟩
  · intro tx member
    simpa using List.mem_takeWhile_imp member
  · intro tx head
    have stops := List.head?_dropWhile_not (fun tx => decide (¬PassThrough tx)) segment
    rw [Option.mem_def.mp head] at stops
    simpa using stops

/-- A transaction before the first pass-through starts below everything after it. -/
theorem Linked.nonce_lt_of_clean {clean rest : List RpcTransactionRecord}
    (linked : Linked (clean ++ rest)) (raises : RaisesNonce nonce (clean ++ rest))
    (changing : ∀ tx ∈ clean, ¬PassThrough tx) :
    (clean.Pairwise fun earlier later =>
      nonce earlier.initialState < nonce later.initialState) ∧
    ∀ earlier ∈ clean, ∀ later ∈ rest,
      nonce earlier.initialState < nonce later.initialState := by
  have rises : ∀ tx ∈ clean, nonce tx.initialState < nonce tx.finalState := fun tx member =>
    raises tx (List.mem_append_left rest member) (changing tx member)
  obtain ⟨inClean, -, across⟩ := List.pairwise_append.mp (linked.nonce_le raises)
  refine ⟨?_, fun earlier early later late =>
    (rises earlier early).trans_le (across earlier early later late)⟩
  exact inClean.imp_of_mem fun early _ below => (rises _ early).trans_le below

/-- Good treatment of the pass-through transactions is enough. -/
theorem KeepsPassThroughs.keepsGroup (keeps : KeepsPassThroughs txs segment)
    (linked : Linked segment) (perm : txs.Perm segment) (raises : RaisesNonce nonce segment) :
    KeepsGroup txs := by
  rintro ⟨consumer, consumerListed, -⟩
  obtain ⟨clean, rest, rfl, changing, stops⟩ := exists_clean_append segment
  obtain ⟨cleanBelow, restAbove⟩ := linked.nonce_lt_of_clean raises changing
  have firstStop : ∀ tx ∈ rest.take 1, ∃ after, rest = tx :: after ∧ PassThrough tx := by
    intro tx member
    cases rest with
    | nil => cases member
    | cons first after =>
      obtain rfl := List.mem_singleton.mp member
      exact ⟨after, rfl, stops tx rfl⟩
  have distinct : ((clean ++ rest.take 1).map RpcTransactionRecord.initialState).Nodup := by
    refine List.pairwise_map.mpr (List.pairwise_append.mpr ⟨?_, ?_, ?_⟩)
    · exact cleanBelow.imp fun below same => below.ne (congrArg nonce same)
    · cases rest with
      | nil => exact List.Pairwise.nil
      | cons first after => exact List.pairwise_singleton _ _
    · intro earlier early later late same
      exact (restAbove earlier early later (List.mem_of_mem_take late)).ne (congrArg nonce same)
  refine ⟨clean ++ rest.take 1, ?_, distinct, ?_, ?_, ?_⟩
  · exact linked.prefix ((List.prefix_append_right_inj clean).mpr (List.take_prefix 1 rest))
  · intro first head
    cases clean with
    | nil =>
      obtain ⟨after, split, unchanged⟩ := firstStop first (List.mem_of_head? head)
      exact absurd rfl (keeps [] first after split unchanged).1
    | cons start others =>
      obtain rfl := Option.some.inj head
      rw [(perm.map _).mem_iff]
      intro member
      obtain ⟨tx, listed, same⟩ := List.mem_map.mp member
      have startRises := raises start (by simp) (changing start List.mem_cons_self)
      have startBelow : nonce start.finalState ≤ nonce tx.finalState := by
        rcases List.mem_cons.mp listed with rfl | later
        · exact le_rfl
        · exact ((List.pairwise_cons.mp (linked.nonce_le raises)).1 tx later).trans
            (raises.le listed)
      rw [same] at startBelow
      omega
  · intro tx onPath
    rcases List.mem_append.mp onPath with early | late
    · have listed : tx ∈ txs.filter fun other => other.initialState = tx.initialState :=
        List.mem_filter.mpr ⟨perm.mem_iff.mpr (List.mem_append_left rest early), by simp⟩
      obtain ⟨last, ends⟩ : ∃ last,
          (txs.filter fun other => other.initialState = tx.initialState).getLast? = some last := by
        rw [← Option.isSome_iff_exists, List.getLast?_isSome]
        exact List.ne_nil_of_mem listed
      obtain ⟨lastListed, same⟩ := List.mem_filter.mp (List.mem_of_getLast? ends)
      have sameStart : last.initialState = tx.initialState := by simpa using same
      rcases List.mem_append.mp (perm.mem_iff.mp lastListed) with inClean | inRest
      · rw [ends, List.inj_on_of_nodup_map distinct (List.mem_append_left _ inClean) onPath
          sameStart]
      · exact absurd (congrArg nonce sameStart) (restAbove tx early last inRest).ne'
    · obtain ⟨after, split, unchanged⟩ := firstStop tx late
      exact (keeps clean tx after (by rw [split]) unchanged).2.2
  · have restConsumers : (rest.filter fun tx => tx.nullifiers ≠ []).Sublist (rest.take 1) := by
      cases rest with
      | nil => exact List.Sublist.refl []
      | cons first after =>
        have silent := (keeps clean first after rfl (stops first rfl)).2.1
        rw [List.filter_cons, List.filter_eq_nil_iff.mpr (by simpa using silent)]
        split
        · exact List.Sublist.refl _
        · exact List.nil_sublist _
    refine (perm.filter _).subperm.trans ?_
    rw [List.filter_append]
    exact (List.filter_sublist.append restConsumers).subperm

end Nonce

/-- Ordering loses no nullifier exactly when every group keeps its notes. Where every
transaction that changes the account raises the nonce of its state, and every one that does
not consumes a note, that is the case exactly when each pass-through transaction is preceded
in its block, followed there by no transaction that consumes notes, and listed last among the
transactions of the block that start from its state. -/
theorem computeOrderedNullifiers_perm_iff (records : List RpcTransactionRecord)
    (chain : AccountId → List RpcTransactionRecord) (lists : ListsChains records chain) :
    ((computeOrderedNullifiers records).Perm
        (records.flatMap RpcTransactionRecord.nullifiers) ↔
      ∀ account block,
        KeepsGroup (records.filter fun record => groupKey record = toLex (account, block))) ∧
    ∀ nonce : Word → ℕ, RaisesNonce nonce records →
      (∀ record ∈ records, PassThrough record → record.nullifiers ≠ []) →
      ((computeOrderedNullifiers records).Perm
          (records.flatMap RpcTransactionRecord.nullifiers) ↔
        ∀ account block,
          KeepsPassThroughs
            (records.filter fun record => groupKey record = toLex (account, block))
            ((chain account).filter fun record => record.blockNum = block)) := by
  have keeps := computeOrderedNullifiers_perm_iff_keepsGroup lists
  refine ⟨keeps, fun nonce raises consume => keeps.trans ?_⟩
  refine forall_congr' fun account => forall_congr' fun block => ?_
  have linked := (lists.linked account).linked_block block
  have perm := lists.filter_key_perm account block
  have included : ∀ tx ∈ (chain account).filter fun record => record.blockNum = block,
      tx ∈ records := fun tx member =>
    ((lists.mem_chain_iff account tx).mp (List.mem_filter.mp member).1).1
  refine ⟨fun group => ?_, fun passThroughs => ?_⟩
  · exact group.keepsPassThroughs linked perm (raises.subset included) fun tx member =>
      consume tx (included tx member)
  · exact passThroughs.keepsGroup linked perm (raises.subset included)

/-- Account 1 consumes note 5 in block 3 without changing its state. -/
def lonePassThrough : List RpcTransactionRecord :=
  [⟨3, ⟨21, 1, 10, 10, [5]⟩⟩]

/-- The nullifier of a pass-through transaction that is alone in its block is lost. -/
theorem not_computeOrderedNullifiers_perm_lone :
    ListsChains lonePassThrough (chainOfFirst lonePassThrough) ∧
      ¬(computeOrderedNullifiers lonePassThrough).Perm
        (lonePassThrough.flatMap RpcTransactionRecord.nullifiers) := by
  refine ⟨listsChains_chainOfFirst _ (by decide) (by simp [IsExecutionChain, lonePassThrough]), ?_⟩
  decide

/-- Account 1 changes its state and then consumes note 5 without changing it again. -/
def precededPassThrough : List RpcTransactionRecord :=
  [⟨3, ⟨20, 1, 9, 10, []⟩⟩, ⟨3, ⟨21, 1, 10, 10, [5]⟩⟩]

/-- The nullifier is kept when the account changed its state in the same block before. -/
theorem computeOrderedNullifiers_perm_iff_preceded :
    (computeOrderedNullifiers precededPassThrough).Perm [5] := by
  have lists : ListsChains precededPassThrough (chainOfFirst precededPassThrough) :=
    listsChains_chainOfFirst _ (by decide) (by simp [IsExecutionChain, precededPassThrough])
  refine ((computeOrderedNullifiers_perm_iff precededPassThrough _ lists).2 id ?_ ?_).mpr ?_
  · simp [RaisesNonce, PassThrough, precededPassThrough]
  · simp [PassThrough, precededPassThrough]
  · intro account block before tx after split unchanged
    by_cases first : account = 1
    · by_cases third : block = 3
      · subst first third
        have segment : before ++ tx :: after = precededPassThrough := split.symm
        rcases before with _ | ⟨start, _ | ⟨next, others⟩⟩
        · rw [List.nil_append, precededPassThrough, List.cons.injEq] at segment
          rw [segment.1] at unchanged
          exact absurd unchanged (by decide)
        · simp only [precededPassThrough, List.cons_append, List.nil_append, List.cons.injEq]
            at segment
          obtain ⟨-, rfl, rfl⟩ := segment
          exact ⟨List.cons_ne_nil start [], by simp, by decide⟩
        · simp [precededPassThrough] at segment
      · rw [chainOfFirst, if_pos first, List.filter_eq_nil_iff.mpr] at split
        · simp at split
        · simp [precededPassThrough, Ne.symm third]
    · rw [chainOfFirst, if_neg first] at split
      simp at split

end MidenClient
