/-
This file models `compute_ordered_nullifiers` (`rust-client/src/sync/state_sync.rs`).

The records are grouped by account and block. In each group the code looks for a
transaction whose initial state no transaction of the group produces, and walks from
there over a map from initial states to transactions, removing every step it takes.
The loop of the source has no measure of its own; the model carries fuel, and since
each step removes an entry, one more unit than the map has entries is enough.

Where the states of a chain are distinct the walk is the chain. A transaction that
leaves the account state unchanged breaks this: it hides the start of its group when
it comes first, and it shares its key with the transaction after it.
-/

import MidenClient.Sync.TransactionRecords

namespace MidenClient

open Std (ExtTreeMap)

/-! ### The walk over one group -/

/-- Walks the chain from a state, removing each step from the map. Nothing is returned when
the fuel runs out. -/
def walkWithFuel : ℕ → ExtTreeMap Word RpcTransactionRecord → Word →
    Option (List RpcTransactionRecord)
  | 0, _, _ => none
  | fuel + 1, initToTx, state =>
    match initToTx[state]? with
    | none => some []
    | some tx => (walkWithFuel fuel (initToTx.erase state) tx.finalState).map (tx :: ·)

/-- The walk terminates: every step but the last removes an entry of the map. -/
theorem walkWithFuel_isSome (fuel : ℕ) (initToTx : ExtTreeMap Word RpcTransactionRecord)
    (state : Word) (enough : initToTx.size < fuel) :
    (walkWithFuel fuel initToTx state).isSome = true := by
  induction fuel generalizing initToTx state with
  | zero => omega
  | succ fuel inductionHypothesis =>
    rw [walkWithFuel]
    cases found : initToTx[state]? with
    | none => rfl
    | some tx =>
      have smaller := OrderedMap.size_erase_of_getElem? found
      rw [Option.isSome_map]
      exact inductionHypothesis _ _ (by omega)

/-- The transactions visited from a state. -/
def walk (initToTx : ExtTreeMap Word RpcTransactionRecord) (state : Word) :
    List RpcTransactionRecord :=
  (walkWithFuel (initToTx.size + 1) initToTx state).get
    (walkWithFuel_isSome _ initToTx state (Nat.lt_succ_self _))

/-- A lookup from initial state commitment to transaction record. -/
def initToTx (txs : List RpcTransactionRecord) : ExtTreeMap Word RpcTransactionRecord :=
  ExtTreeMap.ofList (txs.map fun tx => (tx.initialState, tx))

/-- The chain start: the first transaction whose initial state is not the final state of any
transaction of the group. -/
def chainStart (txs : List RpcTransactionRecord) : Option RpcTransactionRecord :=
  let finalStates := txs.map RpcTransactionRecord.finalState
  txs.find? fun tx => !finalStates.contains tx.initialState

/-- The transactions of a group that are visited, in the order of the visit. -/
def orderGroup (txs : List RpcTransactionRecord) : List RpcTransactionRecord :=
  match chainStart txs with
  | none => []
  | some start => walk (initToTx txs) start.initialState

def groupKey (record : RpcTransactionRecord) : AccountId ×ₗ BlockNumber :=
  toLex (record.accountId, record.blockNum)

/-- Returns nullifiers ordered by consuming transaction position, per account. -/
def computeOrderedNullifiers (records : List RpcTransactionRecord) : List Nullifier :=
  (Grouping.groupBy groupKey records).toList.flatMap fun group =>
    (orderGroup group.2).flatMap RpcTransactionRecord.nullifiers

/-! ### Paths in the map -/

theorem walkWithFuel_mono (fuel more : ℕ) (initToTx : ExtTreeMap Word RpcTransactionRecord)
    (state : Word) (visited : List RpcTransactionRecord) (enough : fuel ≤ more)
    (returned : walkWithFuel fuel initToTx state = some visited) :
    walkWithFuel more initToTx state = some visited := by
  induction fuel generalizing more initToTx state visited with
  | zero => cases returned
  | succ fuel inductionHypothesis =>
    obtain ⟨extra, rfl⟩ : ∃ extra, more = extra + 1 := ⟨more - 1, by omega⟩
    rw [walkWithFuel] at returned ⊢
    cases found : initToTx[state]? with
    | none =>
      rw [found] at returned
      exact returned
    | some tx =>
      simp only [found, Option.map_eq_some_iff] at returned ⊢
      obtain ⟨rest, walked, rfl⟩ := returned
      exact ⟨rest, inductionHypothesis extra _ _ _ (Nat.le_of_succ_le_succ enough) walked, rfl⟩

theorem walkWithFuel_eq_walk (fuel : ℕ) (initToTx : ExtTreeMap Word RpcTransactionRecord)
    (state : Word) (enough : initToTx.size < fuel) :
    walkWithFuel fuel initToTx state = some (walk initToTx state) :=
  walkWithFuel_mono _ fuel _ _ _ enough (Option.some_get _).symm

theorem walk_of_none {initToTx : ExtTreeMap Word RpcTransactionRecord} {state : Word}
    (absent : initToTx[state]? = none) : walk initToTx state = [] := by
  have returned := walkWithFuel_eq_walk (initToTx.size + 1) initToTx state (Nat.lt_succ_self _)
  rw [walkWithFuel, absent] at returned
  exact (Option.some.inj returned).symm

theorem walk_of_some {initToTx : ExtTreeMap Word RpcTransactionRecord} {state : Word}
    {tx : RpcTransactionRecord} (found : initToTx[state]? = some tx) :
    walk initToTx state = tx :: walk (initToTx.erase state) tx.finalState := by
  have smaller : (initToTx.erase state).size < initToTx.size + 1 :=
    Nat.lt_succ_of_le ExtTreeMap.size_erase_le
  have returned := walkWithFuel_eq_walk (initToTx.size + 2) initToTx state (by omega)
  rw [walkWithFuel, found] at returned
  simp only [walkWithFuel_eq_walk _ _ _ smaller, Option.map_some, Option.some.injEq] at returned
  exact returned.symm

/-- Each transaction starts where the previous one ended, the first one at the given state. -/
def LinkedFrom : Word → List RpcTransactionRecord → Prop
  | _, [] => True
  | state, tx :: rest => tx.initialState = state ∧ LinkedFrom tx.finalState rest

/-- A path in the map: linked entries of the map with distinct initial states. -/
structure IsPath (initToTx : ExtTreeMap Word RpcTransactionRecord) (state : Word)
    (path : List RpcTransactionRecord) : Prop where
  linked : LinkedFrom state path
  distinct : (path.map RpcTransactionRecord.initialState).Nodup
  entries : ∀ tx ∈ path, initToTx[tx.initialState]? = some tx

/-- The walk follows every path from its state to the end. -/
theorem IsPath.prefix_walk {initToTx : ExtTreeMap Word RpcTransactionRecord} {state : Word}
    {path : List RpcTransactionRecord} (isPath : IsPath initToTx state path) :
    path <+: walk initToTx state := by
  induction path generalizing initToTx state with
  | nil => exact List.nil_prefix
  | cons tx rest inductionHypothesis =>
    obtain ⟨rfl, linked⟩ := isPath.linked
    obtain ⟨fresh, distinct⟩ := List.nodup_cons.mp isPath.distinct
    rw [walk_of_some (isPath.entries tx List.mem_cons_self), List.prefix_cons_inj]
    refine inductionHypothesis ⟨linked, distinct, ?_⟩
    intro other member
    have different : tx.initialState ≠ other.initialState := fun same =>
      fresh (same ▸ List.mem_map_of_mem member)
    exact (OrderedMap.getElem?_erase_eq_some_iff _ _ _ _).mpr
      ⟨different, isPath.entries other (List.mem_cons_of_mem tx member)⟩

/-- The walk is itself a path, in a map that stores transactions under their initial states. -/
theorem walk_isPath (initToTx : ExtTreeMap Word RpcTransactionRecord) (state : Word)
    (keyed : ∀ (key : Word) (tx : RpcTransactionRecord), initToTx[key]? = some tx →
      tx.initialState = key) :
    IsPath initToTx state (walk initToTx state) := by
  induction size : initToTx.size generalizing initToTx state with
  | zero =>
    have absent : initToTx[state]? = none := by
      rw [ExtTreeMap.eq_empty_iff_size_eq_zero.mpr size]
      simp
    rw [walk_of_none absent]
    exact ⟨trivial, List.nodup_nil, fun _ member => nomatch member⟩
  | succ size inductionHypothesis =>
    cases found : initToTx[state]? with
    | none =>
      rw [walk_of_none found]
      exact ⟨trivial, List.nodup_nil, fun _ member => nomatch member⟩
    | some tx =>
      have erased := OrderedMap.getElem?_erase_eq_some_iff initToTx state
      have smaller := OrderedMap.size_erase_of_getElem? found
      have rest := inductionHypothesis (initToTx.erase state) tx.finalState
        (fun key other kept => keyed key other ((erased key other).mp kept).2) (by omega)
      have starts := keyed state tx found
      rw [walk_of_some found]
      refine ⟨⟨starts, rest.linked⟩, List.nodup_cons.mpr ⟨?_, rest.distinct⟩, ?_⟩
      · intro repeated
        obtain ⟨other, member, same⟩ := List.mem_map.mp repeated
        exact ((erased _ other).mp (rest.entries other member)).1 (starts.symm.trans same.symm)
      · intro other member
        rcases List.mem_cons.mp member with rfl | later
        · rw [starts, found]
        · exact ((erased _ other).mp (rest.entries other later)).2

/-! ### One group of a chain -/

/-- Each transaction starts from the state the previous one ended in. -/
def Linked (segment : List RpcTransactionRecord) : Prop :=
  segment.IsChain fun earlier later => later.initialState = earlier.finalState

theorem Linked.linkedFrom {segment : List RpcTransactionRecord} (linked : Linked segment)
    {first : RpcTransactionRecord} (starts : segment.head? = some first) :
    LinkedFrom first.initialState segment := by
  induction segment generalizing first with
  | nil => cases starts
  | cons tx rest inductionHypothesis =>
    obtain rfl := Option.some.inj starts
    refine ⟨rfl, ?_⟩
    cases rest with
    | nil => trivial
    | cons next later =>
      obtain ⟨step, others⟩ := List.isChain_cons_cons.mp linked
      rw [← step]
      exact inductionHypothesis others rfl

/-- Behind the first transaction of a segment, every initial state is a final state. -/
theorem Linked.initialState_mem {first : RpcTransactionRecord}
    {rest : List RpcTransactionRecord} (linked : Linked (first :: rest)) :
    ∀ tx ∈ rest, tx.initialState ∈ (first :: rest).map RpcTransactionRecord.finalState := by
  induction rest generalizing first with
  | nil => exact fun _ member => nomatch member
  | cons next later inductionHypothesis =>
    obtain ⟨step, others⟩ := List.isChain_cons_cons.mp linked
    intro tx member
    rcases List.mem_cons.mp member with rfl | member
    · rw [step]
      exact List.mem_cons_self
    · exact List.mem_cons_of_mem _ (inductionHypothesis others tx member)

/-- A transaction that starts from no final state starts where the segment starts. -/
theorem Linked.initialState_eq_head {txs segment : List RpcTransactionRecord}
    (linked : Linked segment) (perm : txs.Perm segment) {tx : RpcTransactionRecord}
    (member : tx ∈ txs) (fresh : tx.initialState ∉ txs.map RpcTransactionRecord.finalState) :
    ∃ first, segment.head? = some first ∧ first.initialState = tx.initialState := by
  rw [(perm.map _).mem_iff] at fresh
  cases segment with
  | nil => cases perm.mem_iff.mp member
  | cons first rest =>
    refine ⟨first, rfl, ?_⟩
    rcases List.mem_cons.mp (perm.mem_iff.mp member) with rfl | later
    · rfl
    · exact absurd (linked.initialState_mem tx later) fresh

theorem initToTx_getElem? (txs : List RpcTransactionRecord) (state : Word) :
    (initToTx txs)[state]? = (txs.filter fun tx => tx.initialState = state).getLast? := by
  rw [initToTx, OrderedMap.getElem?_ofList, List.filter_map, List.getLast?_map, Option.map_map]
  simp [Function.comp_def]

theorem initToTx_getElem?_eq_some {txs : List RpcTransactionRecord} {state : Word}
    {tx : RpcTransactionRecord} (found : (initToTx txs)[state]? = some tx) :
    tx ∈ txs ∧ tx.initialState = state := by
  rw [initToTx_getElem?] at found
  simpa using List.mem_of_getLast? found

theorem chainStart_eq_some {txs : List RpcTransactionRecord} {start : RpcTransactionRecord}
    (found : chainStart txs = some start) :
    start ∈ txs ∧ start.initialState ∉ txs.map RpcTransactionRecord.finalState := by
  refine ⟨List.mem_of_find?_eq_some found, ?_⟩
  simpa using List.find?_some found

theorem chainStart_isSome_iff (txs : List RpcTransactionRecord) :
    (chainStart txs).isSome = true ↔
      ∃ tx ∈ txs, tx.initialState ∉ txs.map RpcTransactionRecord.finalState := by
  rw [chainStart, List.find?_isSome]
  simp

/-- From a start, the visited transactions of a group of a chain are a path. -/
theorem orderGroup_of_start {txs segment : List RpcTransactionRecord} (linked : Linked segment)
    (perm : txs.Perm segment) {tx : RpcTransactionRecord} (member : tx ∈ txs)
    (fresh : tx.initialState ∉ txs.map RpcTransactionRecord.finalState) :
    orderGroup txs = walk (initToTx txs) tx.initialState := by
  obtain ⟨start, found⟩ := Option.isSome_iff_exists.mp
    ((chainStart_isSome_iff txs).mpr ⟨tx, member, fresh⟩)
  obtain ⟨listed, startFresh⟩ := chainStart_eq_some found
  obtain ⟨first, head, same⟩ := linked.initialState_eq_head perm member fresh
  obtain ⟨other, otherHead, otherSame⟩ := linked.initialState_eq_head perm listed startFresh
  rw [head] at otherHead
  obtain rfl := Option.some.inj otherHead
  rw [orderGroup, found]
  show walk (initToTx txs) start.initialState = _
  rw [← same, ← otherSame]

/-! ### Chains of distinct states -/

/-- The states a chain passes through, from the first to the last. -/
def visitedStates : List RpcTransactionRecord → List Word
  | [] => []
  | tx :: rest => tx.initialState :: (tx :: rest).map RpcTransactionRecord.finalState

/-- No transaction ends in a state that it or an earlier one starts from, and no two start
from one state. -/
structure NeverReturns (segment : List RpcTransactionRecord) : Prop where
  changes : ∀ tx ∈ segment, tx.initialState ≠ tx.finalState
  later : segment.Pairwise fun earlier later =>
    earlier.initialState ≠ later.initialState ∧ earlier.initialState ≠ later.finalState

theorem NeverReturns.sublist {segment part : List RpcTransactionRecord}
    (never : NeverReturns segment) (sublist : part.Sublist segment) : NeverReturns part :=
  ⟨fun tx member => never.changes tx (sublist.subset member), never.later.sublist sublist⟩

theorem neverReturns_of_nodup {chain : List RpcTransactionRecord} (linked : Linked chain)
    (distinct : (visitedStates chain).Nodup) : NeverReturns chain := by
  induction chain with
  | nil => exact ⟨fun _ member => (List.not_mem_nil member).elim, List.Pairwise.nil⟩
  | cons first rest inductionHypothesis =>
    obtain ⟨fresh, finals⟩ := List.nodup_cons.mp distinct
    have ends : ∀ tx ∈ first :: rest, first.initialState ≠ tx.finalState := by
      intro tx member same
      exact fresh (same ▸ List.mem_map_of_mem member)
    have starts : ∀ tx ∈ rest, first.initialState ≠ tx.initialState := by
      intro tx member same
      exact fresh (same ▸ linked.initialState_mem tx member)
    have never : NeverReturns rest := by
      refine inductionHypothesis linked.tail ?_
      cases rest with
      | nil => exact List.nodup_nil
      | cons next later =>
        have step := (List.isChain_cons_cons.mp linked).1
        rw [visitedStates, step]
        exact finals
    refine ⟨?_, List.pairwise_cons.mpr ⟨?_, never.later⟩⟩
    · intro tx member
      rcases List.mem_cons.mp member with rfl | member
      · exact ends tx List.mem_cons_self
      · exact never.changes tx member
    · intro tx member
      exact ⟨starts tx member, ends tx (List.mem_cons_of_mem first member)⟩

/-- Such a group is visited completely, in execution order. -/
theorem orderGroup_eq_segment {txs segment : List RpcTransactionRecord} (linked : Linked segment)
    (perm : txs.Perm segment) (never : NeverReturns segment) : orderGroup txs = segment := by
  cases segment with
  | nil =>
    rw [perm.eq_nil]
    rfl
  | cons first rest =>
    have inits : ((first :: rest).map RpcTransactionRecord.initialState).Nodup :=
      List.pairwise_map.mpr (never.later.imp fun apart => apart.1)
    have keys : ((txs.map fun tx => (tx.initialState, tx)).map Prod.fst).Nodup := by
      rw [List.map_map]
      exact (perm.map _).nodup_iff.mpr inits
    have entry : ∀ (state : Word) (tx : RpcTransactionRecord),
        (initToTx txs)[state]? = some tx ↔ tx ∈ first :: rest ∧ tx.initialState = state := by
      intro state tx
      rw [initToTx, OrderedMap.getElem?_ofList_eq_some_iff _ keys]
      simp only [List.mem_map, Prod.mk.injEq, perm.mem_iff]
      constructor
      · rintro ⟨other, member, same, rfl⟩
        exact ⟨member, same⟩
      · rintro ⟨member, same⟩
        exact ⟨tx, member, same, rfl⟩
    have fresh : first.initialState ∉ txs.map RpcTransactionRecord.finalState := by
      rw [(perm.map _).mem_iff, List.map_cons, List.mem_cons, not_or]
      refine ⟨never.changes first List.mem_cons_self, ?_⟩
      intro member
      obtain ⟨tx, listed, same⟩ := List.mem_map.mp member
      exact ((List.pairwise_cons.mp never.later).1 tx listed).2 same.symm
    rw [orderGroup_of_start linked perm (perm.mem_iff.mpr List.mem_cons_self) fresh]
    have path : IsPath (initToTx txs) first.initialState (first :: rest) :=
      ⟨linked.linkedFrom rfl, inits, fun tx member => (entry _ tx).mpr ⟨member, rfl⟩⟩
    have whole := walk_isPath (initToTx txs) first.initialState
      fun key tx found => ((entry key tx).mp found).2
    obtain ⟨extra, walked⟩ := path.prefix_walk
    cases extra with
    | nil => rw [← walked, List.append_nil]
    | cons tx more =>
      have visited : tx ∈ walk (initToTx txs) first.initialState := by
        rw [← walked]
        exact List.mem_append_right _ List.mem_cons_self
      have listed := ((entry _ tx).mp (whole.entries tx visited)).1
      have distinct := whole.distinct
      rw [← walked, List.map_append, List.map_cons] at distinct
      exact absurd rfl ((List.nodup_append.mp distinct).2.2 _ (List.mem_map_of_mem listed) _
        List.mem_cons_self)

/-! ### All groups -/

/-- The transactions of one block are linked to each other. -/
theorem IsExecutionChain.linked_block {chain : List RpcTransactionRecord}
    (linked : IsExecutionChain chain) (block : BlockNumber) :
    Linked (chain.filter fun tx => tx.blockNum = block) := by
  induction chain with
  | nil => exact List.IsChain.nil
  | cons first rest inductionHypothesis =>
    have later := inductionHypothesis linked.tail
    by_cases same : first.blockNum = block
    · rw [List.filter_cons_of_pos (by simpa using same)]
      refine List.IsChain.cons later ?_
      intro next head
      cases rest with
      | nil => cases head
      | cons second others =>
        obtain ⟨⟨step, _⟩, _⟩ := List.isChain_cons_cons.mp linked
        by_cases sameNext : second.blockNum = block
        · rw [List.filter_cons_of_pos (by simpa using sameNext)] at head
          rw [← Option.some.inj head]
          exact step
        · obtain ⟨member, inBlock⟩ := List.mem_filter.mp (List.mem_of_head? head)
          have blocks := List.pairwise_cons.mp linked.sorted
          have below : block ≤ second.blockNum := same ▸ blocks.1 second List.mem_cons_self
          have above : second.blockNum ≤ next.blockNum := by
            rcases List.mem_cons.mp member with rfl | member
            · exact le_rfl
            · exact (List.pairwise_cons.mp blocks.2).1 next member
          have reached : next.blockNum = block := by simpa using inBlock
          exact absurd (le_antisymm (above.trans reached.le) below) sameNext
    · rw [List.filter_cons_of_neg (by simpa using same)]
      exact later

theorem IsExecutionChain.linked {chain : List RpcTransactionRecord}
    (linked : IsExecutionChain chain) : Linked chain :=
  linked.imp fun _ _ step => step.1

/-- The accounts of the records in id order. -/
def accountsOf (records : List RpcTransactionRecord) : List AccountId :=
  (records.map RpcTransactionRecord.accountId).dedup.insertionSort (· ≤ ·)

/-- All transactions, account by account, and each account's in execution order. -/
def executionOrder (records : List RpcTransactionRecord)
    (chain : AccountId → List RpcTransactionRecord) : List RpcTransactionRecord :=
  (accountsOf records).flatMap chain

theorem accountsOf_nodup (records : List RpcTransactionRecord) : (accountsOf records).Nodup :=
  (List.perm_insertionSort _ _).nodup_iff.mpr (List.nodup_dedup _)

theorem accountsOf_sorted (records : List RpcTransactionRecord) :
    (accountsOf records).Pairwise (· < ·) := by
  have sorted : (accountsOf records).Pairwise (· ≤ ·) := List.pairwise_insertionSort _ _
  exact sorted.imp₂ (fun _ _ below apart => lt_of_le_of_ne below apart) (accountsOf_nodup records)

theorem mem_accountsOf (records : List RpcTransactionRecord) (account : AccountId) :
    account ∈ accountsOf records ↔ ∃ record ∈ records, record.accountId = account := by
  simp [accountsOf]

namespace ListsChains

variable {records : List RpcTransactionRecord} {chain : AccountId → List RpcTransactionRecord}

theorem filter_executionOrder (lists : ListsChains records chain) (account : AccountId) :
    ((executionOrder records chain).filter fun record => record.accountId = account) =
      chain account := by
  refine Grouping.filter_flatMap_of_key RpcTransactionRecord.accountId chain (accountsOf records)
    (accountsOf_nodup records) ?_ account ?_
  · exact fun account record member => ((lists.mem_chain_iff account record).mp member).2
  · intro absent
    refine List.eq_nil_iff_forall_not_mem.mpr fun record member => absent ?_
    obtain ⟨listed, owner⟩ := (lists.mem_chain_iff account record).mp member
    exact (mem_accountsOf records account).mpr ⟨record, listed, owner⟩

/-- One group of the execution order is the part of a chain that is in one block. -/
theorem filter_executionOrder_key (lists : ListsChains records chain) (account : AccountId)
    (block : BlockNumber) :
    ((executionOrder records chain).filter fun record =>
        groupKey record = toLex (account, block)) =
      (chain account).filter fun record => record.blockNum = block := by
  rw [← lists.filter_executionOrder account, List.filter_filter]
  refine List.filter_congr fun record _ => ?_
  simp [groupKey, and_comm]

theorem filter_key_perm (lists : ListsChains records chain) (account : AccountId)
    (block : BlockNumber) :
    (records.filter fun record => groupKey record = toLex (account, block)).Perm
      ((chain account).filter fun record => record.blockNum = block) := by
  have split : (records.filter fun record => groupKey record = toLex (account, block)) =
      (records.filter fun record => record.accountId = account).filter fun record =>
        record.blockNum = block := by
    rw [List.filter_filter]
    refine List.filter_congr fun record _ => ?_
    simp [groupKey, and_comm]
  rw [split]
  exact (lists.perm account).filter _

theorem executionOrder_sorted (lists : ListsChains records chain) :
    (executionOrder records chain).Pairwise fun first second =>
      groupKey first ≤ groupKey second := by
  refine List.pairwise_flatMap.mpr ⟨?_, ?_⟩
  · intro account _
    refine (lists.linked account).sorted.imp_of_mem ?_
    intro first second memberFirst memberSecond below
    have ownerFirst := ((lists.mem_chain_iff account first).mp memberFirst).2
    have ownerSecond := ((lists.mem_chain_iff account second).mp memberSecond).2
    rw [groupKey, groupKey, ownerFirst, ownerSecond, Prod.Lex.toLex_le_toLex]
    exact Or.inr ⟨rfl, below⟩
  · refine (accountsOf_sorted records).imp ?_
    intro first second below one memberOne two memberTwo
    have ownerOne := ((lists.mem_chain_iff first one).mp memberOne).2
    have ownerTwo := ((lists.mem_chain_iff second two).mp memberTwo).2
    rw [groupKey, groupKey, ownerOne, ownerTwo, Prod.Lex.toLex_le_toLex]
    exact Or.inl below

end ListsChains

/-- The groups are treated in key order. -/
theorem computeOrderedNullifiers_eq_flatMap (records : List RpcTransactionRecord) :
    computeOrderedNullifiers records =
      (Grouping.groupKeys groupKey records).flatMap fun key =>
        (orderGroup (records.filter fun record => groupKey record = key)).flatMap
          RpcTransactionRecord.nullifiers := by
  rw [computeOrderedNullifiers, Grouping.toList_groupBy, List.flatMap_map]

/-- On chains of pairwise distinct states the walk terminates in every group, and the
nullifiers are those of each account's transactions in execution order, accounts in id order,
however the node lists the records. -/
theorem computeOrderedNullifiers_of_distinct_states (records : List RpcTransactionRecord)
    (chain : AccountId → List RpcTransactionRecord) (lists : ListsChains records chain)
    (distinct : ∀ account, (visitedStates (chain account)).Nodup) :
    (∀ fuel map state, map.size < fuel → walkWithFuel fuel map state = some (walk map state)) ∧
    ∀ listed : List RpcTransactionRecord, listed.Perm records →
      computeOrderedNullifiers listed =
        (accountsOf records).flatMap fun account =>
          (chain account).flatMap RpcTransactionRecord.nullifiers := by
  refine ⟨walkWithFuel_eq_walk, fun listed same => ?_⟩
  have relisted := lists.of_perm same
  have group : ∀ key, orderGroup (listed.filter fun record => groupKey record = key) =
      (executionOrder records chain).filter fun record => groupKey record = key := by
    intro key
    obtain ⟨account, block⟩ := key
    have never := neverReturns_of_nodup (lists.linked account).linked (distinct account)
    refine (orderGroup_eq_segment ((lists.linked account).linked_block block)
      (relisted.filter_key_perm account block) (never.sublist List.filter_sublist)).trans ?_
    exact (lists.filter_executionOrder_key account block).symm
  have covered : ∀ record ∈ executionOrder records chain,
      groupKey record ∈ Grouping.groupKeys groupKey listed := by
    intro record member
    obtain ⟨account, _, inChain⟩ := List.mem_flatMap.mp member
    exact (Grouping.mem_groupKeys_iff groupKey listed _).mpr
      ⟨record, ((relisted.mem_chain_iff account record).mp inChain).1, rfl⟩
  calc computeOrderedNullifiers listed
      = ((Grouping.groupKeys groupKey listed).flatMap fun key =>
          (executionOrder records chain).filter fun record => groupKey record = key).flatMap
            RpcTransactionRecord.nullifiers := by
        rw [computeOrderedNullifiers_eq_flatMap, List.flatMap_assoc]
        simp only [group]
    _ = (executionOrder records chain).flatMap RpcTransactionRecord.nullifiers := by
        rw [Grouping.flatMap_filter_of_sorted groupKey _ _
          (Grouping.pairwise_lt_groupKeys groupKey listed) covered lists.executionOrder_sorted]
    _ = (accountsOf records).flatMap fun account =>
          (chain account).flatMap RpcTransactionRecord.nullifiers := List.flatMap_assoc

/-- Account 1 over three transactions and two blocks, listed out of order. -/
theorem computeOrderedNullifiers_of_distinct_states_threeRecords :
    computeOrderedNullifiers
        [⟨6, ⟨23, 1, 12, 13, [8]⟩⟩, ⟨5, ⟨22, 1, 11, 12, [6, 7]⟩⟩, ⟨5, ⟨21, 1, 10, 11, [5]⟩⟩] =
      [5, 6, 7, 8] := by
  rw [(computeOrderedNullifiers_of_distinct_states
    [⟨5, ⟨21, 1, 10, 11, [5]⟩⟩, ⟨5, ⟨22, 1, 11, 12, [6, 7]⟩⟩, ⟨6, ⟨23, 1, 12, 13, [8]⟩⟩]
    (chainOfFirst _) (listsChains_chainOfFirst _ (by decide) (by simp [IsExecutionChain]))
    ?_).2 _ (by decide)]
  · decide
  · intro account
    unfold chainOfFirst
    split <;> decide

end MidenClient
