/-
This file says when pruning the history of an account deletes exactly what it is asked to
(`prune_account_history` in `sqlite-store/src/account/accounts.rs`).

Nonces are field elements, which have up to 64 bits. The database keeps and compares them as signed
integers, so a nonce from 2^63 on counts as one below zero. Pruning is exact as long as the bound
and the nonces in the history of the account are on the same side of 2^63.
-/

import MidenClient.Sqlite.Rollback
import MidenClient.Sqlite.StaleDiscards

namespace MidenClient

open Std (ExtTreeMap)

/-- The number of elements of the field. -/
def feltModulus : ℕ := 2 ^ 64 - 2 ^ 32 + 1

namespace Database

/-! ### Deleting and counting -/

/-- Deletes the historical entries of an account whose nonces pass a test, and counts them. -/
def deleteOld {κ ν ρ : Type} [LinearOrder κ] (table : HistoryTable AccountId κ ν ρ)
    (accountId : AccountId) (old : ℕ → Bool) : HistoryTable AccountId κ ν ρ × ℕ :=
  (table.prune accountId old, table.historical.toList.countP fun entry =>
    (ofLex entry.1).1 = accountId ∧ old (ofLex (ofLex entry.1).2).1 = true)

/-- Deletes a code unless it is still referenced, and counts it. -/
def deleteOrphan (stillReferenced : Word → Bool) (state : Finset Word × ℕ) (commitment : Word) :
    Finset Word × ℕ :=
  if stillReferenced commitment then state
  else (state.1.erase commitment, state.2 + if commitment ∈ state.1 then 1 else 0)

/-- Whether a historical header is one of the account that was replaced up to the nonce. -/
def oldHeader (accountId : AccountId) (upToNonce : ℕ) (row : HistoricalHeaderRow) : Bool :=
  row.header.id = accountId ∧ nonceUpTo upToNonce row.replacedAtNonce

/-- Whether a code is the one of a remaining header or of a foreign account. -/
def stillReferenced (db : Database) (kept : List HistoricalHeaderRow) (foreignCodes : Finset Word)
    (commitment : Word) : Bool :=
  ((OrderedMap.values db.latestAccountHeaders).any fun row =>
    row.header.codeCommitment = commitment) ||
  (kept.any fun row => row.header.codeCommitment = commitment) || commitment ∈ foreignCodes

/-- `prune_account_history` with the number of deleted rows that it returns. -/
def pruneAccountHistoryRows (db : Database) (foreignCodes : Finset Word) (accountId : AccountId)
    (upToNonce : ℕ) : Database × ℕ :=
  let old := oldHeader accountId upToNonce
  let candidateCodeCommitments :=
    ((db.historicalAccountHeaders.filter old).map fun row => row.header.codeCommitment).dedup
  let kept := db.historicalAccountHeaders.filter fun row => ¬old row
  let slots := deleteOld db.accountStorage accountId (nonceUpTo upToNonce)
  let entries := deleteOld db.storageMapEntries accountId (nonceUpTo upToNonce)
  let assets := deleteOld db.accountAssets accountId (nonceUpTo upToNonce)
  let codes := candidateCodeCommitments.foldl
    (deleteOrphan (db.stillReferenced kept foreignCodes)) (db.accountCode, 0)
  ({ db with
    historicalAccountHeaders := kept
    accountStorage := slots.1
    storageMapEntries := entries.1
    accountAssets := assets.1
    accountCode := codes.1 },
    db.historicalAccountHeaders.countP old + slots.2 + entries.2 + assets.2 + codes.2)

/-- The rows of the tables that pruning deletes from. -/
def rowCount (db : Database) : ℕ :=
  db.historicalAccountHeaders.length + db.accountStorage.historical.size +
    db.storageMapEntries.historical.size + db.accountAssets.historical.size + db.accountCode.card

theorem length_filter_not_add_countP {α : Type} (old : α → Bool) (rows : List α) :
    (rows.filter fun row => ¬old row).length + rows.countP old = rows.length := by
  rw [← List.countP_eq_length_filter, Nat.add_comm,
    List.length_eq_countP_add_countP fun row => old row]

theorem deleteOld_count {κ ν ρ : Type} [LinearOrder κ] (table : HistoryTable AccountId κ ν ρ)
    (accountId : AccountId) (old : ℕ → Bool) :
    (deleteOld table accountId old).1.historical.size + (deleteOld table accountId old).2 =
      table.historical.size := by
  unfold deleteOld HistoryTable.prune
  dsimp only
  have counted := length_filter_not_add_countP (fun entry =>
    decide ((ofLex entry.1).1 = accountId ∧ old (ofLex (ofLex entry.1).2).1 = true))
    table.historical.toList
  simp only [decide_eq_true_eq] at counted
  rw [← ExtTreeMap.length_toList, ExtTreeMap.toList_filter, ← ExtTreeMap.length_toList]
  exact counted

theorem deleteOrphan_count (stillReferenced : Word → Bool) (state : Finset Word × ℕ)
    (commitment : Word) :
    (deleteOrphan stillReferenced state commitment).1.card +
      (deleteOrphan stillReferenced state commitment).2 = state.1.card + state.2 := by
  unfold deleteOrphan
  split
  · rfl
  · by_cases stored : commitment ∈ state.1
    · have counted := Finset.card_erase_add_one stored
      rw [if_pos stored]
      dsimp only
      omega
    · rw [if_neg stored, Finset.erase_eq_of_notMem stored]
      rfl

theorem foldl_deleteOrphan_count (stillReferenced : Word → Bool) (commitments : List Word)
    (state : Finset Word × ℕ) :
    (commitments.foldl (deleteOrphan stillReferenced) state).1.card +
      (commitments.foldl (deleteOrphan stillReferenced) state).2 = state.1.card + state.2 := by
  induction commitments generalizing state with
  | nil => rfl
  | cons commitment rest inductionHypothesis =>
    exact (inductionHypothesis _).trans (deleteOrphan_count stillReferenced state commitment)

theorem mem_deleteOrphan (stillReferenced : Word → Bool) (state : Finset Word × ℕ)
    (commitment code : Word) :
    code ∈ (deleteOrphan stillReferenced state commitment).1 ↔
      code ∈ state.1 ∧ ¬(code = commitment ∧ stillReferenced code = false) := by
  unfold deleteOrphan
  split
  · rename_i referenced
    refine ⟨fun stored => ⟨stored, ?_⟩, And.left⟩
    rintro ⟨rfl, orphan⟩
    rw [orphan] at referenced
    cases referenced
  · rename_i orphan
    rw [Finset.mem_erase, and_comm]
    refine and_congr_right fun _ => not_congr ⟨fun same => ⟨same, ?_⟩, And.left⟩
    rw [same]
    exact Bool.eq_false_iff.mpr orphan

/-- The codes among the candidates that are not referenced any more are deleted. -/
theorem mem_foldl_deleteOrphan (stillReferenced : Word → Bool) (commitments : List Word)
    (state : Finset Word × ℕ) (code : Word) :
    code ∈ (commitments.foldl (deleteOrphan stillReferenced) state).1 ↔
      code ∈ state.1 ∧ ¬(code ∈ commitments ∧ stillReferenced code = false) := by
  induction commitments generalizing state with
  | nil => simp
  | cons commitment rest inductionHypothesis =>
    rw [List.foldl_cons, inductionHypothesis, mem_deleteOrphan, List.mem_cons]
    tauto

/-- The tables after pruning. -/
theorem pruneAccountHistoryRows_fst (db : Database) (foreignCodes : Finset Word)
    (accountId : AccountId) (upToNonce : ℕ) :
    (db.pruneAccountHistoryRows foreignCodes accountId upToNonce).1 =
      db.pruneAccountHistory foreignCodes accountId upToNonce := by
  unfold pruneAccountHistoryRows pruneAccountHistory oldHeader stillReferenced
  refine mk.injEq .. ▸ ⟨Finset.ext fun code => ?_, rfl, rfl, rfl, rfl, rfl⟩
  rw [mem_foldl_deleteOrphan, Finset.mem_filter, List.mem_dedup]
  refine and_congr_right fun _ => not_congr (and_congr_right fun _ => ?_)
  simp only [Bool.or_eq_false_iff, List.any_eq_false, decide_eq_true_eq, decide_eq_false_iff_not,
    and_assoc, ne_eq]

/-- The returned number is that of the deleted rows. -/
theorem pruneAccountHistoryRows_count (db : Database) (foreignCodes : Finset Word)
    (accountId : AccountId) (upToNonce : ℕ) :
    (db.pruneAccountHistoryRows foreignCodes accountId upToNonce).1.rowCount +
      (db.pruneAccountHistoryRows foreignCodes accountId upToNonce).2 = db.rowCount := by
  have slots := deleteOld_count db.accountStorage accountId (nonceUpTo upToNonce)
  have entries := deleteOld_count db.storageMapEntries accountId (nonceUpTo upToNonce)
  have assets := deleteOld_count db.accountAssets accountId (nonceUpTo upToNonce)
  have headers := length_filter_not_add_countP (oldHeader accountId upToNonce)
    db.historicalAccountHeaders
  let kept := db.historicalAccountHeaders.filter fun row => ¬oldHeader accountId upToNonce row
  have codes := foldl_deleteOrphan_count (db.stillReferenced kept foreignCodes)
    ((db.historicalAccountHeaders.filter (oldHeader accountId upToNonce)).map fun row =>
      row.header.codeCommitment).dedup (db.accountCode, 0)
  unfold pruneAccountHistoryRows rowCount
  dsimp only [kept] at codes ⊢
  omega

/-! ### Exact pruning -/

/-- An entry of the account was replaced at the nonce. -/
def ReplacedIn (db : Database) (accountId : AccountId) (nonce : ℕ) : Prop :=
  (∃ row ∈ db.historicalAccountHeaders, row.header.id = accountId ∧ row.replacedAtNonce = nonce) ∨
    (∃ key, db.accountStorage.archived accountId nonce key ≠ none) ∨
      (∃ key, db.storageMapEntries.archived accountId nonce key ≠ none) ∨
        ∃ key, db.accountAssets.archived accountId nonce key ≠ none

/-- The second store is the first one without the historical entries of the account up to a
nonce. -/
structure WithoutOld (first second : Database) (accountId : AccountId) (upToNonce : ℕ) : Prop where
  latest : second.latestAccountHeaders = first.latestAccountHeaders
  headers : second.historicalAccountHeaders = first.historicalAccountHeaders.filter fun row =>
    ¬(row.header.id = accountId ∧ row.replacedAtNonce ≤ upToNonce)
  slots : first.accountStorage.LosesUpTo second.accountStorage accountId upToNonce
  entries : first.storageMapEntries.LosesUpTo second.storageMapEntries accountId upToNonce
  assets : first.accountAssets.LosesUpTo second.accountAssets accountId upToNonce

/-- The discarded states of the account have nonces above the bound, and none of them was replaced
by a state with a lower nonce. -/
structure DiscardsAbove [ProtocolLibrary] (db : Database) (accountId : AccountId) (upToNonce : ℕ)
    (discardedStates : List (AccountId × Word)) : Prop where
  latest : ∀ (id : AccountId) (row : HeaderRow), db.latestAccountHeaders[id]? = some row →
    row.header.id = accountId →
      row.header.toCommitment ∈ discardedStates.map Prod.snd → upToNonce < row.header.nonce
  historical : ∀ row ∈ db.historicalAccountHeaders, row.header.id = accountId →
    row.header.toCommitment ∈ discardedStates.map Prod.snd →
      upToNonce < row.header.nonce ∧ row.header.nonce ≤ row.replacedAtNonce

/-- Pruning deletes exactly the historical entries of the account that were replaced up to the
nonce, and the codes that nothing else refers to. It tells how many rows it deleted. What is undone
later above the nonce is restored as before. -/
structure PrunesExactly [ProtocolLibrary] (db : Database) (foreignCodes : Finset Word)
    (accountId : AccountId) (upToNonce : ℕ) (after : Database) (deleted : ℕ) : Prop where
  tables : db.WithoutOld after accountId upToNonce
  codes : ∀ code, code ∈ after.accountCode ↔ code ∈ db.accountCode ∧
    ¬((∃ row ∈ db.historicalAccountHeaders, row.header.id = accountId ∧
        row.replacedAtNonce ≤ upToNonce ∧ row.header.codeCommitment = code) ∧
      (∀ row : HeaderRow, row ∈ OrderedMap.values after.latestAccountHeaders →
        row.header.codeCommitment ≠ code) ∧
      (∀ row : HistoricalHeaderRow, row ∈ after.historicalAccountHeaders →
        row.header.codeCommitment ≠ code) ∧
      code ∉ foreignCodes)
  count : after.rowCount + deleted = db.rowCount
  undoes : ∀ forest discardedStates, db.DiscardsAbove accountId upToNonce discardedStates →
    ∀ id, (after.undoAccountState forest discardedStates).1.SameLatest
      (db.undoAccountState forest discardedStates).1 id

/-- The historical entries of the account and the bound have their nonces on the same side of
2^63. -/
def SameSide (db : Database) (accountId : AccountId) (upToNonce : ℕ) : Prop :=
  ∀ nonce, db.ReplacedIn accountId nonce → (nonce < 2 ^ 63 ↔ upToNonce < 2 ^ 63)

/-- On one side of 2^63 nonces are compared as they are, and on different sides the other way
round. -/
theorem nonceUpTo_iff {upToNonce nonce : ℕ} (bound : upToNonce < feltModulus)
    (field : nonce < feltModulus) :
    (nonceUpTo upToNonce nonce = true ↔ nonce ≤ upToNonce) ↔
      (nonce < 2 ^ 63 ↔ upToNonce < 2 ^ 63) := by
  unfold nonceUpTo u64ToValue
  unfold feltModulus at bound field
  rw [decide_eq_true_eq]
  by_cases low : nonce < 2 ^ 63
  · by_cases lowBound : upToNonce < 2 ^ 63
    · rw [if_pos low, if_pos lowBound]
      omega
    · rw [if_pos low, if_neg lowBound]
      omega
  · by_cases lowBound : upToNonce < 2 ^ 63
    · rw [if_neg low, if_pos lowBound]
      omega
    · rw [if_neg low, if_neg lowBound]
      omega

theorem losesUpTo_prune_iff {κ ν ρ : Type} [LinearOrder κ] (table : HistoryTable AccountId κ ν ρ)
    (accountId : AccountId) {upToNonce : ℕ} (bound : upToNonce < feltModulus)
    (field : ∀ nonce key, table.archived accountId nonce key ≠ none → nonce < feltModulus) :
    table.LosesUpTo (table.prune accountId (nonceUpTo upToNonce)) accountId upToNonce ↔
      ∀ nonce, (∃ key, table.archived accountId nonce key ≠ none) →
        (nonce < 2 ^ 63 ↔ upToNonce < 2 ^ 63) := by
  constructor
  · rintro ⟨-, rows⟩ nonce ⟨key, stored⟩
    rw [← nonceUpTo_iff bound (field nonce key stored)]
    have row := rows accountId nonce key
    rw [HistoryTable.archived_prune] at row
    simp only [true_and] at row
    constructor
    · intro old
      by_contra above
      rw [if_pos old, if_neg above] at row
      exact stored row.symm
    · intro below
      by_contra young
      rw [if_neg young, if_pos below] at row
      exact stored row
  · intro sides
    refine ⟨fun _ _ => rfl, fun owner nonce key => ?_⟩
    rw [HistoryTable.archived_prune]
    by_cases same : owner = accountId
    · subst same
      cases stored : table.archived owner nonce key with
      | none => rw [ite_self, ite_self]
      | some row =>
        have present : table.archived owner nonce key ≠ none := by
          rw [stored]
          exact Option.some_ne_none row
        have side := (nonceUpTo_iff bound (field nonce key present)).mpr
          (sides nonce ⟨key, present⟩)
        simp only [true_and, side]
    · rw [if_neg fun both => same both.1, if_neg fun both => same both.1]

/-! ### Undoing after pruning -/

variable [ProtocolLibrary] {first second : Database} {accountId other : AccountId}
  {upToNonce : ℕ}

omit [ProtocolLibrary] in
/-- Headers that were replaced above the bound are still there. -/
theorem WithoutOld.replacedAt_eq (without : first.WithoutOld second accountId upToNonce) {nonce : ℕ}
    (apart : other = accountId → upToNonce < nonce) :
    second.replacedAt other nonce = first.replacedAt other nonce := by
  unfold replacedAt
  rw [without.headers, List.filter_filter]
  refine List.filter_congr fun row _ => ?_
  rw [Bool.and_eq_left_iff_imp]
  intro found
  obtain ⟨own, replaced⟩ := of_decide_eq_true found
  refine decide_eq_true ?_
  rintro ⟨same, old⟩
  exact absurd (apart (own.symm.trans same)) (not_lt.mpr (replaced ▸ old))

theorem WithoutOld.restoreHeader (without : first.WithoutOld second accountId upToNonce)
    {minNonce : ℕ} (apart : other = accountId → upToNonce < minNonce) :
    (first.restoreHeader other minNonce).WithoutOld (second.restoreHeader other minNonce) accountId
      upToNonce := by
  unfold Database.restoreHeader
  rw [without.replacedAt_eq apart]
  split
  · exact ⟨congrArg (ExtTreeMap.erase · other) without.latest, without.headers,
      without.slots.clear other, without.entries.clear other, without.assets.clear other⟩
  · rw [foldl_replaceLatestHeader _ first, foldl_replaceLatestHeader _ second]
    exact ⟨foldl_replaceLatestHeader_congr _ _ _ without.latest, without.headers, without.slots,
      without.entries, without.assets⟩

omit [ProtocolLibrary] in
theorem WithoutOld.deleteHistorical (without : first.WithoutOld second accountId upToNonce)
    (other : AccountId) (nonces : List ℕ) :
    (first.deleteHistorical other nonces).WithoutOld (second.deleteHistorical other nonces)
      accountId upToNonce := by
  refine ⟨without.latest, ?_, without.slots.forget other nonces,
    without.entries.forget other nonces, without.assets.forget other nonces⟩
  show List.filter _ second.historicalAccountHeaders = List.filter _ (List.filter _ _)
  rw [without.headers, List.filter_filter, List.filter_filter]
  exact List.filter_congr fun row _ => Bool.and_comm _ _

/-- Undoing nonces above the bound, or of another account, does the same to both stores. -/
theorem WithoutOld.undoAccountNonces (without : first.WithoutOld second accountId upToNonce)
    {nonces : List ℕ} (apart : other = accountId → ∀ nonce ∈ nonces, upToNonce < nonce) :
    (first.undoAccountNonces other nonces).WithoutOld (second.undoAccountNonces other nonces)
      accountId upToNonce := by
  unfold Database.undoAccountNonces
  split
  · exact without
  · rename_i minNonce last
    refine (WithoutOld.restoreHeader ?_ fun same =>
      apart same minNonce (List.mem_of_getLast? last)).deleteHistorical other nonces
    rw [foldl_restore, foldl_restore]
    exact ⟨without.latest, without.headers, without.slots.foldl_restore oldSlot apart,
      without.entries.foldl_restore id apart, without.assets.foldl_restore id apart⟩

/-- The states to discard are found in both stores, and they have nonces above the bound. -/
theorem WithoutOld.resolveStates (without : first.WithoutOld second accountId upToNonce)
    {discardedStates : List (AccountId × Word)}
    (above : first.DiscardsAbove accountId upToNonce discardedStates) :
    second.resolveStates (discardedStates.map Prod.snd) =
        first.resolveStates (discardedStates.map Prod.snd) ∧
      ∀ state ∈ first.resolveStates (discardedStates.map Prod.snd), state.1 = accountId →
        upToNonce < state.2 := by
  constructor
  · unfold Database.resolveStates
    rw [without.latest, without.headers, List.filter_filter]
    refine congrArg (_ ++ ·) (congrArg (List.map _) (List.filter_congr fun row listed => ?_))
    rw [Bool.and_eq_left_iff_imp]
    intro discarded
    refine decide_eq_true ?_
    rintro ⟨own, old⟩
    obtain ⟨high, rising⟩ := above.historical row listed own (of_decide_eq_true discarded)
    exact absurd (high.trans_le rising) (not_lt.mpr old)
  · intro state resolved own
    rcases (mem_resolveStates_iff first _ state).mp resolved with
      ⟨id, row, found, discarded, rfl⟩ | ⟨row, listed, discarded, rfl⟩
    · exact above.latest id row found own discarded
    · exact (above.historical row listed own discarded).1

theorem WithoutOld.undoStates (without : first.WithoutOld second accountId upToNonce)
    {discardedStates : List (AccountId × Word)}
    (above : first.DiscardsAbove accountId upToNonce discardedStates) :
    (first.undoStates discardedStates).WithoutOld (second.undoStates discardedStates) accountId
      upToNonce := by
  obtain ⟨same, high⟩ := without.resolveStates above
  unfold Database.undoStates
  rw [same, Grouping.toList_groupBy, List.foldl_map, List.foldl_map]
  clear same above
  generalize first.resolveStates (discardedStates.map Prod.snd) = resolved at high ⊢
  generalize Grouping.groupKeys Prod.fst resolved = accounts
  induction accounts generalizing first second with
  | nil => exact without
  | cons account rest inductionHypothesis =>
    refine inductionHypothesis (without.undoAccountNonces fun own nonce undone => ?_)
    obtain ⟨state, found, rfl⟩ := List.mem_map.mp ((mem_descending _ nonce).mp undone)
    obtain ⟨resolved, ofAccount⟩ := List.mem_filter.mp found
    exact high state resolved ((of_decide_eq_true ofAccount).trans own)

omit [ProtocolLibrary] in
theorem WithoutOld.sameLatest (without : first.WithoutOld second accountId upToNonce)
    (id : AccountId) : second.SameLatest first id where
  header := by rw [without.latest]
  slots := without.slots.latest id
  entries := without.entries.latest id
  assets := without.assets.latest id

theorem WithoutOld.undoAccountState (without : first.WithoutOld second accountId upToNonce)
    {discardedStates : List (AccountId × Word)}
    (above : first.DiscardsAbove accountId upToNonce discardedStates) (forest : AccountSmtForest)
    (id : AccountId) :
    (second.undoAccountState forest discardedStates).1.SameLatest
      (first.undoAccountState forest discardedStates).1 id := by
  unfold Database.undoAccountState
  split
  · exact without.sameLatest id
  · exact (without.undoStates above).sameLatest id

/-! ### The condition -/

variable {db : Database}

omit [ProtocolLibrary] in
/-- Which historical headers are kept. -/
theorem filter_oldHeader_iff (bound : upToNonce < feltModulus)
    (field : ∀ nonce, db.ReplacedIn accountId nonce → nonce < feltModulus) :
    (db.historicalAccountHeaders.filter fun row => ¬oldHeader accountId upToNonce row) =
        db.historicalAccountHeaders.filter (fun row =>
          ¬(row.header.id = accountId ∧ row.replacedAtNonce ≤ upToNonce)) ↔
      ∀ row ∈ db.historicalAccountHeaders, row.header.id = accountId →
        (row.replacedAtNonce < 2 ^ 63 ↔ upToNonce < 2 ^ 63) := by
  have compared : ∀ row ∈ db.historicalAccountHeaders, row.header.id = accountId →
      ((nonceUpTo upToNonce row.replacedAtNonce = true ↔ row.replacedAtNonce ≤ upToNonce) ↔
        (row.replacedAtNonce < 2 ^ 63 ↔ upToNonce < 2 ^ 63)) := fun row listed own =>
    nonceUpTo_iff bound (field _ (Or.inl ⟨row, listed, own, rfl⟩))
  constructor
  · intro same row listed own
    rw [← compared row listed own]
    have kept := congrArg (row ∈ ·) same
    simp only [List.mem_filter, listed, true_and, oldHeader, own, decide_eq_true_eq,
      eq_iff_iff, not_iff_not] at kept
    exact kept
  · intro sides
    refine List.filter_congr fun row listed => decide_eq_decide.mpr (not_congr ?_)
    unfold oldHeader
    rw [decide_eq_true_eq]
    exact and_congr_right fun own => (compared row listed own).mpr (sides row listed own)

omit [ProtocolLibrary] in
theorem withoutOld_prune_iff (bound : upToNonce < feltModulus)
    (field : ∀ nonce, db.ReplacedIn accountId nonce → nonce < feltModulus)
    (foreignCodes : Finset Word) :
    db.WithoutOld (db.pruneAccountHistory foreignCodes accountId upToNonce) accountId upToNonce ↔
      db.SameSide accountId upToNonce := by
  have headers := filter_oldHeader_iff bound field
  have slots := losesUpTo_prune_iff db.accountStorage accountId bound fun nonce key stored =>
    field nonce (Or.inr (Or.inl ⟨key, stored⟩))
  have entries := losesUpTo_prune_iff db.storageMapEntries accountId bound fun nonce key stored =>
    field nonce (Or.inr (Or.inr (Or.inl ⟨key, stored⟩)))
  have assets := losesUpTo_prune_iff db.accountAssets accountId bound fun nonce key stored =>
    field nonce (Or.inr (Or.inr (Or.inr ⟨key, stored⟩)))
  constructor
  · rintro ⟨-, headersKept, slotsKept, entriesKept, assetsKept⟩ nonce
      (⟨row, listed, own, rfl⟩ | slot | entry | asset)
    · exact headers.mp headersKept row listed own
    · exact slots.mp slotsKept nonce slot
    · exact entries.mp entriesKept nonce entry
    · exact assets.mp assetsKept nonce asset
  · intro sides
    refine ⟨rfl, headers.mpr fun row listed own => ?_, slots.mpr fun nonce slot => ?_,
      entries.mpr fun nonce entry => ?_, assets.mpr fun nonce asset => ?_⟩
    · exact sides _ (Or.inl ⟨row, listed, own, rfl⟩)
    · exact sides nonce (Or.inr (Or.inl slot))
    · exact sides nonce (Or.inr (Or.inr (Or.inl entry)))
    · exact sides nonce (Or.inr (Or.inr (Or.inr asset)))

/-- Pruning is exact if and only if the nonces of the account's history are on the same side of 2^63
as the bound. -/
theorem pruneAccountHistory_exact_iff (bound : upToNonce < feltModulus)
    (field : ∀ nonce, db.ReplacedIn accountId nonce → nonce < feltModulus)
    (foreignCodes : Finset Word) :
    db.PrunesExactly foreignCodes accountId upToNonce
        (db.pruneAccountHistoryRows foreignCodes accountId upToNonce).1
        (db.pruneAccountHistoryRows foreignCodes accountId upToNonce).2 ↔
      db.SameSide accountId upToNonce := by
  have count := db.pruneAccountHistoryRows_count foreignCodes accountId upToNonce
  rw [pruneAccountHistoryRows_fst] at count ⊢
  rw [← withoutOld_prune_iff bound field foreignCodes]
  constructor
  · exact PrunesExactly.tables
  · intro without
    refine ⟨without, fun code => ?_, count, fun forest discardedStates above id =>
      without.undoAccountState above forest id⟩
    have sides := (withoutOld_prune_iff bound field foreignCodes).mp without
    have old : ∀ row ∈ db.historicalAccountHeaders, (row.header.id = accountId ∧
        nonceUpTo upToNonce row.replacedAtNonce = true ↔
          row.header.id = accountId ∧ row.replacedAtNonce ≤ upToNonce) := by
      intro row listed
      refine and_congr_right fun own => ?_
      have stored : db.ReplacedIn accountId row.replacedAtNonce := Or.inl ⟨row, listed, own, rfl⟩
      exact (nonceUpTo_iff bound (field _ stored)).mpr (sides _ stored)
    show code ∈ Finset.filter _ db.accountCode ↔ _
    rw [Finset.mem_filter]
    refine and_congr_right fun _ => not_congr (and_congr_left fun _ => ?_)
    rw [List.mem_map]
    constructor
    · rintro ⟨row, deleted, same⟩
      obtain ⟨listed, isOld⟩ := List.mem_filter.mp deleted
      obtain ⟨own, below⟩ := (old row listed).mp (of_decide_eq_true isOld)
      exact ⟨row, listed, own, below, same⟩
    · rintro ⟨row, listed, own, below, same⟩
      exact ⟨row, List.mem_filter.mpr
        ⟨listed, decide_eq_true ((old row listed).mpr ⟨own, below⟩)⟩, same⟩

end Database

/-! ### Nonces from 2^63 on -/

namespace Sample

/-- The funded account has one historical header and one historical asset, replaced at nonce 2. -/
theorem funded_replacedIn {nonce : ℕ} (replaced : funded.ReplacedIn 7 nonce) : nonce = 2 := by
  rcases replaced with ⟨row, listed, -, rfl⟩ | ⟨_, slot⟩ | ⟨_, entry⟩ | ⟨key, asset⟩
  · obtain rfl := List.mem_singleton.mp listed
    rfl
  · exact absurd rfl slot
  · exact absurd rfl entry
  · by_contra other
    refine asset ?_
    refine (HistoryTable.archived_put _ _ _ _ _ _ _).trans ?_
    rw [HistoryTable.archived_archive, if_neg fun same => other same.2.1.symm]
    rfl

theorem prune_funded_exact : funded.PrunesExactly ∅ 7 5 (funded.pruneAccountHistoryRows ∅ 7 5).1
    (funded.pruneAccountHistoryRows ∅ 7 5).2 := by
  refine (Database.pruneAccountHistory_exact_iff (by decide) (fun nonce replaced => ?_) ∅).mpr
    fun nonce replaced => ?_
  · rw [funded_replacedIn replaced]
    decide
  · rw [funded_replacedIn replaced]
    decide

/-- A bound of 2^63 is compared as the lowest number, and nothing is deleted. -/
theorem not_prune_funded_exact :
    ¬∀ (db : Database) (foreignCodes : Finset Word) (accountId : AccountId) (upToNonce : ℕ),
      upToNonce < feltModulus → (∀ nonce, db.ReplacedIn accountId nonce → nonce < feltModulus) →
        db.PrunesExactly foreignCodes accountId upToNonce
          (db.pruneAccountHistoryRows foreignCodes accountId upToNonce).1
          (db.pruneAccountHistoryRows foreignCodes accountId upToNonce).2 := by
  intro always
  have exact_ := always funded ∅ 7 (2 ^ 63) (by decide) fun nonce replaced => by
      rw [funded_replacedIn replaced]
      decide
  exact absurd exact_.tables.headers (by decide)

end Sample

end MidenClient
