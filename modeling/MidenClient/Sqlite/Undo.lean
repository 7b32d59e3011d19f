/-
This file says what the undoing of discarded states does to each table.

The content tables are undone by the versions of the history table. The header of an
account is the last row that was replaced at the earliest undone nonce; when there is
none, the account is deleted.
-/

import MidenClient.Sqlite.Accounts

namespace MidenClient

open Std (ExtTreeMap)

namespace Database

/-! ### The order of the undone nonces -/

theorem mem_descending (nonces : List ℕ) (nonce : ℕ) :
    nonce ∈ descending nonces ↔ nonce ∈ nonces := by
  rw [descending, List.mem_reverse, List.mem_dedup, List.mem_insertionSort]

theorem pairwise_descending (nonces : List ℕ) : (descending nonces).Pairwise (· > ·) := by
  rw [descending, List.pairwise_reverse]
  have rising : (nonces.insertionSort (· ≤ ·)).dedup.Pairwise (· ≤ ·) :=
    (List.pairwise_insertionSort (· ≤ ·) nonces).sublist (List.dedup_sublist _)
  have distinct : (nonces.insertionSort (· ≤ ·)).dedup.Pairwise (· ≠ ·) := List.nodup_dedup _
  exact (rising.and distinct).imp fun both => lt_of_le_of_ne both.1 both.2

/-- The descending list of some nonces is determined by its elements. -/
theorem descending_eq {nonces falling : List ℕ} (sorted : falling.Pairwise (· > ·))
    (same : ∀ nonce, nonce ∈ nonces ↔ nonce ∈ falling) : descending nonces = falling := by
  have sortedLeft := pairwise_descending nonces
  have perm : (descending nonces).Perm falling := by
    refine (List.perm_ext_iff_of_nodup (sortedLeft.imp fun above => above.ne')
      (sorted.imp fun above => above.ne')).mpr fun nonce => ?_
    rw [mem_descending, same]
  exact perm.eq_of_pairwise' sortedLeft sorted

/-! ### Undoing the nonces of one account -/

theorem foldl_restore (nonces : List ℕ) (db : Database) (accountId : AccountId) :
    nonces.foldl (fun db nonce => db.restoreOldValuesForNonce accountId nonce) db =
      { db with
        accountStorage := nonces.foldl (fun table nonce =>
          table.restore oldSlot accountId nonce) db.accountStorage
        storageMapEntries := nonces.foldl (fun table nonce =>
          table.restore id accountId nonce) db.storageMapEntries
        accountAssets := nonces.foldl (fun table nonce =>
          table.restore id accountId nonce) db.accountAssets } := by
  induction nonces generalizing db with
  | nil => rfl
  | cons nonce rest inductionHypothesis =>
    rw [List.foldl_cons, inductionHypothesis]
    rfl

variable [ProtocolLibrary]

/-- Rows written to the latest headers leave the other tables alone. -/
theorem foldl_replaceLatestHeader (rows : List HistoricalHeaderRow) (db : Database) :
    rows.foldl (fun db row => db.replaceLatestHeader row.toHeaderRow) db =
      { db with
        latestAccountHeaders := (rows.foldl (fun db row =>
          db.replaceLatestHeader row.toHeaderRow) db).latestAccountHeaders } := by
  induction rows generalizing db with
  | nil => rfl
  | cons row rest inductionHypothesis =>
    rw [List.foldl_cons, inductionHypothesis]
    rfl

/-- The last of several rows of an account is the one that stays. -/
theorem foldl_replaceLatestHeader_getElem? (collisionFree : CollisionFree)
    (rows : List HistoricalHeaderRow) (db : Database) (keyed : db.HeadersKeyed)
    (accountId : AccountId) (ofAccount : ∀ row ∈ rows, row.header.id = accountId)
    (id : AccountId) :
    (rows.foldl (fun db row => db.replaceLatestHeader row.toHeaderRow)
        db).latestAccountHeaders[id]? =
      if accountId = id then
        match rows.getLast? with
        | some row => some row.toHeaderRow
        | none => db.latestAccountHeaders[id]?
      else db.latestAccountHeaders[id]? := by
  induction rows generalizing db with
  | nil => simp
  | cons row rest inductionHypothesis =>
    have rowAccount := ofAccount row List.mem_cons_self
    rw [List.foldl_cons, inductionHypothesis _
        (db.replaceLatestHeader_keyed row.toHeaderRow collisionFree keyed)
        fun other member => ofAccount other (List.mem_cons_of_mem row member),
      db.replaceLatestHeader_getElem? row.toHeaderRow collisionFree keyed, rowAccount,
      List.getLast?_cons]
    by_cases same : accountId = id
    · rw [if_pos same, if_pos same, if_pos same]
      cases rest.getLast? <;> rfl
    · rw [if_neg same, if_neg same, if_neg same]

theorem foldl_replaceLatestHeader_congr (rows : List HistoricalHeaderRow)
    (first second : Database)
    (same : first.latestAccountHeaders = second.latestAccountHeaders) :
    (rows.foldl (fun db row => db.replaceLatestHeader row.toHeaderRow)
        first).latestAccountHeaders =
      (rows.foldl (fun db row => db.replaceLatestHeader row.toHeaderRow)
        second).latestAccountHeaders := by
  induction rows generalizing first second with
  | nil => exact same
  | cons row rest inductionHypothesis =>
    refine inductionHypothesis _ _ ?_
    show ExtTreeMap.insert _ _ _ = ExtTreeMap.insert _ _ _
    rw [same]

/-- What undoing does when the earliest undone nonce replaced a header. -/
theorem undoAccountNonces_of_replaced (db : Database) (accountId : AccountId) (nonces : List ℕ)
    (minNonce : ℕ) (last : nonces.getLast? = some minNonce)
    (replaced : db.replacedAt accountId minNonce ≠ []) :
    db.undoAccountNonces accountId nonces =
      { accountCode := db.accountCode
        latestAccountHeaders := ((db.replacedAt accountId minNonce).foldl (fun db row =>
          db.replaceLatestHeader row.toHeaderRow) db).latestAccountHeaders
        historicalAccountHeaders := db.historicalAccountHeaders.filter fun row =>
          ¬(row.header.id = accountId ∧ row.replacedAtNonce ∈ nonces)
        accountStorage := db.accountStorage.undo oldSlot accountId nonces
        storageMapEntries := db.storageMapEntries.undo id accountId nonces
        accountAssets := db.accountAssets.undo id accountId nonces } := by
  have header : ∀ restored : Database,
      restored.historicalAccountHeaders = db.historicalAccountHeaders →
      restored.restoreHeader accountId minNonce =
        (db.replacedAt accountId minNonce).foldl (fun db row =>
          db.replaceLatestHeader row.toHeaderRow) restored := by
    intro restored same
    have rows : restored.replacedAt accountId minNonce = db.replacedAt accountId minNonce := by
      rw [replacedAt, same, replacedAt]
    rw [restoreHeader, rows]
    split
    · rename_i none
      exact absurd none replaced
    · rfl
  rw [undoAccountNonces, last]
  show (restoreHeader _ accountId minNonce).deleteHistorical accountId nonces = _
  rw [header _ (by rw [foldl_restore]), foldl_replaceLatestHeader, foldl_restore]
  refine mk.injEq .. ▸ ⟨rfl, foldl_replaceLatestHeader_congr _ _ _ rfl, rfl, rfl, rfl, rfl⟩

/-! ### Resolving commitments -/

theorem mem_resolveStates_iff (db : Database) (commitments : List Word) (state : AccountId × ℕ) :
    state ∈ db.resolveStates commitments ↔
      (∃ (id : AccountId) (row : HeaderRow), db.latestAccountHeaders[id]? = some row ∧
        row.header.toCommitment ∈ commitments ∧ state = (row.header.id, row.header.nonce)) ∨
      ∃ row ∈ db.historicalAccountHeaders, row.header.toCommitment ∈ commitments ∧
        state = (row.header.id, row.header.nonce) := by
  rw [resolveStates, List.mem_append, List.mem_map, List.mem_map]
  refine or_congr ?_ ?_
  · constructor
    · rintro ⟨entry, member, rfl⟩
      obtain ⟨listed, discarded⟩ := List.mem_filter.mp member
      exact ⟨entry.1, entry.2, ExtTreeMap.mem_toList_iff_getElem?_eq_some.mp listed,
        of_decide_eq_true discarded, rfl⟩
    · rintro ⟨id, row, found, discarded, rfl⟩
      exact ⟨(id, row), List.mem_filter.mpr
        ⟨ExtTreeMap.mem_toList_iff_getElem?_eq_some.mpr found, decide_eq_true discarded⟩, rfl⟩
  · constructor
    · rintro ⟨row, member, rfl⟩
      obtain ⟨listed, discarded⟩ := List.mem_filter.mp member
      exact ⟨row, listed, of_decide_eq_true discarded, rfl⟩
    · rintro ⟨row, listed, discarded, rfl⟩
      exact ⟨row, List.mem_filter.mpr ⟨listed, decide_eq_true discarded⟩, rfl⟩

/-- When all discarded states are states of one account, only its nonces are undone. -/
theorem undoStates_of_account (db : Database) (states : List (AccountId × Word))
    (accountId : AccountId) {nonces : List ℕ} (falling : nonces.Pairwise (· > ·))
    (nonempty : nonces ≠ [])
    (resolved : ∀ state, state ∈ db.resolveStates (states.map Prod.snd) ↔
      ∃ nonce ∈ nonces, state = (accountId, nonce)) :
    db.undoStates states = db.undoAccountNonces accountId nonces := by
  have some_ : db.resolveStates (states.map Prod.snd) ≠ [] := by
    obtain ⟨nonce, member⟩ := List.exists_mem_of_ne_nil nonces nonempty
    exact List.ne_nil_of_mem ((resolved _).mpr ⟨nonce, member, rfl⟩)
  have ofAccount : ∀ state ∈ db.resolveStates (states.map Prod.snd), state.1 = accountId := by
    intro state member
    obtain ⟨nonce, -, rfl⟩ := (resolved state).mp member
    rfl
  have order : descending ((db.resolveStates (states.map Prod.snd)).map Prod.snd) = nonces := by
    refine descending_eq falling fun nonce => ?_
    rw [List.mem_map]
    constructor
    · rintro ⟨state, member, rfl⟩
      obtain ⟨nonce, listed, rfl⟩ := (resolved state).mp member
      exact listed
    · exact fun listed => ⟨(accountId, nonce), (resolved _).mpr ⟨nonce, listed, rfl⟩, rfl⟩
  rw [undoStates, Grouping.toList_groupBy_of_key Prod.fst _ accountId some_ ofAccount,
    List.foldl_cons, List.foldl_nil, order]

end Database

end MidenClient
