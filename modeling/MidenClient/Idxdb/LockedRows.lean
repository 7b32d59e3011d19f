/-
This file follows the lock of an account through the operations of the IndexedDB store
(`idxdb-store/src/ts/accounts.ts`, `idxdb-store/src/sync/mod.rs`).

The latest row and the historical rows are marked by two puts. When both are made a state that is
restored later is marked as well, and the lock is only lost with the account.
-/

import MidenClient.Store.AccountCalls

namespace MidenClient

open Std (ExtTreeMap)

namespace IdxdbDatabase

/-! ### Marked rows -/

/-- Every row of the latest headers is stored under the id of its header. -/
def HeadersKeyed (db : IdxdbDatabase) : Prop :=
  ∀ (id : AccountId) (row : HeaderRow), db.latestAccountHeaders[id]? = some row →
    row.header.id = id

/-- The account is locked, if it is stored. -/
def LatestMarked (db : IdxdbDatabase) (accountId : AccountId) : Prop :=
  ∀ row, db.latestAccountHeaders[accountId]? = some row → row.locked = true

/-- All states that the account can fall back to are locked. -/
def HistoryMarked (db : IdxdbDatabase) (accountId : AccountId) : Prop :=
  ∀ (commitment : Word) (row : HistoricalHeaderRow),
    db.historicalAccountHeaders[commitment]? = some row → row.header.id = accountId →
      row.locked = true

structure MarkedRows (db : IdxdbDatabase) (accountId : AccountId) : Prop where
  latest : db.LatestMarked accountId
  historical : db.HistoryMarked accountId

/-- The account has a latest row, and it is locked. -/
def IsLocked (db : IdxdbDatabase) (accountId : AccountId) : Prop :=
  ∃ row, db.latestAccountHeaders[accountId]? = some row ∧ row.locked = true

variable {db next : IdxdbDatabase} {accountId : AccountId}

theorem MarkedRows.isLocked (marked : db.MarkedRows accountId)
    (stored : db.latestAccountHeaders[accountId]? ≠ none) : db.IsLocked accountId := by
  obtain ⟨row, found⟩ := Option.ne_none_iff_exists'.mp stored
  exact ⟨row, found, marked.latest row found⟩

/-! ### Locking -/

theorem lockLatest_getElem? (db : IdxdbDatabase) (lockedId id : AccountId) :
    (db.lockLatest lockedId).latestAccountHeaders[id]? =
      (db.latestAccountHeaders[id]?).map fun row =>
        if lockedId = id then { row with locked := true } else row := by
  show (db.latestAccountHeaders.modify lockedId _)[id]? = _
  rw [OrderedMap.modify_eq_map, ExtTreeMap.getElem?_map]

theorem lockHistorical_getElem? (db : IdxdbDatabase) (lockedId : AccountId) (commitment : Word) :
    (db.lockHistorical lockedId).historicalAccountHeaders[commitment]? =
      (db.historicalAccountHeaders[commitment]?).map fun row =>
        if row.header.id = lockedId then { row with locked := true } else row := by
  show (db.historicalAccountHeaders.map _)[commitment]? = _
  rw [ExtTreeMap.getElem?_map]

theorem lockLatest_marks (db : IdxdbDatabase) (accountId : AccountId) :
    (db.lockLatest accountId).LatestMarked accountId := by
  intro row found
  rw [lockLatest_getElem?] at found
  obtain ⟨old, -, rfl⟩ := Option.map_eq_some_iff.mp found
  rw [if_pos rfl]

theorem lockHistorical_marks (db : IdxdbDatabase) (accountId : AccountId) :
    (db.lockHistorical accountId).HistoryMarked accountId := by
  intro commitment row found ofAccount
  rw [lockHistorical_getElem?] at found
  obtain ⟨old, -, rfl⟩ := Option.map_eq_some_iff.mp found
  split
  · rfl
  · rename_i other
    rw [if_neg other] at ofAccount
    exact absurd ofAccount other

theorem LatestMarked.lockLatest (marked : db.LatestMarked accountId) (lockedId : AccountId) :
    (db.lockLatest lockedId).LatestMarked accountId := by
  intro row found
  rw [lockLatest_getElem?] at found
  obtain ⟨old, stored, rfl⟩ := Option.map_eq_some_iff.mp found
  split
  · rfl
  · exact marked old stored

theorem HistoryMarked.lockHistorical (marked : db.HistoryMarked accountId)
    (lockedId : AccountId) : (db.lockHistorical lockedId).HistoryMarked accountId := by
  intro commitment row found ofAccount
  rw [lockHistorical_getElem?] at found
  obtain ⟨old, stored, rfl⟩ := Option.map_eq_some_iff.mp found
  split
  · rfl
  · rename_i other
    rw [if_neg other] at ofAccount
    exact marked commitment old stored ofAccount

theorem HeadersKeyed.lockLatest (keyed : db.HeadersKeyed) (lockedId : AccountId) :
    (db.lockLatest lockedId).HeadersKeyed := by
  intro id row found
  rw [lockLatest_getElem?] at found
  obtain ⟨old, stored, rfl⟩ := Option.map_eq_some_iff.mp found
  split
  · exact keyed id old stored
  · exact keyed id old stored

/-! ### Undoing -/

section Library

variable [ProtocolLibrary]

/-- The nonces of an account that the discarded states undo. -/
def undoneNonces (db : IdxdbDatabase) (commitments : List Word) (accountId : AccountId) : List ℕ :=
  ((commitments.filterMap db.resolveState).filter fun state => state.1 = accountId).map Prod.snd

/-- States of the account are undone, and no header was replaced at the earliest of them. -/
def Deletes (db : IdxdbDatabase) (commitments : List Word) (accountId : AccountId) : Prop :=
  ∃ minNonce, (Database.descending (db.undoneNonces commitments accountId)).getLast? =
    some minNonce ∧ db.replacedAt accountId minNonce = none

omit [ProtocolLibrary] in
theorem mem_of_replacedAt {minNonce : ℕ} {row : HistoricalHeaderRow}
    (found : db.replacedAt accountId minNonce = some row) :
    row.header.id = accountId ∧ ∃ commitment : Word,
      db.historicalAccountHeaders[commitment]? = some row := by
  unfold replacedAt at found
  have selected := List.find?_some found
  exact ⟨(of_decide_eq_true selected).1,
    OrderedMap.mem_values_iff.mp (List.mem_of_find?_eq_some found)⟩

omit [ProtocolLibrary] in
theorem replacedAt_ne_none_iff {minNonce : ℕ} :
    db.replacedAt accountId minNonce ≠ none ↔ ∃ (commitment : Word) (row : HistoricalHeaderRow),
      db.historicalAccountHeaders[commitment]? = some row ∧ row.header.id = accountId ∧
        row.replacedAtNonce = minNonce := by
  unfold replacedAt
  rw [ne_eq, List.find?_eq_none]
  constructor
  · intro found
    by_contra absent
    refine found fun row member selected => absent ?_
    obtain ⟨commitment, stored⟩ := OrderedMap.mem_values_iff.mp member
    exact ⟨commitment, row, stored, of_decide_eq_true selected⟩
  · rintro ⟨commitment, row, stored, selected⟩ absent
    exact absent row (OrderedMap.mem_values_iff.mpr ⟨commitment, stored⟩) (decide_eq_true selected)

omit [ProtocolLibrary] in
/-- The headers after the nonces of one account are undone. -/
theorem undoAccountNonces_headers (db : IdxdbDatabase) (undoneId : AccountId) (nonces : List ℕ) :
    (∀ id, id ≠ undoneId → (db.undoAccountNonces undoneId nonces).latestAccountHeaders[id]? =
        db.latestAccountHeaders[id]?) ∧
      (db.undoAccountNonces undoneId nonces).latestAccountHeaders[undoneId]? =
        (match (Database.descending nonces).getLast? with
          | none => db.latestAccountHeaders[undoneId]?
          | some minNonce =>
            (db.replacedAt undoneId minNonce).map HistoricalHeaderRow.toHeaderRow) ∧
      (db.undoAccountNonces undoneId nonces).historicalAccountHeaders =
        db.historicalAccountHeaders.filter fun _ row =>
          ¬(row.header.id = undoneId ∧ row.replacedAtNonce ∈ Database.descending nonces) := by
  unfold undoAccountNonces
  dsimp only
  cases earliest : (Database.descending nonces).getLast? with
  | none =>
    refine ⟨fun _ _ => rfl, rfl, ?_⟩
    rw [List.getLast?_eq_none_iff.mp earliest]
    refine ExtTreeMap.ext_getElem? fun commitment => ?_
    rw [ExtTreeMap.getElem?_filter']
    cases db.historicalAccountHeaders[commitment]? with
    | none => rfl
    | some row => exact (Option.filter_some_pos (by simp)).symm
  | some minNonce =>
    dsimp only
    obtain ⟨restoredLatest, restoredHistorical⟩ :=
      foldl_restoreFromHistorical_headers undoneId (Database.descending nonces) db
    generalize (Database.descending nonces).foldl
      (fun db nonce => db.restoreFromHistorical undoneId nonce) db = restored at *
    obtain ⟨latest, historical⟩ := foldl_deleteHistorical_headers undoneId
      (Database.descending nonces) (restored.restoreHeader undoneId minNonce)
    have replaced : restored.replacedAt undoneId minNonce = db.replacedAt undoneId minNonce := by
      rw [replacedAt, restoredHistorical, replacedAt]
    rw [latest, historical]
    unfold restoreHeader
    rw [replaced]
    cases found : db.replacedAt undoneId minNonce with
    | none =>
      refine ⟨fun id other => ?_, ?_, congrArg (ExtTreeMap.filter _) restoredHistorical⟩
      · rw [← restoredLatest]
        refine (ExtTreeMap.getElem?_erase).trans (if_neg ?_)
        rw [Std.compare_eq_iff_eq]
        exact Ne.symm other
      · exact ExtTreeMap.getElem?_erase_self
    | some row =>
      have own := (mem_of_replacedAt found).1
      refine ⟨fun id other => ?_, ?_, congrArg (ExtTreeMap.filter _) restoredHistorical⟩
      · rw [← restoredLatest]
        refine (ExtTreeMap.getElem?_insert).trans (if_neg ?_)
        rw [Std.compare_eq_iff_eq, own]
        exact Ne.symm other
      · rw [← own]
        exact ExtTreeMap.getElem?_insert_self

omit [ProtocolLibrary] in
/-- An undo restores marked rows only, whichever account it is for. -/
theorem MarkedRows.undoAccountNonces (marked : db.MarkedRows accountId) (undoneId : AccountId)
    (nonces : List ℕ) : (db.undoAccountNonces undoneId nonces).MarkedRows accountId := by
  obtain ⟨away, here, historical⟩ := db.undoAccountNonces_headers undoneId nonces
  refine ⟨fun row found => ?_, fun commitment row found ofAccount => ?_⟩
  · by_cases same : accountId = undoneId
    · subst same
      rw [here] at found
      split at found
      · exact marked.latest row found
      · obtain ⟨old, replaced, rfl⟩ := Option.map_eq_some_iff.mp found
        obtain ⟨own, commitment, stored⟩ := mem_of_replacedAt replaced
        exact marked.historical commitment old stored own
    · rw [away accountId same] at found
      exact marked.latest row found
  · rw [historical, ExtTreeMap.getElem?_filter'] at found
    exact marked.historical commitment row (Option.filter_eq_some_iff.mp found).1 ofAccount

omit [ProtocolLibrary] in
theorem HeadersKeyed.undoAccountNonces (keyed : db.HeadersKeyed) (undoneId : AccountId)
    (nonces : List ℕ) : (db.undoAccountNonces undoneId nonces).HeadersKeyed := by
  obtain ⟨away, here, -⟩ := db.undoAccountNonces_headers undoneId nonces
  intro id row found
  by_cases same : id = undoneId
  · subst same
    rw [here] at found
    split at found
    · exact keyed id row found
    · obtain ⟨old, replaced, rfl⟩ := Option.map_eq_some_iff.mp found
      exact (mem_of_replacedAt replaced).1
  · rw [away id same] at found
    exact keyed id row found

omit [ProtocolLibrary] in
/-- Undoing other accounts leaves the latest row of an account alone. -/
theorem foldl_undoAccountNonces_away (undone : AccountId → List ℕ) (accounts : List AccountId)
    (db : IdxdbDatabase) (id : AccountId) (away : id ∉ accounts) :
    (accounts.foldl (fun db account => db.undoAccountNonces account (undone account))
      db).latestAccountHeaders[id]? = db.latestAccountHeaders[id]? := by
  induction accounts generalizing db with
  | nil => rfl
  | cons account rest inductionHypothesis =>
    rw [List.mem_cons, not_or] at away
    rw [List.foldl_cons, inductionHypothesis _ away.2]
    exact (db.undoAccountNonces_headers account (undone account)).1 id away.1

omit [ProtocolLibrary] in
/-- Undoing the states of several accounts keeps an account with a state to fall back to. -/
theorem foldl_undoAccountNonces_stored (undone : AccountId → List ℕ) (accounts : List AccountId)
    (distinct : accounts.Nodup) (db : IdxdbDatabase) (id : AccountId)
    (stored : db.latestAccountHeaders[id]? ≠ none)
    (restored : ∀ minNonce, (Database.descending (undone id)).getLast? = some minNonce →
      db.replacedAt id minNonce ≠ none) :
    (accounts.foldl (fun db account => db.undoAccountNonces account (undone account))
      db).latestAccountHeaders[id]? ≠ none := by
  induction accounts generalizing db with
  | nil => exact stored
  | cons account rest inductionHypothesis =>
    obtain ⟨absent, restDistinct⟩ := List.nodup_cons.mp distinct
    obtain ⟨away, here, historical⟩ := db.undoAccountNonces_headers account (undone account)
    rw [List.foldl_cons]
    by_cases same : id = account
    · subst same
      rw [foldl_undoAccountNonces_away undone rest _ id absent, here]
      split
      · exact stored
      · rename_i minNonce earliest
        rw [ne_eq, Option.map_eq_none_iff]
        exact restored minNonce earliest
    · refine inductionHypothesis restDistinct _ ?_ fun minNonce earliest => ?_
      · rwa [away id same]
      · obtain ⟨commitment, row, found, own, replaced⟩ :=
          replacedAt_ne_none_iff.mp (restored minNonce earliest)
        refine replacedAt_ne_none_iff.mpr ⟨commitment, row, ?_, own, replaced⟩
        rw [historical, ExtTreeMap.getElem?_filter', found]
        refine Option.filter_some_pos (decide_eq_true fun gone => ?_)
        exact same (own.symm.trans gone.1)

/-- Undoing states account by account, as they were found. -/
theorem undoAccountStates_eq_foldl (db : IdxdbDatabase) (commitments : List Word) :
    ∃ accounts : List AccountId, accounts.Nodup ∧
      db.undoAccountStates commitments = accounts.foldl (fun current account =>
        current.undoAccountNonces account (db.undoneNonces commitments account)) db := by
  refine ⟨Grouping.groupKeys Prod.fst (commitments.filterMap db.resolveState),
    (Grouping.pairwise_lt_groupKeys _ _).imp fun below => below.ne, ?_⟩
  rw [undoAccountStates, Grouping.toList_groupBy, List.foldl_map]
  rfl

theorem MarkedRows.undoAccountStates (marked : db.MarkedRows accountId) (commitments : List Word) :
    (db.undoAccountStates commitments).MarkedRows accountId := by
  obtain ⟨accounts, -, folded⟩ := db.undoAccountStates_eq_foldl commitments
  rw [folded]
  generalize db.undoneNonces commitments = undone
  clear folded
  induction accounts generalizing db with
  | nil => exact marked
  | cons account rest inductionHypothesis =>
    exact inductionHypothesis (marked.undoAccountNonces account (undone account))

theorem HeadersKeyed.undoAccountStates (keyed : db.HeadersKeyed) (commitments : List Word) :
    (db.undoAccountStates commitments).HeadersKeyed := by
  obtain ⟨accounts, -, folded⟩ := db.undoAccountStates_eq_foldl commitments
  rw [folded]
  generalize db.undoneNonces commitments = undone
  clear folded
  induction accounts generalizing db with
  | nil => exact keyed
  | cons account rest inductionHypothesis =>
    exact inductionHypothesis (keyed.undoAccountNonces account (undone account))

/-- An account is kept by an undo that does not delete it. -/
theorem undoAccountStates_stored {commitments : List Word}
    (stored : db.latestAccountHeaders[accountId]? ≠ none)
    (notDeleted : ¬db.Deletes commitments accountId) :
    (db.undoAccountStates commitments).latestAccountHeaders[accountId]? ≠ none := by
  obtain ⟨accounts, distinct, folded⟩ := db.undoAccountStates_eq_foldl commitments
  rw [folded]
  exact foldl_undoAccountNonces_stored _ accounts distinct db accountId stored
    fun minNonce earliest gone => notDeleted ⟨minNonce, earliest, gone⟩

/-! ### Locks and undone states -/

/-- The two databases differ at most in locks, as far as undoing states is concerned. -/
structure SameUndo (first second : IdxdbDatabase) : Prop where
  resolved : ∀ commitment, first.resolveState commitment = second.resolveState commitment
  replaced : ∀ id nonce, first.replacedAt id nonce = none ↔ second.replacedAt id nonce = none
  stored : ∀ id : AccountId, first.latestAccountHeaders[id]? = none ↔
    second.latestAccountHeaders[id]? = none

theorem SameUndo.trans {first second third : IdxdbDatabase} (left : first.SameUndo second)
    (right : second.SameUndo third) : first.SameUndo third where
  resolved commitment := (left.resolved commitment).trans (right.resolved commitment)
  replaced id nonce := (left.replaced id nonce).trans (right.replaced id nonce)
  stored id := (left.stored id).trans (right.stored id)

theorem SameUndo.deletes_iff {first second : IdxdbDatabase} (same : first.SameUndo second)
    {commitments : List Word} :
    first.Deletes commitments accountId ↔ second.Deletes commitments accountId := by
  unfold Deletes undoneNonces
  rw [funext same.resolved]
  exact exists_congr fun minNonce => and_congr_right fun _ => same.replaced accountId minNonce

theorem resolveState_congr {first second : IdxdbDatabase} {commitment : Word}
    (latest : ((OrderedMap.values first.latestAccountHeaders).find? fun row =>
        row.header.toCommitment = commitment).map HeaderRow.header =
      ((OrderedMap.values second.latestAccountHeaders).find? fun row =>
        row.header.toCommitment = commitment).map HeaderRow.header)
    (historical : (first.historicalAccountHeaders[commitment]?).map (fun row => row.header) =
      (second.historicalAccountHeaders[commitment]?).map fun row => row.header) :
    first.resolveState commitment = second.resolveState commitment := by
  have states := congrArg (Option.map fun header : AccountHeader => (header.id, header.nonce))
    historical
  rw [Option.map_map, Option.map_map] at states
  unfold resolveState
  cases left : (OrderedMap.values first.latestAccountHeaders).find? fun row =>
      row.header.toCommitment = commitment with
  | none =>
    rw [left, Option.map_none, eq_comm, Option.map_eq_none_iff] at latest
    rw [latest]
    exact states
  | some row =>
    rw [left, Option.map_some, eq_comm] at latest
    obtain ⟨other, right, same⟩ := Option.map_eq_some_iff.mp latest
    rw [right]
    exact congrArg (fun header : AccountHeader => some (header.id, header.nonce)) same.symm

/-- The same row with its lock set. -/
def lockRow (lockedId other : AccountId) (row : HeaderRow) : HeaderRow :=
  if lockedId = other then { row with locked := true } else row

omit [ProtocolLibrary] in
theorem lockRow_header (lockedId other : AccountId) (row : HeaderRow) :
    (lockRow lockedId other row).header = row.header := by
  unfold lockRow
  split
  · rfl
  · rfl

theorem lockLatest_sameUndo (db : IdxdbDatabase) (lockedId : AccountId) :
    (db.lockLatest lockedId).SameUndo db where
  resolved commitment := by
    refine resolveState_congr ?_ rfl
    show ((OrderedMap.values (db.latestAccountHeaders.modify lockedId _)).find? _).map _ = _
    rw [OrderedMap.modify_eq_map]
    refine OrderedMap.find?_values_map (fun other row => ?_) (lockRow_header lockedId)
      db.latestAccountHeaders
    exact congrArg (fun header : AccountHeader => decide (header.toCommitment = commitment))
      (lockRow_header lockedId other row)
  replaced _ _ := Iff.rfl
  stored id := by rw [lockLatest_getElem?, Option.map_eq_none_iff]

theorem lockHistorical_sameUndo (db : IdxdbDatabase) (lockedId : AccountId) :
    (db.lockHistorical lockedId).SameUndo db where
  resolved commitment := by
    refine resolveState_congr rfl ?_
    rw [lockHistorical_getElem?, Option.map_map]
    refine congrArg (fun view => Option.map view _) (funext fun row => ?_)
    rw [Function.comp_apply]
    split
    · rfl
    · rfl
  replaced id nonce := by
    refine not_iff_not.mp ?_
    rw [← ne_eq, ← ne_eq, replacedAt_ne_none_iff, replacedAt_ne_none_iff]
    constructor
    · rintro ⟨commitment, row, found, own, replaced⟩
      rw [lockHistorical_getElem?] at found
      obtain ⟨old, stored, rfl⟩ := Option.map_eq_some_iff.mp found
      refine ⟨commitment, old, stored, ?_, ?_⟩
      · split at own
        · exact own
        · exact own
      · split at replaced
        · exact replaced
        · exact replaced
    · rintro ⟨commitment, row, found, own, replaced⟩
      refine ⟨commitment, if row.header.id = lockedId then { row with locked := true } else row,
        ?_, ?_, ?_⟩
      · rw [lockHistorical_getElem?, found]
        rfl
      · split
        · exact own
        · exact own
      · split
        · exact replaced
        · exact replaced
  stored _ := Iff.rfl

/-! ### New states of an account -/

/-- A new header of another account archives no row of this one. -/
theorem replaceHeader_away (keyed : db.HeadersKeyed) (header : AccountHeader)
    (seed : Option Word) :
    (db.replaceHeader header seed).HeadersKeyed ∧ ∀ id, id ≠ header.id →
      (db.replaceHeader header seed).latestAccountHeaders[id]? = db.latestAccountHeaders[id]? ∧
        (db.MarkedRows id → (db.replaceHeader header seed).MarkedRows id) := by
  have latest (id : AccountId) : (db.replaceHeader header seed).latestAccountHeaders[id]? =
      if header.id = id then some ⟨header, seed, false⟩ else db.latestAccountHeaders[id]? := by
    show (db.latestAccountHeaders.insert _ _)[id]? = _
    rw [ExtTreeMap.getElem?_insert]
    simp only [Std.compare_eq_iff_eq]
  refine ⟨fun id row found => ?_, fun id other => ?_⟩
  · rw [latest] at found
    split at found
    · rename_i same
      cases found
      exact same
    · exact keyed id row found
  · have kept : (db.replaceHeader header seed).latestAccountHeaders[id]? =
        db.latestAccountHeaders[id]? := by
      rw [latest, if_neg (Ne.symm other)]
    refine ⟨kept, fun marked => ⟨fun row found => ?_, fun commitment row found own => ?_⟩⟩
    · rw [kept] at found
      exact marked.latest row found
    · unfold replaceHeader at found
      dsimp only at found
      split at found
      · rename_i old stored
        rw [ExtTreeMap.getElem?_insert] at found
        split at found
        · cases found
          exact absurd (own.symm.trans (keyed header.id old stored)) other
        · exact marked.historical commitment row found own
      · exact marked.historical commitment row found own

/-- A new state from outside is not locked. -/
theorem replaceHeader_isLocked_false (header : AccountHeader) (seed : Option Word) :
    ¬(db.replaceHeader header seed).IsLocked header.id := by
  rintro ⟨row, found, locked⟩
  replace found : (db.latestAccountHeaders.insert header.id ⟨header, seed, false⟩)[header.id]? =
    some row := found
  rw [ExtTreeMap.getElem?_insert_self] at found
  cases found
  cases locked

/-- An invariant that changes of one account keep, as long as they write its headers as the store
does. -/
structure KeptBy (invariant : IdxdbDatabase → Prop) (touched : AccountId) : Prop where
  sameHeaders : ∀ db next : IdxdbDatabase, next.latestAccountHeaders = db.latestAccountHeaders →
    next.historicalAccountHeaders = db.historicalAccountHeaders → invariant db → invariant next
  insertHeader : ∀ (db : IdxdbDatabase) (row : HeaderRow), row.header.id = touched →
    invariant db → invariant { db with
      latestAccountHeaders := db.latestAccountHeaders.insert touched row }
  replaceHeader : ∀ (db : IdxdbDatabase) (header : AccountHeader) (seed : Option Word),
    header.id = touched → invariant db → invariant (db.replaceHeader header seed)

theorem keptBy_headersKeyed (touched : AccountId) : KeptBy HeadersKeyed touched where
  sameHeaders db next latest _ keyed := by rwa [HeadersKeyed, latest]
  insertHeader db row own keyed id stored found := by
    replace found : (db.latestAccountHeaders.insert touched row)[id]? = some stored := found
    rw [ExtTreeMap.getElem?_insert] at found
    split at found
    · rename_i same
      cases found
      exact own.trans (Std.compare_eq_iff_eq.mp same)
    · exact keyed id stored found
  replaceHeader db header seed _ keyed := (replaceHeader_away keyed header seed).1

/-- The account is stored, and everything about it is marked. -/
structure Held (accountId : AccountId) (db : IdxdbDatabase) : Prop where
  keyed : db.HeadersKeyed
  marked : db.MarkedRows accountId
  stored : db.latestAccountHeaders[accountId]? ≠ none

theorem keptBy_marked {touched : AccountId} (away : accountId ≠ touched) :
    KeptBy (fun db => db.HeadersKeyed ∧ db.MarkedRows accountId) touched where
  sameHeaders db next latest historical holds :=
    ⟨(keptBy_headersKeyed touched).sameHeaders db next latest historical holds.1,
      by rw [LatestMarked, latest]; exact holds.2.latest,
      by rw [HistoryMarked, historical]; exact holds.2.historical⟩
  insertHeader db row own holds := by
    refine ⟨(keptBy_headersKeyed touched).insertHeader db row own holds.1, fun stored found => ?_,
      holds.2.historical⟩
    replace found : (db.latestAccountHeaders.insert touched row)[accountId]? = some stored := found
    rw [ExtTreeMap.getElem?_insert, if_neg (by rw [Std.compare_eq_iff_eq]; exact Ne.symm away)]
      at found
    exact holds.2.latest stored found
  replaceHeader db header seed own holds := by
    obtain ⟨keyed, others⟩ := replaceHeader_away holds.1 header seed
    exact ⟨keyed, (others accountId (own ▸ away)).2 holds.2⟩

theorem keptBy_held {touched : AccountId} (away : accountId ≠ touched) :
    KeptBy (Held accountId) touched where
  sameHeaders db next latest historical held := by
    obtain ⟨keyed, marked⟩ := (keptBy_marked away).sameHeaders db next latest historical
      ⟨held.keyed, held.marked⟩
    exact ⟨keyed, marked, by rw [latest]; exact held.stored⟩
  insertHeader db row own held := by
    obtain ⟨keyed, marked⟩ := (keptBy_marked away).insertHeader db row own
      ⟨held.keyed, held.marked⟩
    refine ⟨keyed, marked, fun gone => held.stored ?_⟩
    refine Eq.trans (ExtTreeMap.getElem?_insert.trans (if_neg ?_)).symm gone
    rw [Std.compare_eq_iff_eq]
    exact Ne.symm away
  replaceHeader db header seed own held := by
    obtain ⟨keyed, marked⟩ := (keptBy_marked away).replaceHeader db header seed own
      ⟨held.keyed, held.marked⟩
    have latest := ((replaceHeader_away held.keyed header seed).2 accountId (own ▸ away)).1
    exact ⟨keyed, marked, fun gone => held.stored (latest.symm.trans gone)⟩

theorem KeptBy.applyFullAccountState {invariant : IdxdbDatabase → Prop} {account : Account}
    (kept : KeptBy invariant account.id) (holds : invariant db) :
    invariant (db.applyFullAccountState account) :=
  kept.replaceHeader _ account.toHeader account.seed rfl (kept.sameHeaders db _ rfl rfl holds)

theorem KeptBy.applyTransactionDelta {invariant : IdxdbDatabase → Prop} {header : AccountHeader}
    (kept : KeptBy invariant header.id)
    (updatedSlots : ExtTreeMap StorageSlotName (Word × StorageSlotType))
    (updatedAssets : List Asset)
    (removedVaultKeys : List AssetVaultKey) (delta : AccountDelta) (holds : invariant db) :
    invariant (db.applyTransactionDelta header updatedSlots updatedAssets removedVaultKeys delta) :=
  kept.replaceHeader _ header none rfl (kept.sameHeaders db _ rfl rfl holds)

theorem foldl_applyFullAccountState {invariant : IdxdbDatabase → Prop} {accounts : List Account}
    (kept : ∀ account ∈ accounts, KeptBy invariant account.id) (holds : invariant db) :
    invariant (accounts.foldl (fun db account =>
      db.applyFullAccountState { account with seed := none }) db) := by
  induction accounts generalizing db with
  | nil => exact holds
  | cons account rest inductionHypothesis =>
    have keptHere : KeptBy invariant { account with seed := none }.id :=
      kept account List.mem_cons_self
    exact inductionHypothesis (fun other member => kept other (List.mem_cons_of_mem account member))
      (keptHere.applyFullAccountState holds)

/-- An account that is replaced from outside ends up without a lock. -/
theorem foldl_applyFullAccountState_not_isLocked {accounts : List Account} {updated : Account}
    (listed : updated ∈ accounts) (own : updated.id = accountId) (db : IdxdbDatabase) :
    ¬(accounts.foldl (fun db account =>
      db.applyFullAccountState { account with seed := none }) db).IsLocked accountId := by
  induction accounts using List.reverseRecOn with
  | nil => cases listed
  | append_singleton accounts last inductionHypothesis =>
    rw [List.foldl_append, List.foldl_cons, List.foldl_nil]
    by_cases same : last.id = accountId
    · rw [← same]
      exact replaceHeader_isLocked_false _ _
    · rcases List.mem_append.mp listed with before | here
      · rintro ⟨row, found, locked⟩
        refine inductionHypothesis before ⟨row, ?_, locked⟩
        rw [← found]
        refine (ExtTreeMap.getElem?_insert.trans (if_neg ?_)).symm
        rw [Std.compare_eq_iff_eq]
        exact same
      · cases List.mem_singleton.mp here
        exact absurd own same

theorem pruneAccountHistory_headers (db : IdxdbDatabase) (foreignCodes : Finset Word)
    (prunedId : AccountId) (upToNonce : ℕ) :
    (db.pruneAccountHistory foreignCodes prunedId upToNonce).latestAccountHeaders =
        db.latestAccountHeaders ∧
      ∀ (commitment : Word) (row : HistoricalHeaderRow),
        (db.pruneAccountHistory foreignCodes prunedId
          upToNonce).historicalAccountHeaders[commitment]? = some row →
            db.historicalAccountHeaders[commitment]? = some row := by
  show ((db.headersToPrune prunedId upToNonce).foldl (pruneHeader prunedId)
      db).latestAccountHeaders = _ ∧ ∀ (commitment : Word) (row : HistoricalHeaderRow),
    ((db.headersToPrune prunedId upToNonce).foldl (pruneHeader prunedId)
      db).historicalAccountHeaders[commitment]? = some row → _
  generalize db.headersToPrune prunedId upToNonce = rows
  induction rows generalizing db with
  | nil => exact ⟨rfl, fun _ _ found => found⟩
  | cons pruned rest inductionHypothesis =>
    obtain ⟨latest, historical⟩ := inductionHypothesis (pruneHeader prunedId db pruned)
    refine ⟨latest, fun commitment row found => ?_⟩
    have kept : (db.historicalAccountHeaders.erase pruned.header.toCommitment)[commitment]? =
      some row := historical commitment row found
    exact ((OrderedMap.getElem?_erase_eq_some_iff _ _ _ _).mp kept).2

theorem Held.pruneAccountHistory (held : Held accountId db) (foreignCodes : Finset Word)
    (prunedId : AccountId) (upToNonce : ℕ) :
    Held accountId (db.pruneAccountHistory foreignCodes prunedId upToNonce) := by
  obtain ⟨latest, historical⟩ := db.pruneAccountHistory_headers foreignCodes prunedId upToNonce
  refine ⟨by rw [HeadersKeyed, latest]; exact held.keyed,
    ⟨by rw [LatestMarked, latest]; exact held.marked.latest,
    fun commitment row found => held.marked.historical commitment row (historical commitment row
      found)⟩, by rw [latest]; exact held.stored⟩

end Library

end IdxdbDatabase

namespace IdxdbStore

variable [NoteLibrary] [ProtocolLibrary] {refusals : Refusals} {accountId touched : AccountId}
  {invariant : IdxdbDatabase → Prop}

/-- The operation keeps an invariant of the account tables. -/
def KeepsAccounts {α : Type} (invariant : IdxdbDatabase → Prop)
    (operation : StoreM IdxdbDatabase α) : Prop :=
  Fallible.Preserves (fun store => invariant store.tables.accounts) operation

section

omit [ProtocolLibrary] [NoteLibrary]

theorem keepsAccounts_read (place : Statement) :
    KeepsAccounts invariant (StoreM.read refusals place) :=
  StoreM.read_preserves_tables (fun tables => invariant tables.accounts) refusals place

theorem keepsAccounts_write (place : Statement)
    {change : StoreTables IdxdbDatabase → StoreTables IdxdbDatabase}
    (keeps : ∀ tables, invariant tables.accounts → invariant (change tables).accounts) :
    KeepsAccounts invariant (StoreM.write refusals place change) :=
  StoreM.write_preserves_tables (fun tables => invariant tables.accounts) refusals place keeps

theorem keepsAccounts_withForest {α : Type} (operation : StoreTables IdxdbDatabase → ForestM α) :
    KeepsAccounts invariant (StoreM.withForest operation) :=
  StoreM.withForest_preserves_tables (fun tables => invariant tables.accounts) operation

theorem keepsAccounts_writeEach
    {writes : List (Statement × (StoreTables IdxdbDatabase → StoreTables IdxdbDatabase))}
    (keeps : ∀ change ∈ writes, ∀ tables, invariant tables.accounts →
      invariant (change.2 tables).accounts) :
    KeepsAccounts invariant (StoreM.writeEach refusals writes) :=
  StoreM.writeEach_preserves_tables (fun tables => invariant tables.accounts) keeps

theorem keepsAccounts_recordWrites (update : TransactionStoreUpdate) :
    KeepsAccounts invariant (StoreM.writeEach refusals (recordWrites update)) := by
  refine keepsAccounts_writeEach fun change member tables holds => ?_
  simp only [recordWrites, List.mem_append, List.mem_map, List.mem_singleton] at member
  rcases member with ⟨script, -, rfl⟩ | rfl
  · exact holds
  · exact holds

end

omit [ProtocolLibrary] in
theorem noteWrites_accounts {updates : NoteUpdateTracker}
    {change : Statement × (StoreTables IdxdbDatabase → StoreTables IdxdbDatabase)}
    (member : change ∈ noteWrites updates) (tables : StoreTables IdxdbDatabase) :
    (change.2 tables).accounts = tables.accounts := by
  simp only [noteWrites, List.mem_append, List.mem_map] at member
  rcases member with ⟨update, -, rfl⟩ | ⟨update, -, rfl⟩
  · rfl
  · rfl

omit [ProtocolLibrary] in
theorem keepsAccounts_noteWrites (updates : NoteUpdateTracker) :
    KeepsAccounts invariant (StoreM.writeEach refusals (noteWrites updates)) := by
  refine keepsAccounts_writeEach fun change member tables holds => ?_
  rwa [noteWrites_accounts member]

omit [ProtocolLibrary] [NoteLibrary] in
theorem keepsAccounts_addNoteTag (record : NoteTagRecord) :
    KeepsAccounts invariant (addNoteTag refusals record) := by
  refine Fallible.Preserves.bind (keepsAccounts_read _) fun _ => ?_
  refine Fallible.Preserves.bind (Fallible.Preserves.get _) fun store => ?_
  split
  · exact Fallible.Preserves.pure _ _
  · exact keepsAccounts_write _ fun _ holds => holds

omit [NoteLibrary] in
theorem keepsAccounts_insertAccount {account : Account}
    (kept : IdxdbDatabase.KeptBy invariant account.id) :
    KeepsAccounts invariant (insertAccount refusals account) := by
  refine Fallible.Preserves.bind (keepsAccounts_writeEach ?_) fun _ =>
    keepsAccounts_withForest _
  intro change member tables holds
  simp only [insertWrites, List.mem_cons, List.not_mem_nil, or_false] at member
  rcases member with rfl | rfl | rfl | rfl | rfl | rfl
  · exact kept.sameHeaders tables.accounts _ rfl rfl holds
  · exact kept.sameHeaders tables.accounts _ rfl rfl holds
  · exact kept.sameHeaders tables.accounts _ rfl rfl holds
  · exact kept.sameHeaders tables.accounts _ rfl rfl holds
  · exact kept.insertHeader tables.accounts _ rfl holds
  · exact holds

omit [NoteLibrary] in
theorem keepsAccounts_applyAccount {update : TransactionStoreUpdate}
    (ofAccount : ∀ account, update.fullState = some account →
      account.id = update.executedTransaction.finalAccount.id)
    (kept : IdxdbDatabase.KeptBy invariant update.executedTransaction.finalAccount.id) :
    KeepsAccounts invariant (applyAccount refusals update) := by
  unfold applyAccount
  cases full : update.fullState with
  | some account =>
    refine Fallible.Preserves.bind (keepsAccounts_write _ ?_) fun _ =>
      keepsAccounts_withForest _
    intro tables holds
    rw [← ofAccount account full] at kept
    exact kept.applyFullAccountState holds
  | none =>
    refine Fallible.Preserves.bind (keepsAccounts_read _) fun _ => ?_
    refine Fallible.Preserves.bind (keepsAccounts_read _) fun _ => ?_
    refine Fallible.Preserves.bind (keepsAccounts_withForest _) fun changes => ?_
    exact keepsAccounts_write _ fun tables holds =>
      kept.applyTransactionDelta _ _ _ _ holds

theorem keepsAccounts_applyTransaction {update : TransactionStoreUpdate}
    (ofAccount : ∀ account, update.fullState = some account →
      account.id = update.executedTransaction.finalAccount.id)
    (kept : IdxdbDatabase.KeptBy invariant update.executedTransaction.finalAccount.id) :
    KeepsAccounts invariant (applyTransaction refusals update) := by
  refine Fallible.Preserves.bind (keepsAccounts_recordWrites update) fun _ => ?_
  refine Fallible.Preserves.bind (keepsAccounts_applyAccount ofAccount kept) fun _ => ?_
  refine Fallible.Preserves.bind (keepsAccounts_noteWrites update.noteUpdates) fun _ => ?_
  exact Fallible.Preserves.forM keepsAccounts_addNoteTag update.newTags

omit [NoteLibrary] in
theorem keepsAccounts_updateAccount {account : Account}
    (kept : IdxdbDatabase.KeptBy invariant account.id) :
    KeepsAccounts invariant (updateAccount refusals account) := by
  refine Fallible.Preserves.bind (keepsAccounts_read _) fun _ => ?_
  refine Fallible.Preserves.bind (Fallible.Preserves.get _) fun store => ?_
  split
  · exact fun _ holds => holds
  · refine Fallible.Preserves.bind (keepsAccounts_write _ ?_) fun _ =>
      keepsAccounts_withForest _
    exact fun tables holds => kept.applyFullAccountState holds

/-! ### A sync -/

section Sync

variable {update : SyncStoreUpdate} {store : Store IdxdbDatabase}

omit [NoteLibrary] [ProtocolLibrary] in
theorem mem_reportWrites {db : IdxdbDatabase} {report : AccountId × Word}
    {change : Statement × (StoreTables IdxdbDatabase → StoreTables IdxdbDatabase)}
    (member : change ∈ reportWrites db report) :
    change = (.readHistory report.1, id) ∨
      change = (.lockLatest report.1, onAccounts fun db => db.lockLatest report.1) ∨
        change = (.lockHistorical report.1, onAccounts fun db => db.lockHistorical report.1) := by
  unfold reportWrites at member
  rcases List.mem_cons.mp member with same | member
  · exact Or.inl same
  split at member
  · cases member
  · rcases List.mem_cons.mp member with same | member
    · exact Or.inr (Or.inl same)
    · exact Or.inr (Or.inr (List.mem_singleton.mp member))

omit [NoteLibrary] in
/-- A write of a lock keeps what is held, and changes nothing that an undo looks at. -/
theorem lockWrite_held {db : IdxdbDatabase} {report : AccountId × Word}
    {change : Statement × (StoreTables IdxdbDatabase → StoreTables IdxdbDatabase)}
    (member : change ∈ reportWrites db report) {tables : StoreTables IdxdbDatabase}
    (held : tables.accounts.Held accountId) :
    (change.2 tables).accounts.Held accountId ∧
      (change.2 tables).accounts.SameUndo tables.accounts := by
  rcases mem_reportWrites member with rfl | rfl | rfl
  · exact ⟨held, ⟨fun _ => rfl, fun _ _ => Iff.rfl, fun _ => Iff.rfl⟩⟩
  · have same := tables.accounts.lockLatest_sameUndo report.1
    exact ⟨⟨held.keyed.lockLatest report.1, ⟨held.marked.latest.lockLatest report.1,
      held.marked.historical⟩, fun gone => held.stored ((same.stored accountId).mp gone)⟩, same⟩
  · exact ⟨⟨held.keyed, ⟨held.marked.latest, held.marked.historical.lockHistorical report.1⟩,
      held.stored⟩, tables.accounts.lockHistorical_sameUndo report.1⟩

omit [NoteLibrary] in
theorem foldl_lockWrites_held {db : IdxdbDatabase} {mismatched : List (AccountId × Word)}
    {writes : List (Statement × (StoreTables IdxdbDatabase → StoreTables IdxdbDatabase))}
    (listed : ∀ change ∈ writes, change ∈ mismatched.flatMap (reportWrites db))
    {tables : StoreTables IdxdbDatabase} (held : tables.accounts.Held accountId) :
    (writes.foldl (fun tables change => change.2 tables) tables).accounts.Held accountId ∧
      (writes.foldl (fun tables change => change.2 tables) tables).accounts.SameUndo
        tables.accounts := by
  induction writes generalizing tables with
  | nil => exact ⟨held, ⟨fun _ => rfl, fun _ _ => Iff.rfl, fun _ => Iff.rfl⟩⟩
  | cons change rest inductionHypothesis =>
    obtain ⟨report, -, member⟩ := List.mem_flatMap.mp (listed change List.mem_cons_self)
    obtain ⟨changed, same⟩ := lockWrite_held member held
    obtain ⟨finished, others⟩ := inductionHypothesis
      (fun other member => listed other (List.mem_cons_of_mem change member)) changed
    exact ⟨finished, others.trans same⟩

omit [NoteLibrary] in
/-- The writes of a sync before the rollback that are reached, and the rollback if it is. -/
theorem reached_accountWrites (refusals : Refusals) (db : IdxdbDatabase)
    (update : SyncStoreUpdate) :
    ∃ locks rollback, StoreM.reached refusals (accountWrites db update) = locks ++ rollback ∧
      (∀ change ∈ locks,
        change ∈ update.mismatchedPrivateAccounts.flatMap (reportWrites db)) ∧
      (rollback = [] ∨ ForestM.Accepts refusals ((accountWrites db update).map Prod.fst) ∧
        rollback = [(.undoStates, onAccounts fun db =>
          db.undoAccountStates (update.discardedStates.map Prod.snd))]) := by
  by_cases accepts : ForestM.Accepts refusals ((accountWrites db update).map Prod.fst)
  · rw [StoreM.reached_of_accepts accepts]
    exact ⟨_, _, rfl, fun _ member => member, Or.inr ⟨accepts, rfl⟩⟩
  · refine ⟨StoreM.reached refusals (accountWrites db update), [], (List.append_nil _).symm,
      fun change member => ?_, Or.inl rfl⟩
    unfold StoreM.reached accountWrites at member
    rw [List.takeWhile_append] at member
    split at member
    · rename_i whole
      rcases List.mem_append.mp member with member | member
      · exact member
      · refine absurd (fun place listed => ?_) accepts
        obtain ⟨write, here, rfl⟩ := List.mem_map.mp listed
        rcases List.mem_append.mp here with here | here
        · have all := List.takeWhile_eq_self_iff.mp
            ((List.takeWhile_sublist _).eq_of_length whole)
          exact Option.isNone_iff_eq_none.mp (all write here)
        · rw [List.mem_singleton.mp here]
          rw [List.takeWhile_cons] at member
          split at member
          · rename_i accepted
            exact Option.isNone_iff_eq_none.mp accepted
          · cases member
    · exact (List.takeWhile_subset _) member

/-- The end of a sync writes its tables, or leaves them alone. -/
theorem finishSync_tables (refusals : Refusals) (update : SyncStoreUpdate)
    (store : Store IdxdbDatabase) :
    (Fallible.finalState (finishSync refusals update store)).tables = store.tables ∨
      ((∃ after, finishSync refusals update store = .ok () after) ∧
        (Fallible.finalState (finishSync refusals update store)).tables =
          syncWrite update store.tables) := by
  cases outcome : finishSync refusals update store with
  | error reason after => exact Or.inl (finishSync_eq_error outcome).1
  | ok _ after =>
    refine Or.inr ⟨⟨after, rfl⟩, ?_⟩
    obtain ⟨_, first, settled, rest⟩ := Fallible.bind_eq_result_ok.mp outcome
    obtain ⟨_, second, registered, written⟩ := Fallible.bind_eq_result_ok.mp rest
    rw [← (StoreM.tables_of_withForest_eq_ok registered).trans
      (StoreM.tables_of_withForest_eq_ok settled)]
    cases answer : refusals .syncUpdate with
    | none =>
      rw [StoreM.write_of_accepted answer] at written
      cases written
      rfl
    | some reason =>
      rw [StoreM.write_of_refused answer] at written
      cases written

omit [ProtocolLibrary] in
theorem foldl_noteWrites_accounts (updates : NoteUpdateTracker)
    (tables : StoreTables IdxdbDatabase) :
    ((noteWrites updates).foldl (fun tables write => write.2 tables) tables).accounts =
      tables.accounts :=
  foldl_write_view StoreTables.accounts (fun _ member tables => noteWrites_accounts member tables)
    tables

/-- What a sync has to leave alone for an account to stay locked. -/
structure KeepsAccount (refusals : Refusals) (update : SyncStoreUpdate)
    (store : Store IdxdbDatabase) (accountId : AccountId) : Prop where
  notDeleted : ForestM.Accepts refusals
      ((accountWrites store.tables.accounts update).map Prod.fst) →
    ¬store.tables.accounts.Deletes (update.discardedStates.map Prod.snd) accountId
  notUpdated : ∀ after, applyStateSync refusals update store = .ok () after →
    ∀ account ∈ update.updatedPublicAccounts, account.id ≠ accountId

/-- The end of a sync keeps what is held of an account that it does not replace. -/
theorem finishSync_held (held : store.tables.accounts.Held accountId)
    (notUpdated : ∀ after, finishSync refusals update store = .ok () after →
      ∀ account ∈ update.updatedPublicAccounts, account.id ≠ accountId) :
    (Fallible.finalState (finishSync refusals update store)).tables.accounts.Held accountId := by
  rcases finishSync_tables refusals update store with same | ⟨⟨after, finished⟩, same⟩
  · rwa [same]
  · rw [same]
    refine IdxdbDatabase.foldl_applyFullAccountState (fun account member =>
      IdxdbDatabase.keptBy_held (notUpdated after finished account member).symm) ?_
    rwa [foldl_noteWrites_accounts]

/-- A sync keeps what is held of an account that it neither deletes nor replaces. -/
theorem applyStateSync_held (held : store.tables.accounts.Held accountId)
    (keeps : KeepsAccount refusals update store accountId) :
    (Fallible.finalState (applyStateSync refusals update store)).tables.accounts.Held
      accountId := by
  obtain ⟨locks, rollback, reached, listed, undone⟩ :=
    reached_accountWrites refusals store.tables.accounts update
  have written : ((StoreM.reached refusals (accountWrites store.tables.accounts update)).foldl
      (fun tables change => change.2 tables) store.tables).accounts.Held accountId := by
    obtain ⟨locked, same⟩ := foldl_lockWrites_held listed held
    rw [reached, List.foldl_append]
    rcases undone with rfl | ⟨accepts, rfl⟩
    · exact locked
    · refine ⟨locked.keyed.undoAccountStates _, locked.marked.undoAccountStates _, ?_⟩
      refine IdxdbDatabase.undoAccountStates_stored locked.stored fun deletes => ?_
      exact keeps.notDeleted accepts (same.deletes_iff.mp deletes)
  have ran := @applyStateSync_eq _ _ refusals update store
  have notUpdated := keeps.notUpdated
  rw [ran] at notUpdated ⊢
  rcases StoreM.writeEach_cases refusals (accountWrites store.tables.accounts update) store with
    ⟨-, done⟩ | ⟨-, reason, failed⟩
  · rw [Fallible.bind_of_result_ok done] at notUpdated ⊢
    exact finishSync_held written notUpdated
  · rw [Fallible.bind_eq_result_error.mpr (Or.inl failed)]
    exact written

theorem finishSync_keyed (keyed : store.tables.accounts.HeadersKeyed) :
    (Fallible.finalState (finishSync refusals update store)).tables.accounts.HeadersKeyed := by
  rcases finishSync_tables refusals update store with same | ⟨-, same⟩
  · rwa [same]
  · rw [same]
    refine IdxdbDatabase.foldl_applyFullAccountState (fun account _ =>
      IdxdbDatabase.keptBy_headersKeyed account.id) ?_
    rwa [foldl_noteWrites_accounts]

omit [NoteLibrary] in
theorem keepsAccounts_accountWrites_keyed (refusals : Refusals) (db : IdxdbDatabase)
    (update : SyncStoreUpdate) :
    KeepsAccounts IdxdbDatabase.HeadersKeyed
      (StoreM.writeEach refusals (accountWrites db update)) := by
  refine keepsAccounts_writeEach fun change member tables keyed => ?_
  rcases List.mem_append.mp member with member | member
  · obtain ⟨report, -, member⟩ := List.mem_flatMap.mp member
    rcases mem_reportWrites member with rfl | rfl | rfl
    · exact keyed
    · exact keyed.lockLatest report.1
    · exact keyed
  · rw [List.mem_singleton.mp member]
    exact keyed.undoAccountStates _

theorem applyStateSync_keyed (update : SyncStoreUpdate) :
    KeepsAccounts IdxdbDatabase.HeadersKeyed (applyStateSync refusals update) := by
  intro store keyed
  have written := keepsAccounts_accountWrites_keyed refusals store.tables.accounts update store
    keyed
  show (Fallible.finalState (applyStateSync refusals update store)).tables.accounts.HeadersKeyed
  rw [applyStateSync_eq]
  cases outcome : StoreM.writeEach refusals (accountWrites store.tables.accounts update) store with
  | ok _ middle =>
    rw [outcome] at written
    rw [Fallible.bind_of_result_ok outcome]
    exact finishSync_keyed written
  | error reason middle =>
    rw [outcome] at written
    rw [Fallible.bind_eq_result_error.mpr (Or.inl outcome)]
    exact written

/-- Both puts of a lock of the account are made. -/
structure LocksInFull (refusals : Refusals) (update : SyncStoreUpdate) (db : IdxdbDatabase)
    (accountId : AccountId) : Prop where
  latest : Statement.lockLatest accountId ∈
    (StoreM.reached refusals (accountWrites db update)).map Prod.fst
  historical : Statement.lockHistorical accountId ∈
    (StoreM.reached refusals (accountWrites db update)).map Prod.fst

omit [NoteLibrary] [ProtocolLibrary] in
/-- What one of the writes makes and all of them keep holds after them. -/
theorem foldl_write_makes (made : StoreTables IdxdbDatabase → Prop)
    {writes : List (Statement × (StoreTables IdxdbDatabase → StoreTables IdxdbDatabase))}
    (keeps : ∀ change ∈ writes, ∀ tables, made tables → made (change.2 tables))
    {maker : Statement × (StoreTables IdxdbDatabase → StoreTables IdxdbDatabase)}
    (listed : maker ∈ writes) (makes : ∀ tables, made (maker.2 tables))
    (tables : StoreTables IdxdbDatabase) :
    made (writes.foldl (fun tables change => change.2 tables) tables) := by
  induction writes using List.reverseRecOn with
  | nil => cases listed
  | append_singleton writes last inductionHypothesis =>
    rw [List.foldl_append, List.foldl_cons, List.foldl_nil]
    rcases List.mem_append.mp listed with before | here
    · refine keeps last (List.mem_append_right _ (List.mem_singleton_self last)) _ ?_
      exact inductionHypothesis (fun change member => keeps change (List.mem_append_left _ member))
        before
    · rw [← List.mem_singleton.mp here]
      exact makes _

omit [NoteLibrary] in
/-- After both puts of a lock every row of the account is marked. -/
theorem LocksInFull.marks {db : IdxdbDatabase}
    (full : LocksInFull refusals update db accountId) (tables : StoreTables IdxdbDatabase) :
    ((StoreM.reached refusals (accountWrites db update)).foldl
      (fun tables change => change.2 tables) tables).accounts.MarkedRows accountId := by
  obtain ⟨locks, rollback, reached, listed, undone⟩ := reached_accountWrites refusals db update
  have makes {place : Statement} (other : place ≠ .undoStates)
      (member : place ∈ (StoreM.reached refusals (accountWrites db update)).map Prod.fst) :
      ∃ change ∈ locks, change.1 = place := by
    obtain ⟨change, here, rfl⟩ := List.mem_map.mp member
    rw [reached] at here
    rcases List.mem_append.mp here with here | here
    · exact ⟨change, here, rfl⟩
    · rcases undone with rfl | ⟨-, rfl⟩
      · cases here
      · rw [List.mem_singleton.mp here] at other
        exact absurd rfl other
  have locked : (locks.foldl (fun tables change => change.2 tables)
      tables).accounts.MarkedRows accountId := by
    constructor
    · obtain ⟨change, member, place⟩ := makes (by simp) full.latest
      refine foldl_write_makes (fun tables => tables.accounts.LatestMarked accountId)
        (fun other listedOther tables marked => ?_) member (fun tables => ?_) tables
      · obtain ⟨report, -, written⟩ := List.mem_flatMap.mp (listed other listedOther)
        rcases mem_reportWrites written with rfl | rfl | rfl
        · exact marked
        · exact marked.lockLatest report.1
        · exact marked
      · obtain ⟨report, -, written⟩ := List.mem_flatMap.mp (listed change member)
        rcases mem_reportWrites written with rfl | rfl | rfl
        · cases place
        · cases place
          exact tables.accounts.lockLatest_marks report.1
        · cases place
    · obtain ⟨change, member, place⟩ := makes (by simp) full.historical
      refine foldl_write_makes (fun tables => tables.accounts.HistoryMarked accountId)
        (fun other listedOther tables marked => ?_) member (fun tables => ?_) tables
      · obtain ⟨report, -, written⟩ := List.mem_flatMap.mp (listed other listedOther)
        rcases mem_reportWrites written with rfl | rfl | rfl
        · exact marked
        · exact marked
        · exact marked.lockHistorical report.1
      · obtain ⟨report, -, written⟩ := List.mem_flatMap.mp (listed change member)
        rcases mem_reportWrites written with rfl | rfl | rfl
        · cases place
        · cases place
        · cases place
          exact tables.accounts.lockHistorical_marks report.1
  rw [reached, List.foldl_append]
  rcases undone with rfl | ⟨-, rfl⟩
  · exact locked
  · exact locked.undoAccountStates _

/-- A sync that makes both puts of a lock and leaves the account locked marks all its rows. -/
theorem applyStateSync_marks (keyed : store.tables.accounts.HeadersKeyed)
    (full : LocksInFull refusals update store.tables.accounts accountId)
    (locked : (Fallible.finalState
      (applyStateSync refusals update store)).tables.accounts.IsLocked accountId) :
    (Fallible.finalState (applyStateSync refusals update store)).tables.accounts.Held
      accountId := by
  obtain ⟨row, found, -⟩ := id locked
  refine ⟨applyStateSync_keyed update store keyed, ?_, by rw [found]; exact Option.some_ne_none row⟩
  have marked := full.marks store.tables
  have written := keepsAccounts_accountWrites_keyed refusals store.tables.accounts update store
    keyed
  rw [applyStateSync_eq] at locked ⊢
  rcases StoreM.writeEach_cases refusals (accountWrites store.tables.accounts update) store with
    ⟨-, done⟩ | ⟨-, reason, failed⟩
  · rw [done] at written
    rw [Fallible.bind_of_result_ok done] at locked ⊢
    rcases finishSync_tables refusals update { store with
        tables := (StoreM.reached refusals (accountWrites store.tables.accounts update)).foldl
          (fun tables change => change.2 tables) store.tables } with same | ⟨-, same⟩
    · rw [same]
      exact marked
    · rw [same] at locked ⊢
      refine (IdxdbDatabase.foldl_applyFullAccountState
        (fun account member => IdxdbDatabase.keptBy_marked fun own => ?_) ?_).2
      · exact IdxdbDatabase.foldl_applyFullAccountState_not_isLocked member own.symm _ locked
      · rw [foldl_noteWrites_accounts]
        exact ⟨written, marked⟩
  · rw [Fallible.bind_eq_result_error.mpr (Or.inl failed)]
    exact marked

end Sync

end IdxdbStore

end MidenClient
