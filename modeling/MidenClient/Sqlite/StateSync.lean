/-
This file models the account part of `apply_state_sync`
(`sqlite-store/src/sync.rs`): the states of discarded transactions are undone, the
staged roots of committed transactions are released, updated public accounts are
replaced, and private accounts with an unexpected commitment are locked.

What a synchronization does to the header rows of one account is computed from the rows
that were stored before it.
-/

import MidenClient.Sqlite.Undo

namespace MidenClient

open Std (ExtTreeMap)

/-- The account part of a state sync update. -/
structure AccountSyncUpdate where
  /-- The accounts and final states of the discarded transactions. -/
  discardedStates : List (AccountId × Word)
  /-- The accounts of the committed transactions. -/
  committedAccounts : List AccountId
  updatedPublicAccounts : List Account
  mismatchedPrivateAccounts : List (AccountId × Word)

variable [ProtocolLibrary]

namespace Database

/-- Undoes, commits and replaces account states, before accounts are locked. -/
def applyAccountUpdates (db : Database) (update : AccountSyncUpdate) : ForestM Database := do
  let db ← ForestM.update fun forest =>
    let (undone, next) := db.undoAccountState forest update.discardedStates
    .ok (next, undone)
  let db ← ForestM.update fun forest =>
    .ok (update.committedAccounts.foldl AccountSmtForest.commitRoots forest, db)
  update.updatedPublicAccounts.foldlM updateAccountState db

/-- Applies the account part of a state sync update. -/
def applyStateSync (db : Database) (update : AccountSyncUpdate) : ForestM Database := do
  let db ← db.applyAccountUpdates update
  return update.mismatchedPrivateAccounts.foldl lockAccountOnUnexpectedCommitment db

/-- The nonces of an account that the discarded states undo, in descending order. -/
def undoneNonces (db : Database) (discardedStates : List (AccountId × Word))
    (accountId : AccountId) : List ℕ :=
  descending (((db.resolveStates (discardedStates.map Prod.snd)).filter fun state =>
    state.1 = accountId).map Prod.snd)

/-- The historical header rows of an account. -/
def historyOf (db : Database) (accountId : AccountId) : List HistoricalHeaderRow :=
  db.historicalAccountHeaders.filter fun row => row.header.id = accountId

/-! ### Header rows of one account -/

/-- The header rows of an account are the same. -/
def SameHeaders (first second : Database) (accountId : AccountId) : Prop :=
  first.latestAccountHeaders[accountId]? = second.latestAccountHeaders[accountId]? ∧
    first.historyOf accountId = second.historyOf accountId

/-- The header row of an account after some of its nonces are undone. -/
def headerAfter (db : Database) (accountId : AccountId) (nonces : List ℕ) : Option HeaderRow :=
  match nonces.getLast? with
  | none => db.latestAccountHeaders[accountId]?
  | some minNonce =>
    (db.replacedAt accountId minNonce).getLast?.map HistoricalHeaderRow.toHeaderRow

theorem restoreHeader_latest (collisionFree : CollisionFree) (db : Database)
    (keyed : db.HeadersKeyed) (accountId : AccountId) (minNonce : ℕ) (id : AccountId) :
    (db.restoreHeader accountId minNonce).latestAccountHeaders[id]? =
      if accountId = id then
        (db.replacedAt accountId minNonce).getLast?.map HistoricalHeaderRow.toHeaderRow
      else db.latestAccountHeaders[id]? := by
  have ofAccount : ∀ row ∈ db.replacedAt accountId minNonce, row.header.id = accountId :=
    fun row member => (of_decide_eq_true (List.mem_filter.mp member).2).1
  unfold restoreHeader
  split
  · rename_i none_
    rw [none_, deleteLatest, ExtTreeMap.getElem?_erase]
    simp only [Std.compare_eq_iff_eq]
    rfl
  · rename_i some_
    rw [foldl_replaceLatestHeader_getElem? collisionFree _ db keyed accountId ofAccount]
    cases last : (db.replacedAt accountId minNonce).getLast? with
    | none => exact absurd (List.getLast?_eq_none_iff.mp last) some_
    | some row => rfl

theorem restoreHeader_historical (db : Database) (accountId : AccountId) (minNonce : ℕ) :
    (db.restoreHeader accountId minNonce).historicalAccountHeaders =
      db.historicalAccountHeaders := by
  unfold restoreHeader
  split
  · rfl
  · rw [foldl_replaceLatestHeader]

/-- What undoing some nonces of one account does to the header rows of every account. -/
theorem undoAccountNonces_headers (collisionFree : CollisionFree) {db : Database}
    (keyed : db.HeadersKeyed) (accountId : AccountId) (nonces : List ℕ) (some_ : nonces ≠ [])
    (id : AccountId) :
    (db.undoAccountNonces accountId nonces).latestAccountHeaders[id]? =
        (if accountId = id then db.headerAfter accountId nonces
          else db.latestAccountHeaders[id]?) ∧
      (db.undoAccountNonces accountId nonces).historyOf id =
        if accountId = id then
          (db.historyOf id).filter fun row => row.replacedAtNonce ∉ nonces
        else db.historyOf id := by
  obtain ⟨minNonce, last⟩ : ∃ minNonce, nonces.getLast? = some minNonce :=
    Option.isSome_iff_exists.mp (List.getLast?_isSome.mpr some_)
  rw [undoAccountNonces, last]
  constructor
  · let restored := nonces.foldl (fun db nonce => db.restoreOldValuesForNonce accountId nonce) db
    have frame : restored.latestAccountHeaders = db.latestAccountHeaders ∧
        restored.historicalAccountHeaders = db.historicalAccountHeaders := by
      rw [show restored = _ from foldl_restore nonces db accountId]
      exact ⟨rfl, rfl⟩
    have restoredKeyed : restored.HeadersKeyed := by
      rwa [HeadersKeyed, frame.1]
    show (restored.restoreHeader accountId minNonce).latestAccountHeaders[id]? = _
    rw [restoreHeader_latest collisionFree restored restoredKeyed, frame.1, replacedAt, frame.2,
      headerAfter, last]
    rfl
  · show List.filter _ (List.filter _
      ((nonces.foldl _ db).restoreHeader accountId minNonce).historicalAccountHeaders) = _
    rw [restoreHeader_historical, foldl_restore]
    by_cases same : accountId = id
    · rw [if_pos same, historyOf, List.filter_filter, List.filter_filter]
      refine List.filter_congr fun row _ => ?_
      by_cases ofAccount : row.header.id = id
      · simp [ofAccount, same]
      · simp [ofAccount]
    · rw [if_neg same, List.filter_filter]
      refine List.filter_congr fun row _ => ?_
      by_cases ofAccount : row.header.id = id
      · simp [ofAccount, Ne.symm same]
      · simp [ofAccount]

omit [ProtocolLibrary] in
theorem replacedAt_eq (db : Database) (accountId : AccountId) (nonce : ℕ) :
    db.replacedAt accountId nonce =
      (db.historyOf accountId).filter fun row => row.replacedAtNonce = nonce := by
  rw [replacedAt, historyOf, List.filter_filter]
  refine List.filter_congr fun row _ => ?_
  simp [Bool.and_comm]

theorem undoAccountNonces_keyed (collisionFree : CollisionFree) {db : Database}
    (keyed : db.HeadersKeyed) (accountId : AccountId) (nonces : List ℕ) (some_ : nonces ≠ []) :
    (db.undoAccountNonces accountId nonces).HeadersKeyed := by
  intro id row found
  rw [(undoAccountNonces_headers collisionFree keyed accountId nonces some_ id).1] at found
  by_cases same : accountId = id
  · rw [if_pos same, headerAfter] at found
    split at found
    · exact same ▸ keyed accountId row found
    · obtain ⟨old, last, rfl⟩ := Option.map_eq_some_iff.mp found
      have member := List.mem_filter.mp (List.mem_of_getLast? last)
      rw [← same]
      exact (of_decide_eq_true member.2).1
  · rw [if_neg same] at found
    exact keyed id row found

omit [ProtocolLibrary] in
theorem headerAfter_congr {first second : Database} {accountId : AccountId}
    (same : first.SameHeaders second accountId) (nonces : List ℕ) :
    first.headerAfter accountId nonces = second.headerAfter accountId nonces := by
  unfold headerAfter
  split
  · exact same.1
  · rw [replacedAt_eq, replacedAt_eq, same.2]

/-- Undoing several accounts treats each of them on its own. -/
theorem foldl_undoAccountNonces_headers (collisionFree : CollisionFree)
    (undone : AccountId → List ℕ) (accounts : List AccountId) (distinct : accounts.Nodup)
    (some_ : ∀ account ∈ accounts, undone account ≠ []) {db : Database}
    (keyed : db.HeadersKeyed) (id : AccountId) :
    (accounts.foldl (fun db account => db.undoAccountNonces account (undone account))
        db).HeadersKeyed ∧
      (accounts.foldl (fun db account => db.undoAccountNonces account (undone account))
          db).latestAccountHeaders[id]? =
        (if id ∈ accounts then db.headerAfter id (undone id) else db.latestAccountHeaders[id]?) ∧
      (accounts.foldl (fun db account => db.undoAccountNonces account (undone account))
          db).historyOf id =
        if id ∈ accounts then
          (db.historyOf id).filter fun row => row.replacedAtNonce ∉ undone id
        else db.historyOf id := by
  induction accounts generalizing db with
  | nil => exact ⟨keyed, by simp, by simp⟩
  | cons account rest inductionHypothesis =>
    obtain ⟨absent, restDistinct⟩ := List.nodup_cons.mp distinct
    have first := undoAccountNonces_headers collisionFree keyed account (undone account)
      (some_ account List.mem_cons_self) id
    have restSome := fun other member => some_ other (List.mem_cons_of_mem account member)
    obtain ⟨keptKeyed, latest, history⟩ := inductionHypothesis restDistinct restSome
      (undoAccountNonces_keyed collisionFree keyed account (undone account)
        (some_ account List.mem_cons_self))
    refine ⟨keptKeyed, ?_, ?_⟩
    · rw [List.foldl_cons, latest]
      by_cases same : account = id
      · subst same
        rw [if_neg absent, if_pos List.mem_cons_self, first.1, if_pos rfl]
      · rw [if_neg same, if_neg same] at first
        rw [headerAfter_congr first]
        simp only [List.mem_cons, Ne.symm same, false_or, first.1]
    · rw [List.foldl_cons, history]
      by_cases same : account = id
      · subst same
        rw [if_neg absent, if_pos List.mem_cons_self, first.2, if_pos rfl]
      · rw [if_neg same, if_neg same] at first
        simp only [List.mem_cons, Ne.symm same, false_or, first.2]

/-- Discarded states are undone account by account. -/
theorem undoStates_eq_foldl (db : Database) (states : List (AccountId × Word)) :
    ∃ accounts : List AccountId, accounts.Nodup ∧
      (∀ account, account ∈ accounts ↔ db.undoneNonces states account ≠ []) ∧
      db.undoStates states = accounts.foldl (fun current account =>
        current.undoAccountNonces account (db.undoneNonces states account)) db := by
  refine ⟨Grouping.groupKeys Prod.fst (db.resolveStates (states.map Prod.snd)),
    (Grouping.pairwise_lt_groupKeys _ _).imp fun below => below.ne, fun account => ?_, ?_⟩
  · rw [Grouping.mem_groupKeys_iff]
    constructor
    · rintro ⟨state, member, rfl⟩
      refine List.ne_nil_of_mem ((mem_descending _ state.2).mpr (List.mem_map_of_mem ?_))
      exact List.mem_filter.mpr ⟨member, decide_eq_true rfl⟩
    · intro some_
      obtain ⟨nonce, member⟩ := List.exists_mem_of_ne_nil _ some_
      obtain ⟨state, resolved, -⟩ := List.mem_map.mp ((mem_descending _ nonce).mp member)
      exact ⟨state, List.mem_of_mem_filter resolved,
        of_decide_eq_true (List.mem_filter.mp resolved).2⟩
  · rw [undoStates, Grouping.toList_groupBy, List.foldl_map]
    rfl

/-- What undoing discarded states does to the header rows of one account. -/
theorem undoStates_headers (collisionFree : CollisionFree) {db : Database}
    (keyed : db.HeadersKeyed) (states : List (AccountId × Word)) (id : AccountId) :
    (db.undoStates states).HeadersKeyed ∧
      (db.undoStates states).latestAccountHeaders[id]? =
        db.headerAfter id (db.undoneNonces states id) ∧
      (db.undoStates states).historyOf id =
        (db.historyOf id).filter fun row => row.replacedAtNonce ∉ db.undoneNonces states id := by
  obtain ⟨accounts, distinct, listed, folded⟩ := db.undoStates_eq_foldl states
  obtain ⟨keptKeyed, latest, history⟩ := foldl_undoAccountNonces_headers collisionFree
    (db.undoneNonces states) accounts distinct (fun account member => (listed account).mp member)
    keyed id
  rw [folded]
  refine ⟨keptKeyed, latest.trans ?_, history.trans ?_⟩
  · by_cases member : id ∈ accounts
    · rw [if_pos member]
    · rw [if_neg member, not_not.mp fun some_ => member ((listed id).mpr some_)]
      rfl
  · by_cases member : id ∈ accounts
    · rw [if_pos member]
    · rw [if_neg member, not_not.mp fun some_ => member ((listed id).mpr some_)]
      simp

/-! ### Updated public accounts -/

theorem insertStorageSlots_frame (db : Database) (accountId : AccountId)
    (slots : List (StorageSlotName × StorageSlotContent)) :
    db.insertStorageSlots accountId slots =
      { db with
        accountStorage := (db.insertStorageSlots accountId slots).accountStorage
        storageMapEntries := (db.insertStorageSlots accountId slots).storageMapEntries } := by
  unfold insertStorageSlots
  induction slots generalizing db with
  | nil => rfl
  | cons slot rest inductionHypothesis =>
    rw [List.foldl_cons]
    exact inductionHypothesis _

/-- Replacing the content of an account leaves codes and headers alone. -/
theorem replaceContent_frame (db : Database) (account : Account) :
    db.replaceContent account =
      { db with
        accountStorage := (db.replaceContent account).accountStorage
        storageMapEntries := (db.replaceContent account).storageMapEntries
        accountAssets := (db.replaceContent account).accountAssets } := by
  unfold replaceContent insertAssets
  dsimp only
  rw [insertStorageSlots_frame]

/-- What a successful update from the network does to the tables. -/
theorem updateAccountState_eq_ok {db next : Database} {account : Account}
    {forest last : AccountSmtForest}
    (updated : db.updateAccountState account forest = .ok next last) :
    forest.insertAndRegisterAccountState account = .ok last ∧
      (db.replaceContent account).insertAccountHeader account.toHeader none
        (db.latestAccountHeaders[account.id]?.map HeaderRow.header) = .ok next := by
  obtain ⟨_, middle, registered, inserted⟩ := Fallible.bind_eq_result_ok.mp updated
  obtain ⟨headed, rfl⟩ := ForestM.liftExcept_eq_ok.mp inserted
  refine ⟨?_, headed⟩
  have mapped := ForestM.update_eq_ok.mp registered
  cases outcome : forest.insertAndRegisterAccountState account with
  | error reason =>
    rw [outcome] at mapped
    cases mapped
  | ok next =>
    rw [outcome] at mapped
    cases mapped
    rfl

/-- A new header replaces the rows of its own account only, whichever header of the account is
archived. -/
theorem insertAccountHeader_ofAccount (collisionFree : CollisionFree) (db : Database)
    (keyed : db.HeadersKeyed) {newHeader : AccountHeader} {seed : Option Word}
    {oldHeader : Option AccountHeader} {next : Database}
    (ofAccount : ∀ old, oldHeader = some old → old.id = newHeader.id)
    (inserted : db.insertAccountHeader newHeader seed oldHeader = .ok next) :
    next.HeadersKeyed ∧ ∀ id, id ≠ newHeader.id → next.SameHeaders db id := by
  cases oldHeader with
  | none =>
    obtain ⟨-, rfl⟩ := (db.insertAccountHeader_none_eq_ok_iff next newHeader seed).mp inserted
    refine ⟨db.replaceLatestHeader_keyed _ collisionFree keyed, fun id other => ⟨?_, rfl⟩⟩
    rw [db.replaceLatestHeader_getElem? _ collisionFree keyed, if_neg (Ne.symm other)]
  | some archivedHeader =>
    obtain ⟨-, -, -, rfl⟩ :=
      (db.insertAccountHeader_some_eq_ok_iff next newHeader archivedHeader seed).mp inserted
    let archived := db.replaceHistoricalHeader (db.archivedRow archivedHeader newHeader.nonce)
    refine ⟨archived.replaceLatestHeader_keyed _ collisionFree keyed, fun id other => ⟨?_, ?_⟩⟩
    · refine (archived.replaceLatestHeader_getElem? _ collisionFree keyed id).trans ?_
      exact if_neg (Ne.symm other)
    · have away : archivedHeader.id ≠ id := by
        rw [ofAccount archivedHeader rfl]
        exact Ne.symm other
      show List.filter _ (List.filter _ _ ++ [_]) = _
      rw [List.filter_append, List.filter_filter]
      refine (congrArg₂ (· ++ ·) (List.filter_congr ?_) (List.filter_eq_nil_iff.mpr ?_)).trans
        (List.append_nil _)
      · intro old _
        show (decide (old.header.id = id) &&
          decide (old.header.toCommitment ≠ archivedHeader.toCommitment)) = _
        by_cases same : old.header.id = id
        · have different : old.header.toCommitment ≠ archivedHeader.toCommitment := by
            intro equal
            rw [collisionFree equal] at same
            exact away same
          rw [decide_eq_true different, Bool.and_true]
        · rw [decide_eq_false same, Bool.false_and]
      · intro old member
        rw [List.mem_singleton.mp member]
        exact fun kept => away (of_decide_eq_true kept)

/-- The same for the stored header. -/
theorem insertAccountHeader_headers (collisionFree : CollisionFree) (db : Database)
    (keyed : db.HeadersKeyed) {newHeader : AccountHeader} {seed : Option Word} {next : Database}
    (inserted : db.insertAccountHeader newHeader seed
      (db.latestAccountHeaders[newHeader.id]?.map HeaderRow.header) = .ok next) :
    next.HeadersKeyed ∧ ∀ id, id ≠ newHeader.id → next.SameHeaders db id := by
  refine insertAccountHeader_ofAccount collisionFree db keyed ?_ inserted
  intro old stored
  obtain ⟨row, found, rfl⟩ := Option.map_eq_some_iff.mp stored
  exact keyed newHeader.id row found

theorem updateAccountState_headers (collisionFree : CollisionFree) {db next : Database}
    (keyed : db.HeadersKeyed) {account : Account} {forest last : AccountSmtForest}
    (updated : db.updateAccountState account forest = .ok next last) :
    next.HeadersKeyed ∧ ∀ id, id ≠ account.id → next.SameHeaders db id := by
  have frame := db.replaceContent_frame account
  have latest : (db.replaceContent account).latestAccountHeaders = db.latestAccountHeaders := by
    rw [frame]
  have history (id : AccountId) : (db.replaceContent account).historyOf id = db.historyOf id := by
    rw [frame]
    rfl
  have inserted := (updateAccountState_eq_ok updated).2
  rw [← latest] at inserted
  obtain ⟨nextKeyed, same⟩ := insertAccountHeader_headers collisionFree (db.replaceContent account)
    (by rwa [HeadersKeyed, latest]) inserted
  refine ⟨nextKeyed, fun id other => ?_⟩
  have unchanged := same id other
  exact ⟨by rw [unchanged.1, latest], by rw [unchanged.2, history]⟩

theorem undoAccountState_headers (collisionFree : CollisionFree) {db : Database}
    (keyed : db.HeadersKeyed) (forest : AccountSmtForest) (states : List (AccountId × Word))
    (id : AccountId) :
    (db.undoAccountState forest states).1.HeadersKeyed ∧
      (db.undoAccountState forest states).1.latestAccountHeaders[id]? =
        db.headerAfter id (db.undoneNonces states id) ∧
      (db.undoAccountState forest states).1.historyOf id =
        (db.historyOf id).filter fun row => row.replacedAtNonce ∉ db.undoneNonces states id := by
  by_cases none_ : states = []
  · subst none_
    have nothing : db.undoneNonces [] id = [] := by
      simp [undoneNonces, resolveStates, descending]
    rw [nothing]
    exact ⟨keyed, rfl, by simp [undoAccountState]⟩
  · rw [undoAccountState, if_neg (by rwa [List.isEmpty_iff])]
    exact undoStates_headers collisionFree keyed states id

/-- What the update does to the header rows of an account that is not updated from the
network. -/
theorem applyAccountUpdates_headers (collisionFree : CollisionFree) {db next : Database}
    (keyed : db.HeadersKeyed) {update : AccountSyncUpdate} {forest last : AccountSmtForest}
    (updated : db.applyAccountUpdates update forest = .ok next last) {id : AccountId}
    (notUpdated : ∀ account ∈ update.updatedPublicAccounts, id ≠ account.id) :
    next.HeadersKeyed ∧
      next.latestAccountHeaders[id]? =
        db.headerAfter id (db.undoneNonces update.discardedStates id) ∧
      next.historyOf id = (db.historyOf id).filter fun row =>
        row.replacedAtNonce ∉ db.undoneNonces update.discardedStates id := by
  obtain ⟨undone, first, discarded, afterUndo⟩ := Fallible.bind_eq_result_ok.mp updated
  obtain ⟨_, second, committed, remaining⟩ := Fallible.bind_eq_result_ok.mp afterUndo
  cases ForestM.update_eq_ok.mp discarded
  cases ForestM.update_eq_ok.mp committed
  refine Fallible.foldlM_result_invariant (fun current : Database => current.HeadersKeyed ∧
      current.latestAccountHeaders[id]? =
        db.headerAfter id (db.undoneNonces update.discardedStates id) ∧
      current.historyOf id = (db.historyOf id).filter fun row =>
        row.replacedAtNonce ∉ db.undoneNonces update.discardedStates id)
    updateAccountState update.updatedPublicAccounts ?_ _ next _ last
    (undoAccountState_headers collisionFree keyed forest update.discardedStates id) remaining
  rintro account member current start result final ⟨currentKeyed, latest, history⟩ stepped
  obtain ⟨resultKeyed, same⟩ := updateAccountState_headers collisionFree currentKeyed stepped
  have unchanged := same id (notUpdated account member)
  exact ⟨resultKeyed, unchanged.1.trans latest, unchanged.2.trans history⟩

/-! ### Locking -/

/-- The account has a latest row, and it is locked. -/
def IsLocked (db : Database) (accountId : AccountId) : Prop :=
  ∃ row, db.latestAccountHeaders[accountId]? = some row ∧ row.locked = true

/-- No historical row of the account has the digest. -/
def Unexpected (db : Database) (mismatched : AccountId × Word) : Prop :=
  ∀ row ∈ db.historyOf mismatched.1, row.header.toCommitment ≠ mismatched.2

theorem lock_of_unexpected {db : Database} {mismatched : AccountId × Word}
    (unexpected : db.Unexpected mismatched) :
    db.lockAccountOnUnexpectedCommitment mismatched =
      { db with
        latestAccountHeaders := db.latestAccountHeaders.modify mismatched.1 fun row =>
          { row with locked := true }
        historicalAccountHeaders := db.historicalAccountHeaders.map fun row =>
          if row.header.id = mismatched.1 then { row with locked := true } else row } := by
  rw [lockAccountOnUnexpectedCommitment, if_neg]
  rw [List.any_eq_true]
  rintro ⟨row, member, tracked⟩
  obtain ⟨ofAccount, same⟩ := of_decide_eq_true tracked
  exact unexpected row (List.mem_filter.mpr ⟨member, decide_eq_true ofAccount⟩) same

theorem lock_of_expected {db : Database} {mismatched : AccountId × Word}
    (expected : ¬db.Unexpected mismatched) :
    db.lockAccountOnUnexpectedCommitment mismatched = db := by
  rw [lockAccountOnUnexpectedCommitment, if_pos]
  by_contra untracked
  refine expected fun row member same => untracked (List.any_eq_true.mpr ⟨row, ?_⟩)
  obtain ⟨listed, ofAccount⟩ := List.mem_filter.mp member
  exact ⟨listed, decide_eq_true ⟨of_decide_eq_true ofAccount, same⟩⟩

/-- Locking changes no header. -/
theorem lock_unexpected (db : Database) (mismatched other : AccountId × Word) :
    (db.lockAccountOnUnexpectedCommitment mismatched).Unexpected other ↔ db.Unexpected other := by
  by_cases unexpected : db.Unexpected mismatched
  · rw [lock_of_unexpected unexpected]
    simp only [Unexpected, historyOf, List.mem_filter, List.mem_map, decide_eq_true_eq]
    constructor
    · intro absent row member
      have same := absent _ ⟨⟨row, member.1, rfl⟩, by split <;> exact member.2⟩
      split at same
      · exact same
      · exact same
    · rintro absent _ ⟨⟨row, member, rfl⟩, ofAccount⟩
      split at ofAccount
      · rename_i locks
        rw [if_pos locks]
        exact absent row ⟨member, ofAccount⟩
      · rename_i keeps
        rw [if_neg keeps]
        exact absent row ⟨member, ofAccount⟩
  · rw [lock_of_expected unexpected]

theorem lock_latest_eq_none_iff (db : Database) (mismatched : AccountId × Word) (id : AccountId) :
    (db.lockAccountOnUnexpectedCommitment mismatched).latestAccountHeaders[id]? = none ↔
      db.latestAccountHeaders[id]? = none := by
  by_cases unexpected : db.Unexpected mismatched
  · rw [lock_of_unexpected unexpected]
    show (db.latestAccountHeaders.modify _ _)[id]? = none ↔ _
    rw [ExtTreeMap.getElem?_modify]
    split
    · rename_i same
      rw [Std.compare_eq_iff_eq.mp same, Option.map_eq_none_iff]
    · rfl
  · rw [lock_of_expected unexpected]

theorem lock_isLocked (db : Database) (mismatched : AccountId × Word) (id : AccountId) :
    (db.lockAccountOnUnexpectedCommitment mismatched).IsLocked id ↔
      db.IsLocked id ∨
        db.latestAccountHeaders[id]? ≠ none ∧ mismatched.1 = id ∧ db.Unexpected mismatched := by
  by_cases unexpected : db.Unexpected mismatched
  · rw [lock_of_unexpected unexpected, IsLocked, IsLocked]
    show (∃ row, (db.latestAccountHeaders.modify _ _)[id]? = some row ∧ _) ↔ _
    rw [ExtTreeMap.getElem?_modify]
    by_cases same : mismatched.1 = id
    · rw [if_pos (Std.compare_eq_iff_eq.mpr same), same]
      cases db.latestAccountHeaders[id]? with
      | none => simp
      | some row => simp [unexpected]
    · rw [if_neg (by rwa [Std.compare_eq_iff_eq])]
      simp [same]
  · rw [lock_of_expected unexpected]
    simp [unexpected]

/-- An account is locked at the end when it was before or when one of its reports is
unexpected. -/
theorem foldl_lock_isLocked (mismatched : List (AccountId × Word)) (db : Database)
    (id : AccountId) :
    (mismatched.foldl lockAccountOnUnexpectedCommitment db).IsLocked id ↔
      db.IsLocked id ∨ db.latestAccountHeaders[id]? ≠ none ∧
        ∃ report ∈ mismatched, report.1 = id ∧ db.Unexpected report := by
  induction mismatched generalizing db with
  | nil => simp
  | cons report rest inductionHypothesis =>
    rw [List.foldl_cons, inductionHypothesis, lock_isLocked]
    simp only [ne_eq, lock_latest_eq_none_iff, lock_unexpected, List.exists_mem_cons_iff]
    tauto

end Database

end MidenClient
