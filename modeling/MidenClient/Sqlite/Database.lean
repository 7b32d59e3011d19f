/-
This file models the account tables of the SQLite store
(`sqlite-store/src/store.sql`).

A table with a primary key is an ordered map from the key to the other columns. The
historical header table is kept as a list in row order, because a statement that
selects several of its rows reads them in that order. An account commitment is the
hash of the other columns of its row, so it is computed where a column is read.
Columns hold hexadecimal texts and signed integers in the database; the encodings are
one to one and only equality of columns is used here.
-/

import MidenClient.Library.HistoryTable
import MidenClient.Store.SmtForest

namespace MidenClient

open Std (ExtTreeMap)

/-- A row of the latest header table. -/
structure HeaderRow where
  header : AccountHeader
  accountSeed : Option Word
  locked : Bool
  deriving DecidableEq, Repr

/-- A row of the historical header table: an old header and the nonce of the state that
replaced it. -/
structure HistoricalHeaderRow extends HeaderRow where
  replacedAtNonce : ℕ
  deriving DecidableEq, Repr

/-- The account tables. -/
structure Database where
  /-- The commitments of the stored account codes. -/
  accountCode : Finset Word
  latestAccountHeaders : ExtTreeMap AccountId HeaderRow
  historicalAccountHeaders : List HistoricalHeaderRow
  /-- Slots by name: the latest value and type; an archived row keeps the old value, if there
  was one, and the type of the slot that replaced it. -/
  accountStorage :
    HistoryTable AccountId StorageSlotName (Word × StorageSlotType) (Option Word × StorageSlotType)
  /-- Storage map entries by slot name and key. -/
  storageMapEntries :
    HistoryTable AccountId (StorageSlotName ×ₗ StorageMapKey) Word (Option Word)
  accountAssets : HistoryTable AccountId AssetVaultKey Asset (Option Asset)

namespace Database

/-- The tables of a new store. -/
def empty : Database :=
  ⟨∅, ∅, [], ⟨∅, ∅⟩, ⟨∅, ∅⟩, ⟨∅, ∅⟩⟩

/-- The value and type an archived slot row is restored to. -/
def oldSlot (row : Option Word × StorageSlotType) : Option (Word × StorageSlotType) :=
  row.1.map fun value => (value, row.2)

variable [ProtocolLibrary]

/-! ### Header tables -/

/-- `INSERT OR REPLACE` into the latest headers: a row with the same id or the same commitment
makes room. -/
def replaceLatestHeader (db : Database) (row : HeaderRow) : Database :=
  { db with
    latestAccountHeaders :=
      (db.latestAccountHeaders.filter fun _ other =>
        other.header.toCommitment ≠ row.header.toCommitment).insert row.header.id row }

/-- `INSERT OR REPLACE` into the historical headers: a row with the same commitment makes
room, and the new row comes last. -/
def replaceHistoricalHeader (db : Database) (row : HistoricalHeaderRow) : Database :=
  { db with
    historicalAccountHeaders :=
      (db.historicalAccountHeaders.filter fun other =>
        other.header.toCommitment ≠ row.header.toCommitment) ++ [row] }

/-- The row an old header is archived as: with the seed and the lock of the stored header. -/
def archivedRow (db : Database) (old : AccountHeader) (replacedAtNonce : ℕ) :
    HistoricalHeaderRow :=
  ⟨⟨old, db.latestAccountHeaders[old.id]?.bind HeaderRow.accountSeed,
    (db.latestAccountHeaders[old.id]?.map HeaderRow.locked).getD false⟩, replacedAtNonce⟩

/-- Inserts a new account header into the latest table. If an old header is given, it is
archived first, with the seed and the lock of the stored header. -/
def insertAccountHeader (db : Database) (newHeader : AccountHeader) (accountSeed : Option Word)
    (oldHeader : Option AccountHeader) : Except StoreError Database := do
  let db ← match oldHeader with
    | none => pure db
    | some old =>
      let row := db.archivedRow old newHeader.nonce
      -- the check that only accounts with a seed have nonce zero, then the foreign key
      if old.nonce = 0 ∧ row.accountSeed = none then throw .databaseError
      if old.codeCommitment ∉ db.accountCode then throw .databaseError
      pure (db.replaceHistoricalHeader row)
  if newHeader.codeCommitment ∉ db.accountCode then throw .databaseError
  return db.replaceLatestHeader ⟨newHeader, accountSeed, false⟩

/-- Every row of the latest headers is stored under the id of its header. -/
def HeadersKeyed (db : Database) : Prop :=
  ∀ (id : AccountId) (row : HeaderRow), db.latestAccountHeaders[id]? = some row →
    row.header.id = id

/-- Without collisions a row is replaced only by a row of its own account. -/
theorem replaceLatestHeader_getElem? (db : Database) (row : HeaderRow)
    (collisionFree : CollisionFree) (keyed : db.HeadersKeyed) (id : AccountId) :
    (db.replaceLatestHeader row).latestAccountHeaders[id]? =
      if row.header.id = id then some row else db.latestAccountHeaders[id]? := by
  simp only [replaceLatestHeader, ExtTreeMap.getElem?_insert, Std.compare_eq_iff_eq]
  by_cases same : row.header.id = id
  · rw [if_pos same, if_pos same]
  · rw [if_neg same, if_neg same, ExtTreeMap.getElem?_filter']
    cases found : db.latestAccountHeaders[id]? with
    | none => rfl
    | some other =>
      refine Option.filter_some_pos (decide_eq_true fun equal => same ?_)
      rw [← collisionFree equal]
      exact keyed id other found

theorem replaceLatestHeader_keyed (db : Database) (row : HeaderRow)
    (collisionFree : CollisionFree) (keyed : db.HeadersKeyed) :
    (db.replaceLatestHeader row).HeadersKeyed := by
  intro id other found
  rw [db.replaceLatestHeader_getElem? row collisionFree keyed] at found
  by_cases same : row.header.id = id
  · rw [if_pos same] at found
    rw [← Option.some.inj found, same]
  · rw [if_neg same] at found
    exact keyed id other found

/-- When the insertion of a header with an old header succeeds, and what it does. -/
theorem insertAccountHeader_some_eq_ok_iff (db result : Database) (newHeader old : AccountHeader)
    (seed : Option Word) :
    db.insertAccountHeader newHeader seed (some old) = .ok result ↔
      ¬(old.nonce = 0 ∧ (db.archivedRow old newHeader.nonce).accountSeed = none) ∧
        old.codeCommitment ∈ db.accountCode ∧ newHeader.codeCommitment ∈ db.accountCode ∧
        result = (db.replaceHistoricalHeader
          (db.archivedRow old newHeader.nonce)).replaceLatestHeader ⟨newHeader, seed, false⟩ := by
  have sameCode : (db.replaceHistoricalHeader
      (db.archivedRow old newHeader.nonce)).accountCode = db.accountCode := rfl
  simp only [insertAccountHeader, bind, Except.bind, pure, Except.pure, throw, throwThe,
    MonadExceptOf.throw]
  by_cases check : old.nonce = 0 ∧ (db.archivedRow old newHeader.nonce).accountSeed = none
  · simp [check]
  · by_cases oldCode : old.codeCommitment ∈ db.accountCode
    · by_cases newCode : newHeader.codeCommitment ∈ db.accountCode
      · rw [if_neg check, if_neg (not_not.mpr oldCode)]
        simp only [sameCode, newCode, not_true, if_false, Except.ok.injEq, check, oldCode,
          not_false_eq_true, true_and]
        exact eq_comm
      · simp [check, oldCode, newCode, sameCode]
    · simp [check, oldCode]

/-- When the insertion of a first header succeeds, and what it does. -/
theorem insertAccountHeader_none_eq_ok_iff (db result : Database) (newHeader : AccountHeader)
    (seed : Option Word) :
    db.insertAccountHeader newHeader seed none = .ok result ↔
      newHeader.codeCommitment ∈ db.accountCode ∧
        result = db.replaceLatestHeader ⟨newHeader, seed, false⟩ := by
  simp only [insertAccountHeader, bind, Except.bind, pure, Except.pure, throw, throwThe,
    MonadExceptOf.throw]
  by_cases newCode : newHeader.codeCommitment ∈ db.accountCode
  · simp [newCode, eq_comm]
  · simp [newCode]

end Database

end MidenClient
