/-
This file says when a synchronization locks a private account.

An account is locked when the digest reported for it is not the commitment of one of its
historical states. The states are looked up after the discarded transactions are undone,
and undoing deletes rows: the state an account falls back to is no longer historical, so
a report of exactly that state locks the account.
-/

import MidenClient.Sqlite.StateSync
import MidenClient.Sqlite.Rollback

namespace MidenClient

open Std (ExtTreeMap)

section Library

variable [ProtocolLibrary]

namespace Database

/-- The digest is the commitment of the latest or of a historical state of the account. -/
def Knows (db : Database) (accountId : AccountId) (digest : Word) : Prop :=
  (∃ row, db.latestAccountHeaders[accountId]? = some row ∧ row.header.toCommitment = digest) ∨
    ∃ row ∈ db.historyOf accountId, row.header.toCommitment = digest

/-- A historical row with the digest was not replaced at an undone nonce. -/
def KeepsDigest (db : Database) (discardedStates : List (AccountId × Word))
    (accountId : AccountId) (digest : Word) : Prop :=
  ∃ row ∈ db.historyOf accountId, row.header.toCommitment = digest ∧
    row.replacedAtNonce ∉ db.undoneNonces discardedStates accountId

/-- States of the account are undone, and no header was replaced at the earliest of them. -/
def Deletes (db : Database) (discardedStates : List (AccountId × Word)) (accountId : AccountId) :
    Prop :=
  ∃ minNonce, (db.undoneNonces discardedStates accountId).getLast? = some minNonce ∧
    db.replacedAt accountId minNonce = []

theorem headerAfter_eq_none_iff {db : Database} {accountId : AccountId} {row : HeaderRow}
    (stored : db.latestAccountHeaders[accountId]? = some row)
    (discardedStates : List (AccountId × Word)) :
    db.headerAfter accountId (db.undoneNonces discardedStates accountId) = none ↔
      db.Deletes discardedStates accountId := by
  unfold headerAfter Deletes
  cases (db.undoneNonces discardedStates accountId).getLast? with
  | none => simp [stored]
  | some minNonce => simp

variable {db result : Database} {update : AccountSyncUpdate} {forest last : AccountSmtForest}
  {accountId : AccountId} {digest : Word} {row : HeaderRow}

/-- The report of an account that is not locked otherwise locks it exactly when the account is
not deleted and no historical row with the digest is kept. -/
theorem applyStateSync_isLocked_iff (collisionFree : CollisionFree) (keyed : db.HeadersKeyed)
    (stored : db.latestAccountHeaders[accountId]? = some row)
    (notUpdated : ∀ account ∈ update.updatedPublicAccounts, accountId ≠ account.id)
    (reported : (accountId, digest) ∈ update.mismatchedPrivateAccounts)
    (synced : db.applyStateSync update forest = .ok result last)
    (otherwise : ∀ other final, db.applyStateSync { update with
        mismatchedPrivateAccounts := update.mismatchedPrivateAccounts.filter fun report =>
          report ≠ (accountId, digest) } forest = .ok other final → ¬other.IsLocked accountId) :
    result.IsLocked accountId ↔
      ¬db.Deletes update.discardedStates accountId ∧
        ¬db.KeepsDigest update.discardedStates accountId digest := by
  obtain ⟨updated, middle, applied, finished⟩ := Fallible.bind_eq_result_ok.mp synced
  cases finished
  obtain ⟨-, latest, history⟩ :=
    applyAccountUpdates_headers collisionFree keyed applied notUpdated
  have unreported := otherwise _ last (Fallible.bind_eq_result_ok.mpr ⟨updated, last, applied, rfl⟩)
  rw [foldl_lock_isLocked] at unreported ⊢
  have present : updated.latestAccountHeaders[accountId]? ≠ none ↔
      ¬db.Deletes update.discardedStates accountId := by
    rw [ne_eq, latest, headerAfter_eq_none_iff stored]
  have unexpected : updated.Unexpected (accountId, digest) ↔
      ¬db.KeepsDigest update.discardedStates accountId digest := by
    unfold Unexpected KeepsDigest
    rw [history]
    simp only [List.mem_filter, decide_eq_true_eq]
    push Not
    exact ⟨fun absent row member same => by_contra fun kept => absent row ⟨member, kept⟩ same,
      fun absent row member same => member.2 (absent row member.1 same)⟩
  rw [← present, ← unexpected]
  constructor
  · rintro (locked | ⟨some_, report, member, ofAccount, fires⟩)
    · exact absurd (Or.inl locked) unreported
    · by_cases same : report = (accountId, digest)
      · exact ⟨some_, same ▸ fires⟩
      · refine absurd (Or.inr ⟨some_, report, ?_, ofAccount, fires⟩) unreported
        exact List.mem_filter.mpr ⟨member, decide_eq_true same⟩
  · rintro ⟨some_, fires⟩
    exact Or.inr ⟨some_, (accountId, digest), reported, rfl, fires⟩

/-- A private account that is not locked otherwise is locked exactly for unknown digests when the
update keeps a state of the account and a historical row of every known digest, or when it
deletes the account and the digest was known. -/
theorem applyStateSync_locks_unknown_iff (collisionFree : CollisionFree) (keyed : db.HeadersKeyed)
    (isPrivate : ProtocolLibrary.isPrivate accountId = true)
    (publicOnly : ∀ account ∈ update.updatedPublicAccounts,
      ProtocolLibrary.isPrivate account.id = false)
    (stored : db.latestAccountHeaders[accountId]? = some row)
    (reported : (accountId, digest) ∈ update.mismatchedPrivateAccounts)
    (synced : db.applyStateSync update forest = .ok result last)
    (otherwise : ∀ other final, db.applyStateSync { update with
        mismatchedPrivateAccounts := update.mismatchedPrivateAccounts.filter fun report =>
          report ≠ (accountId, digest) } forest = .ok other final → ¬other.IsLocked accountId) :
    (result.IsLocked accountId ↔ ¬db.Knows accountId digest) ↔
      ¬db.Deletes update.discardedStates accountId ∧
          (db.Knows accountId digest →
            db.KeepsDigest update.discardedStates accountId digest) ∨
        db.Deletes update.discardedStates accountId ∧ db.Knows accountId digest := by
  have notUpdated : ∀ account ∈ update.updatedPublicAccounts, accountId ≠ account.id := by
    intro account member same
    rw [same, publicOnly account member] at isPrivate
    cases isPrivate
  have known : db.KeepsDigest update.discardedStates accountId digest →
      db.Knows accountId digest :=
    fun ⟨row, member, same, _⟩ => Or.inr ⟨row, member, same⟩
  rw [applyStateSync_isLocked_iff collisionFree keyed stored notUpdated reported synced otherwise]
  by_cases deletes : db.Deletes update.discardedStates accountId
  · simp [deletes]
  · by_cases keeps : db.KeepsDigest update.discardedStates accountId digest
    · simp [deletes, keeps, known keeps]
    · simp [deletes, keeps]

end Database

end Library

/-! ### Locking an account for its own state -/

namespace Sample

/-- The report of the state before the discarded transaction. -/
def discardFund : AccountSyncUpdate where
  discardedStates := [(7, fundedHeader.toCommitment)]
  committedAccounts := []
  updatedPublicAccounts := []
  mismatchedPrivateAccounts := [(7, newAccount.toHeader.toCommitment)]

theorem funded_run : Database.Run 7 inserted [fund] funded :=
  .cons ⟨rfl, rfl, by decide, fun _ _ _ found => by cases found⟩ funded_applied (.nil funded)

theorem funded_undone : funded.undoStates discardFund.discardedStates = inserted := by
  have finals : ∀ commitment,
      commitment ∈ discardFund.discardedStates.map Prod.snd ↔
        ∃ step ∈ [fund], step.finalState.toCommitment = commitment := by
    simp [fund, discardFund, eq_comm]
  rw [Database.run_undoStates funded_run collisionFree inserted_stored (List.cons_ne_nil _ _)
    finals]
  rfl

/-- Discarding a transaction locks the account when the network reports the state before it. -/
theorem applyStateSync_locks_known :
    ProtocolLibrary.isPrivate 7 = true ∧ fund.apply inserted = .ok funded ∧
    funded.Knows 7 newAccount.toHeader.toCommitment ∧ ¬funded.IsLocked 7 ∧
    ∃ result last, funded.applyStateSync discardFund (registered 24) = .ok result last ∧
      result.IsLocked 7 := by
  refine ⟨rfl, funded_applied, Or.inr ⟨⟨newRow, 2⟩, List.mem_singleton_self _, rfl⟩, ?_, _, _,
    rfl, ?_⟩
  · rintro ⟨row, found, locked⟩
    rw [funded_latest] at found
    cases found
    cases locked
  · rw [funded_undone, Database.foldl_lock_isLocked]
    refine Or.inr ⟨by rw [inserted_latest]; simp, _, List.mem_singleton_self _, rfl, ?_⟩
    exact fun row member => absurd member List.not_mem_nil

/-- The report of a digest that no state of the account has, with the same transaction. -/
def discardUnknown : AccountSyncUpdate :=
  { discardFund with mismatchedPrivateAccounts := [(7, 5)] }

theorem funded_not_knows : ¬funded.Knows 7 5 := by
  rintro (⟨row, found, same⟩ | ⟨row, member, same⟩)
  · rw [funded_latest] at found
    cases found
    exact absurd same (by decide)
  · have only : funded.historyOf 7 = [⟨newRow, 2⟩] := by decide
    rw [only, List.mem_singleton] at member
    rw [member] at same
    exact absurd same (by decide)

/-- Such a report locks the account that falls back to its first state. -/
theorem applyStateSync_locks_unknown_discarded :
    ∃ result last, funded.applyStateSync discardUnknown (registered 24) = .ok result last ∧
      (result.IsLocked 7 ↔ ¬funded.Knows 7 5) := by
  have nonces : funded.undoneNonces discardUnknown.discardedStates 7 = [2] := by
    decide +kernel
  obtain ⟨result, last, synced⟩ : ∃ result last,
      funded.applyStateSync discardUnknown (registered 24) = .ok result last := ⟨_, _, rfl⟩
  refine ⟨result, last, synced, (Database.applyStateSync_locks_unknown_iff collisionFree
    funded_keyed rfl (fun _ member => absurd member List.not_mem_nil) funded_latest
    (List.mem_singleton_self _) synced ?_).mpr (Or.inl ⟨?_, ?_⟩)⟩
  · rintro other final unreported ⟨row, found, locked⟩
    cases unreported
    replace found : (funded.undoStates discardFund.discardedStates).latestAccountHeaders[7]? =
      some row := found
    rw [funded_undone, inserted_latest] at found
    cases found
    cases locked
  · rintro ⟨minNonce, earliest, none_replaced⟩
    rw [nonces] at earliest
    cases earliest
    exact absurd none_replaced (by decide)
  · exact fun known => absurd known funded_not_knows

end Sample

end MidenClient
