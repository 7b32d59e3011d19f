/-
This file models what input notes are queried by (`rust-client/src/store/mod.rs` and
`rust-client/src/store/note_record/input_note_record`): the discriminants of their states, the
account that consumes them, and the filters.
-/

import MidenClient.Note.NoteUpdateTracker

namespace MidenClient

namespace InputNoteState

def stateExpected : ℕ := 0
def stateUnverified : ℕ := 1
def stateCommitted : ℕ := 2
def stateInvalid : ℕ := 3
def stateProcessingAuthenticated : ℕ := 4
def stateProcessingUnauthenticated : ℕ := 5
def stateConsumedAuthenticatedLocal : ℕ := 6
def stateConsumedUnauthenticatedLocal : ℕ := 7
def stateConsumedExternal : ℕ := 8

/-- Returns a unique identifier for each note state. -/
def discriminant : InputNoteState → ℕ
  | .expected _ => stateExpected
  | .unverified _ => stateUnverified
  | .committed _ => stateCommitted
  | .invalid _ => stateInvalid
  | .processingAuthenticated _ => stateProcessingAuthenticated
  | .processingUnauthenticated _ => stateProcessingUnauthenticated
  | .consumedAuthenticatedLocal _ => stateConsumedAuthenticatedLocal
  | .consumedUnauthenticatedLocal _ => stateConsumedUnauthenticatedLocal
  | .consumedExternal _ => stateConsumedExternal

end InputNoteState

/-- The account that consumed the note or is consuming it, if the client knows it. -/
def InputNoteRecord.consumerAccount (record : InputNoteRecord) : Option AccountId :=
  match record.state with
  | .processingAuthenticated state => some state.submissionData.consumerAccount
  | .processingUnauthenticated state => some state.submissionData.consumerAccount
  | .consumedAuthenticatedLocal state => some state.submissionData.consumerAccount
  | .consumedUnauthenticatedLocal state => some state.submissionData.consumerAccount
  | _ => none

/-- Filters for narrowing the set of notes returned by the client's store. -/
inductive NoteFilter where
  | all
  | committed
  | consumed
  | expected
  | list (noteIds : List NoteId)
  | nullifiers (nullifiers : List Nullifier)
  | processing
  | unique (noteId : NoteId)
  | unspent
  | unverified
  deriving DecidableEq, Repr

end MidenClient
