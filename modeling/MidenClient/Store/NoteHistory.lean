/-
This file follows one input note record through any sequence of events.

The events are calls that change the record in place, so a failing one could in
principle leave a half-changed record behind. It does not, because the state is only
assigned once its handler has answered. A record claims to be authenticated in three of
its states, and each of them carries the proof, the metadata and the note root along
from the moment a block header verified them. A consumed record never moves again.
-/

import MidenClient.Library.Fallible
import MidenClient.Store.NoteRecord

namespace MidenClient

open Fallible

/-- The events an input note record can receive. -/
inductive NoteEvent where
  | inclusionProofReceived (inclusionProof : NoteInclusionProof) (metadata : NoteMetadata)
  | blockHeaderReceived (blockHeader : BlockHeader)
  | consumedExternally (nullifier : Nullifier) (nullifierBlockHeight : BlockNumber)
  | consumedLocally (consumerAccount : AccountId) (consumerTransaction : TransactionId)
      (currentTimestamp : Option ℕ)
  | transactionCommitted (transactionId : TransactionId) (blockHeight : BlockNumber)
  deriving DecidableEq, Repr

namespace InputNoteRecord

variable [NoteLibrary]

/-- A call that changes a record in place. -/
abbrev RecordM := EStateM NoteRecordError InputNoteRecord

/-- Asks the state for the next one, and only then assigns it. -/
def transition (answer : InputNoteRecord → Except NoteRecordError (Option InputNoteState)) :
    RecordM Bool := do
  let record ← get
  let newState ← fun current =>
    match answer record with
    | .ok newState => .ok newState current
    | .error error => .error error current
  match newState with
  | some state =>
    set { record with state := state }
    return true
  | none => return false

/-- What the handlers answer to an event; the nullifier is compared first. -/
def answer (event : NoteEvent) (record : InputNoteRecord) :
    Except NoteRecordError (Option InputNoteState) :=
  match event with
  | .inclusionProofReceived proof metadata => record.state.inclusionProofReceived proof metadata
  | .blockHeaderReceived header => record.state.blockHeaderReceived record.id header
  | .consumedExternally nullifier height =>
    if record.nullifier ≠ nullifier then
      .error (.stateTransitionError "Nullifier does not match the expected value")
    else record.state.consumedExternally height
  | .consumedLocally account transaction timestamp =>
    record.state.consumedLocally account transaction timestamp
  | .transactionCommitted transaction height => record.state.transactionCommitted transaction height

/-- The record receives an event. -/
def receive (event : NoteEvent) : RecordM Bool :=
  transition (answer event)

/-- The record after a sequence of events, whatever each of them returned. -/
def after (record : InputNoteRecord) (events : List NoteEvent) : InputNoteRecord :=
  events.foldl (fun record event => finalState (receive event record)) record

/-- The record after the event as the tracker computes it. -/
def handle (record : InputNoteRecord) : NoteEvent →
    Except NoteRecordError (InputNoteRecord × Bool)
  | .inclusionProofReceived proof metadata => record.inclusionProofReceived proof metadata
  | .blockHeaderReceived header => record.blockHeaderReceived header
  | .consumedExternally nullifier height => record.consumedExternally nullifier height
  | .consumedLocally account transaction timestamp =>
    record.consumedLocally account transaction timestamp
  | .transactionCommitted transaction height => record.transactionCommitted transaction height

/-! ### One event -/

omit [NoteLibrary] in
/-- A transition fails with its record unchanged, keeps the record, or assigns the new state. -/
theorem transition_eq (answer : InputNoteRecord → Except NoteRecordError (Option InputNoteState))
    (record : InputNoteRecord) :
    transition answer record =
      match answer record with
      | .error error => .error error record
      | .ok none => .ok false record
      | .ok (some state) => .ok true { record with state := state } := by
  unfold transition
  simp only [bind, EStateM.bind, get, getThe, MonadStateOf.get, EStateM.get]
  rcases answer record with error | _ | state <;> rfl

theorem handle_eq_advance (record : InputNoteRecord) (event : NoteEvent) :
    record.handle event = record.advance (answer event record) := by
  cases event with
  | consumedExternally nullifier height =>
    show record.consumedExternally nullifier height = _
    unfold consumedExternally answer
    by_cases same : record.nullifier ≠ nullifier
    · simp only [if_pos same, advance]
    · simp only [if_neg same]
  | _ => rfl

/-- The call in place and the function on records agree. -/
theorem receive_eq_handle (record : InputNoteRecord) (event : NoteEvent) :
    receive event record =
      match record.handle event with
      | .ok (changed, flag) => .ok flag changed
      | .error error => .error error record := by
  unfold receive
  rw [transition_eq, handle_eq_advance]
  rcases answer event record with error | _ | state <;> rfl

theorem receive_error {event : NoteEvent} {record next : InputNoteRecord}
    {error : NoteRecordError} (failed : receive event record = .error error next) :
    next = record := by
  unfold receive at failed
  rw [transition_eq] at failed
  split at failed <;> cases failed
  rfl

/-- How a record comes out of an event: as it was, or with the state the handlers answered. -/
theorem finalState_receive (event : NoteEvent) (record : InputNoteRecord) :
    finalState (receive event record) = record ∨
      ∃ state, answer event record = .ok (some state) ∧
        finalState (receive event record) = { record with state := state } := by
  unfold receive
  rw [transition_eq]
  rcases answer event record with error | _ | state
  · exact Or.inl rfl
  · exact Or.inl rfl
  · exact Or.inr ⟨state, rfl, rfl⟩

/-! ### Authentication -/

/-- The proof, metadata and note root that an authenticated state stands for. -/
def authentication : InputNoteState → Option (NoteInclusionProof × NoteMetadata × Word)
  | .committed state => some (state.inclusionProof, state.metadata, state.blockNoteRoot)
  | .processingAuthenticated state =>
    some (state.inclusionProof, state.metadata, state.blockNoteRoot)
  | .consumedAuthenticatedLocal state =>
    some (state.inclusionProof, state.metadata, state.blockNoteRoot)
  | _ => none

omit [NoteLibrary] in
theorem authentication_inclusionProofReceived {state next : InputNoteState}
    {proof : NoteInclusionProof} {metadata : NoteMetadata}
    (moved : state.inclusionProofReceived proof metadata = .ok (some next)) :
    authentication next = none := by
  unfold InputNoteState.inclusionProofReceived at moved
  split at moved <;> try split at moved
  all_goals cases moved <;> rfl

omit [NoteLibrary] in
theorem authentication_consumedExternally {state next : InputNoteState} {height : BlockNumber}
    (moved : state.consumedExternally height = .ok (some next)) :
    authentication next = none := by
  unfold InputNoteState.consumedExternally at moved
  split at moved <;> cases moved <;> rfl

omit [NoteLibrary] in
/-- The start of a local transaction keeps the proof of a committed note. -/
theorem authentication_consumedLocally {state next : InputNoteState} {account : AccountId}
    {transaction : TransactionId} {timestamp : Option ℕ}
    (moved : state.consumedLocally account transaction timestamp = .ok (some next)) :
    authentication next = authentication state := by
  unfold InputNoteState.consumedLocally at moved
  split at moved <;> try split at moved
  all_goals cases moved <;> rfl

omit [NoteLibrary] in
/-- The commitment of the transaction keeps the proof of an authenticated note. -/
theorem authentication_transactionCommitted {state next : InputNoteState}
    {transaction : TransactionId} {height : BlockNumber}
    (moved : state.transactionCommitted transaction height = .ok (some next)) :
    authentication next = authentication state := by
  unfold InputNoteState.transactionCommitted at moved
  split at moved <;> try split at moved
  all_goals cases moved <;> rfl

/-- Only a block header authenticates a note, and only against its own note root. -/
theorem authentication_blockHeaderReceived {state next : InputNoteState} {noteId : NoteId}
    {header : BlockHeader} (moved : state.blockHeaderReceived noteId header = .ok (some next))
    {proof : NoteInclusionProof} {metadata : NoteMetadata} {root : Word}
    (authenticated : authentication next = some (proof, metadata, root)) :
    root = header.noteRoot ∧ proof.verifies noteId metadata root = true := by
  unfold InputNoteState.blockHeaderReceived at moved
  split at moved <;> try split at moved
  all_goals cases moved
  · cases authenticated
    exact ⟨rfl, by assumption⟩
  · cases authenticated
  · cases authenticated
    exact ⟨rfl, by assumption⟩

/-- An authenticated state holds a proof that verifies against its root, and the root comes from
one of the headers. -/
def Authentic (headers : List BlockHeader) (record : InputNoteRecord) : Prop :=
  ∀ proof metadata root, authentication record.state = some (proof, metadata, root) →
    proof.verifies record.id metadata root = true ∧ ∃ header ∈ headers, header.noteRoot = root

/-- The block header that an event brings. -/
def headerOf : NoteEvent → List BlockHeader
  | .blockHeaderReceived header => [header]
  | _ => []

theorem Authentic.receive {headers : List BlockHeader} {record : InputNoteRecord}
    (authentic : Authentic headers record) (event : NoteEvent) :
    Authentic (headers ++ headerOf event) (finalState (receive event record)) := by
  have kept : ∀ proof metadata root, authentication record.state = some (proof, metadata, root) →
      proof.verifies record.id metadata root = true ∧
        ∃ header ∈ headers ++ headerOf event, header.noteRoot = root := by
    intro proof metadata root authenticated
    obtain ⟨verifies, header, member, same⟩ := authentic proof metadata root authenticated
    exact ⟨verifies, header, List.mem_append_left _ member, same⟩
  rcases finalState_receive event record with same | ⟨state, answered, same⟩
  · rw [same]
    exact kept
  · rw [same]
    intro proof metadata root authenticated
    cases event with
    | inclusionProofReceived newProof newMetadata =>
      rw [authentication_inclusionProofReceived answered] at authenticated
      cases authenticated
    | blockHeaderReceived header =>
      obtain ⟨rfl, verifies⟩ := authentication_blockHeaderReceived answered authenticated
      exact ⟨verifies, header, List.mem_append_right _ List.mem_cons_self, rfl⟩
    | consumedExternally nullifier height =>
      unfold answer at answered
      dsimp only at answered
      split at answered
      · cases answered
      · rw [authentication_consumedExternally answered] at authenticated
        cases authenticated
    | consumedLocally account transaction timestamp =>
      rw [authentication_consumedLocally answered] at authenticated
      exact kept proof metadata root authenticated
    | transactionCommitted transaction height =>
      rw [authentication_transactionCommitted answered] at authenticated
      exact kept proof metadata root authenticated

/-! ### Consumption -/

/-- The handlers of a consumed state never answer with another state. -/
theorem answer_of_consumed {record : InputNoteRecord} (consumed : record.state.isConsumed = true)
    (event : NoteEvent) (state : InputNoteState) : answer event record ≠ .ok (some state) := by
  intro answered
  unfold answer at answered
  cases recordState : record.state with
  | consumedAuthenticatedLocal _ =>
    rw [recordState] at answered
    cases event <;> dsimp only at answered <;> try split at answered
    all_goals cases answered
  | consumedUnauthenticatedLocal _ =>
    rw [recordState] at answered
    cases event <;> dsimp only at answered <;> try split at answered
    all_goals cases answered
  | consumedExternal _ =>
    rw [recordState] at answered
    cases event <;> dsimp only at answered <;> try split at answered
    all_goals cases answered
  | _ =>
    rw [recordState] at consumed
    cases consumed

/-- A consumed record stays exactly as it is. -/
theorem after_of_consumed {record : InputNoteRecord} (consumed : record.state.isConsumed = true)
    (events : List NoteEvent) : record.after events = record := by
  induction events with
  | nil => rfl
  | cons event rest inductionHypothesis =>
    have unchanged : finalState (receive event record) = record := by
      rcases finalState_receive event record with same | ⟨state, answered, _⟩
      · exact same
      · exact absurd answered (answer_of_consumed consumed event state)
    unfold after at inductionHypothesis ⊢
    rw [List.foldl_cons, unchanged]
    exact inductionHypothesis

/-! ### Any sequence of events -/

theorem after_authentic {headers : List BlockHeader} {record : InputNoteRecord}
    (authentic : Authentic headers record) (events : List NoteEvent) :
    Authentic (headers ++ events.flatMap headerOf) (record.after events) := by
  induction events generalizing headers record with
  | nil =>
    rw [List.flatMap_nil, List.append_nil]
    exact authentic
  | cons event rest inductionHypothesis =>
    rw [List.flatMap_cons, ← List.append_assoc]
    exact inductionHypothesis (authentic.receive event)

theorem after_details (record : InputNoteRecord) (events : List NoteEvent) :
    (record.after events).details = record.details := by
  induction events generalizing record with
  | nil => rfl
  | cons event rest inductionHypothesis =>
    refine (inductionHypothesis _).trans ?_
    show (finalState (receive event record)).details = record.details
    rcases finalState_receive event record with same | ⟨state, _, same⟩
    · rw [same]
    · rw [same]

/-- Through any events after an expected or unverified start: an authenticated record holds a
proof that verifies against a root taken from a received header, a consumed record stays
consumed at its height, the details never change, and a failing event changes nothing. -/
theorem after_guarantees (start : InputNoteRecord)
    (fresh : (∃ state, start.state = .expected state) ∨ ∃ state, start.state = .unverified state)
    (events : List NoteEvent) :
    (∀ proof metadata root,
      authentication (start.after events).state = some (proof, metadata, root) →
      proof.verifies start.id metadata root = true ∧
        ∃ header, .blockHeaderReceived header ∈ events ∧ header.noteRoot = root) ∧
    (∀ more, (start.after events).state.isConsumed = true →
      (start.after (events ++ more)).state.isConsumed = true ∧
        (start.after (events ++ more)).state.consumedBlockHeight =
          (start.after events).state.consumedBlockHeight) ∧
    (start.after events).details = start.details ∧
    ∀ event error next, receive event (start.after events) = .error error next →
      next = start.after events := by
  have unauthenticated : Authentic [] start := by
    intro proof metadata root authenticated
    rcases fresh with ⟨state, same⟩ | ⟨state, same⟩ <;> rw [same] at authenticated <;>
      cases authenticated
  refine ⟨fun proof metadata root authenticated => ?_, fun more consumed => ?_,
    after_details start events, fun event error next failed => receive_error failed⟩
  · obtain ⟨verifies, header, member, same⟩ :=
      after_authentic unauthenticated events proof metadata root authenticated
    have sameId : (start.after events).id = start.id :=
      congrArg NoteDetails.id (after_details start events)
    rw [sameId] at verifies
    rw [List.nil_append] at member
    obtain ⟨event, listed, brought⟩ := List.mem_flatMap.mp member
    refine ⟨verifies, header, ?_, same⟩
    cases event with
    | blockHeaderReceived received =>
      rw [List.mem_singleton.mp brought]
      exact listed
    | _ => cases brought
  · have unchanged : start.after (events ++ more) = start.after events := by
      have continued : start.after (events ++ more) = (start.after events).after more :=
        List.foldl_append
      rw [continued, after_of_consumed consumed]
    rw [unchanged]
    exact ⟨consumed, rfl⟩

end InputNoteRecord

namespace Sample

open InputNoteRecord

/-- A note that is expected, and then included, verified, and consumed by transaction 5. -/
theorem after_guarantees_consumed :
    let start : InputNoteRecord := ⟨⟨[], ⟨3, 1, 1⟩⟩, none, .expected ⟨none, 0, some 9⟩⟩
    let events : List NoteEvent := [.inclusionProofReceived ⟨2, 0, [7]⟩ ⟨2, .isPublic, 9, 0⟩,
      .blockHeaderReceived ⟨2, 7, 100⟩, .consumedLocally 2 5 none, .transactionCommitted 5 3]
    (start.after events).state.isConsumed = true ∧
      (start.after (events ++ [.consumedExternally 0 8])).state.consumedBlockHeight = some 3 := by
  refine ⟨by decide +kernel, ?_⟩
  exact ((after_guarantees _ (Or.inl ⟨_, rfl⟩) _).2.1 [.consumedExternally 0 8]
    (by decide +kernel)).2.trans (by decide +kernel)

end Sample

end MidenClient
