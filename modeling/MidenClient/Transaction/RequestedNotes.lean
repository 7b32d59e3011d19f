/-
This file proves what comes of the input notes of a request
(`rust-client/src/transaction/request/mod.rs`, `build_input_notes`).

The notes are collected in a map and taken out of it in the order of the request. A note that
is listed twice is gone the second time, and the lookup panics. The builder refuses such a
request, but bytes can be read as one.
-/

import MidenClient.Transaction.Recording
import MidenClient.Transaction.RequestCodec

namespace MidenClient

open Std (ExtTreeMap)
open Fallible

section Requests

variable [NoteLibrary]

def InputNote.isAuthenticated : InputNote → Bool
  | .authenticated _ _ => true
  | .unauthenticated _ => false

/-- The record can be used as an authenticated input. -/
def InputNoteRecord.Usable (record : InputNoteRecord) : Prop :=
  record.state.isAuthenticated = true ∧ record.state.isConsumed = false

/-- The notes are prepared without a panic: an error, or all notes of the request, each once and in
its order, and exactly those authenticated whose records are supplied. -/
structure BuildsNotes (environment : ExecutionEnvironment) (request : TransactionRequest)
    (records : List InputNoteRecord) : Prop where
  returns : ∀ message, request.buildInputNotes environment records ≠ .error (.aborted message)
  ordered : ∀ notes, request.buildInputNotes environment records = .ok notes →
    notes.map InputNote.id = request.inputNoteIds ∧ (notes.map InputNote.id).Nodup
  authenticated : ∀ notes, request.buildInputNotes environment records = .ok notes →
    ∀ note ∈ notes, note.isAuthenticated = true ↔ ∃ record ∈ records, record.id = note.id

/-! ### The supplied records -/

omit [NoteLibrary] in
/-- A usable record has a note and a proof of it. -/
theorem InputNoteRecord.Usable.toInputNote {record : InputNoteRecord} (usable : record.Usable) :
    ∃ metadata proof,
      record.toInputNote = some (.authenticated ⟨record.details, metadata⟩ proof) := by
  obtain ⟨authenticated, unconsumed⟩ := usable
  obtain ⟨details, createdAt, state⟩ := record
  cases state with
  | committed state => exact ⟨state.metadata, state.inclusionProof, rfl⟩
  | processingAuthenticated state => exact ⟨state.metadata, state.inclusionProof, rfl⟩
  | consumedAuthenticatedLocal state => cases unconsumed
  | expected | unverified | invalid | processingUnauthenticated | consumedUnauthenticatedLocal
  | consumedExternal => cases authenticated

/-- A usable record is added under its id as an authenticated note. -/
theorem addAuthenticated_of_usable {record : InputNoteRecord} (usable : record.Usable)
    (inputNotes : ExtTreeMap NoteId InputNote) : ∃ note, note.isAuthenticated = true ∧
      note.id = record.id ∧
        addAuthenticated inputNotes record = .ok (inputNotes.insert record.id note) := by
  obtain ⟨metadata, proof, converted⟩ := usable.toInputNote
  refine ⟨.authenticated ⟨record.details, metadata⟩ proof, rfl, rfl, ?_⟩
  unfold addAuthenticated
  rw [usable.1, usable.2, converted]
  rfl

/-- Another record is refused, which is no panic. -/
theorem addAuthenticated_of_not_usable {record : InputNoteRecord} (unusable : ¬ record.Usable)
    (inputNotes : ExtTreeMap NoteId InputNote) : ∃ error,
      addAuthenticated inputNotes record = .error (.transactionRequestError error) := by
  unfold addAuthenticated
  cases authenticated : record.state.isAuthenticated with
  | false => exact ⟨_, rfl⟩
  | true =>
    cases consumed : record.state.isConsumed with
    | true => exact ⟨_, rfl⟩
    | false => exact absurd ⟨authenticated, consumed⟩ unusable

/-- The map holds the notes of the records, authenticated and under their ids. -/
structure HoldsAuthenticated (inputNotes : ExtTreeMap NoteId InputNote)
    (records : List InputNoteRecord) : Prop where
  keyed : InputNotesKeyed inputNotes
  authenticated : ∀ (noteId : NoteId) (note : InputNote), inputNotes[noteId]? = some note →
    note.isAuthenticated = true
  supplied : ∀ noteId : NoteId, noteId ∈ inputNotes ↔ ∃ record ∈ records, record.id = noteId

theorem HoldsAuthenticated.insert {inputNotes : ExtTreeMap NoteId InputNote}
    {records : List InputNoteRecord} (holds : HoldsAuthenticated inputNotes records)
    {record : InputNoteRecord} {note : InputNote} (authenticated : note.isAuthenticated = true)
    (same : note.id = record.id) :
    HoldsAuthenticated (inputNotes.insert record.id note) (records ++ [record]) := by
  refine ⟨holds.keyed.insert same, fun noteId found stored => ?_, fun noteId => ?_⟩
  · rw [ExtTreeMap.getElem?_insert] at stored
    split at stored
    · cases stored
      exact authenticated
    · exact holds.authenticated noteId found stored
  · rw [ExtTreeMap.mem_insert, holds.supplied, Std.compare_eq_iff_eq]
    constructor
    · rintro (here | ⟨other, listed, equal⟩)
      · exact ⟨record, by simp, here⟩
      · exact ⟨other, List.mem_append_left _ listed, equal⟩
    · rintro ⟨other, listed, equal⟩
      rcases List.mem_append.mp listed with early | late
      · exact Or.inr ⟨other, early, equal⟩
      · rw [List.mem_singleton.mp late] at equal
        exact Or.inl equal

theorem addAuthenticated_all {records before : List InputNoteRecord}
    {inputNotes : ExtTreeMap NoteId InputNote} (holds : HoldsAuthenticated inputNotes before)
    (usable : ∀ record ∈ records, record.Usable) : ∃ last,
      records.foldlM addAuthenticated inputNotes = .ok last ∧
        HoldsAuthenticated last (before ++ records) := by
  induction records generalizing inputNotes before with
  | nil => exact ⟨inputNotes, rfl, by rwa [List.append_nil]⟩
  | cons record rest inductionHypothesis =>
    obtain ⟨here, later⟩ := List.forall_mem_cons.mp usable
    obtain ⟨note, authenticated, same, added⟩ := addAuthenticated_of_usable here inputNotes
    obtain ⟨last, finished, held⟩ := inductionHypothesis (holds.insert authenticated same) later
    refine ⟨last, ?_, ?_⟩
    · rw [List.foldlM_cons, added]
      exact finished
    · rwa [List.append_assoc] at held

theorem addAuthenticated_refused {records : List InputNoteRecord}
    (inputNotes : ExtTreeMap NoteId InputNote)
    (unusable : ∃ record ∈ records, ¬ record.Usable) : ∃ error,
      records.foldlM addAuthenticated inputNotes = .error (.transactionRequestError error) := by
  induction records generalizing inputNotes with
  | nil =>
    obtain ⟨_, absent, _⟩ := unusable
    exact absurd absent List.not_mem_nil
  | cons record rest inductionHypothesis =>
    by_cases here : record.Usable
    · obtain ⟨note, _, _, added⟩ := addAuthenticated_of_usable here inputNotes
      rw [List.foldlM_cons, added]
      refine inductionHypothesis (inputNotes.insert record.id note) ?_
      obtain ⟨other, listed, refused⟩ := unusable
      rcases List.mem_cons.mp listed with rfl | later
      · exact absurd here refused
      · exact ⟨other, later, refused⟩
    · obtain ⟨error, refused⟩ := addAuthenticated_of_not_usable here inputNotes
      exact ⟨error, by rw [List.foldlM_cons, refused]; rfl⟩

/-! ### The other notes -/

/-- The map holds the notes of the records, and other notes that are not authenticated. -/
structure Prepares (inputNotes : ExtTreeMap NoteId InputNote) (records : List InputNoteRecord)
    (others : List Note) : Prop where
  keyed : InputNotesKeyed inputNotes
  authenticated : ∀ (noteId : NoteId) (note : InputNote), inputNotes[noteId]? = some note →
    (note.isAuthenticated = true ↔ ∃ record ∈ records, record.id = noteId)
  present : ∀ noteId : NoteId, noteId ∈ inputNotes ↔
    (∃ record ∈ records, record.id = noteId) ∨ ∃ note ∈ others, note.id = noteId

theorem HoldsAuthenticated.prepares {inputNotes : ExtTreeMap NoteId InputNote}
    {records : List InputNoteRecord} (holds : HoldsAuthenticated inputNotes records) :
    Prepares inputNotes records [] := by
  refine ⟨holds.keyed, fun noteId note stored => ?_, fun noteId => ?_⟩
  · refine iff_of_true (holds.authenticated noteId note stored) ((holds.supplied noteId).mp ?_)
    rw [← ExtTreeMap.isSome_getElem?_iff_mem, stored]
    rfl
  · rw [holds.supplied, or_iff_left]
    rintro ⟨_, absent, _⟩
    exact absurd absent List.not_mem_nil

theorem Prepares.insert {inputNotes : ExtTreeMap NoteId InputNote} {records : List InputNoteRecord}
    {others : List Note} (prepares : Prepares inputNotes records others) {note : Note}
    (unsupplied : ¬ ∃ record ∈ records, record.id = note.id) :
    Prepares (inputNotes.insert note.id (.unauthenticated note)) records (others ++ [note]) := by
  refine ⟨prepares.keyed.insert rfl, fun noteId found stored => ?_, fun noteId => ?_⟩
  · rw [ExtTreeMap.getElem?_insert] at stored
    split at stored
    · rename_i same
      cases stored
      rw [← Std.compare_eq_iff_eq.mp same]
      exact iff_of_false (fun authenticated => (nomatch authenticated)) unsupplied
    · exact prepares.authenticated noteId found stored
  · rw [ExtTreeMap.mem_insert, prepares.present, Std.compare_eq_iff_eq]
    simp only [List.mem_append, List.mem_singleton, or_and_right, exists_or, exists_eq_left]
    rw [or_comm, or_assoc]

theorem prepares_foldl {notes : List Note} {inputNotes : ExtTreeMap NoteId InputNote}
    {records : List InputNoteRecord} {others : List Note}
    (prepares : Prepares inputNotes records others)
    (unsupplied : ∀ note ∈ notes, ¬ ∃ record ∈ records, record.id = note.id) :
    Prepares (notes.foldl (fun prepared note => prepared.insert note.id (.unauthenticated note))
      inputNotes) records (others ++ notes) := by
  induction notes generalizing inputNotes others with
  | nil => rwa [List.append_nil]
  | cons note rest inductionHypothesis =>
    obtain ⟨here, later⟩ := List.forall_mem_cons.mp unsupplied
    have prepared := inductionHypothesis (prepares.insert here) later
    rwa [List.append_assoc] at prepared

/-! ### Taking the notes -/

omit [NoteLibrary] in
/-- Each note is taken once when the notes are distinct and there. -/
theorem takeInputNote_all {noteIds : List NoteId} (distinct : noteIds.Nodup)
    {inputNotes : ExtTreeMap NoteId InputNote} (start : List InputNote)
    (present : ∀ noteId ∈ noteIds, noteId ∈ inputNotes) : ∃ last taken,
      noteIds.foldlM takeInputNote (inputNotes, start) = .ok (last, start ++ taken) ∧
        taken.map some = noteIds.map fun noteId => inputNotes[noteId]? := by
  induction noteIds generalizing inputNotes start with
  | nil => exact ⟨inputNotes, [], by rw [List.append_nil]; rfl, rfl⟩
  | cons noteId rest inductionHypothesis =>
    obtain ⟨absent, distinctRest⟩ := List.nodup_cons.mp distinct
    obtain ⟨here, later⟩ := List.forall_mem_cons.mp present
    obtain ⟨note, found⟩ := Option.isSome_iff_exists.mp
      (ExtTreeMap.isSome_getElem?_iff_mem.mpr here)
    have kept : ∀ other ∈ rest, (inputNotes.erase noteId)[other]? = inputNotes[other]? := by
      intro other listed
      rw [ExtTreeMap.getElem?_erase, if_neg]
      rw [Std.compare_eq_iff_eq]
      rintro rfl
      exact absent listed
    have left : ∀ other ∈ rest, other ∈ inputNotes.erase noteId := by
      intro other listed
      rw [← ExtTreeMap.isSome_getElem?_iff_mem, kept other listed,
        ExtTreeMap.isSome_getElem?_iff_mem]
      exact later other listed
    obtain ⟨last, taken, finished, same⟩ := inductionHypothesis distinctRest (start ++ [note]) left
    refine ⟨last, note :: taken, ?_, ?_⟩
    · rw [List.foldlM_cons, takeInputNote, found]
      rw [List.append_assoc, List.singleton_append] at finished
      exact finished
    · rw [List.map_cons, List.map_cons, same, found]
      exact congrArg _ (List.map_congr_left kept)

omit [NoteLibrary] in
/-- A note that is not there any more is a panic. -/
theorem takeInputNote_aborted {noteIds : List NoteId} {inputNotes : ExtTreeMap NoteId InputNote}
    {start : List InputNote}
    (missing : ¬ (noteIds.Nodup ∧ ∀ noteId ∈ noteIds, noteId ∈ inputNotes)) :
    noteIds.foldlM takeInputNote (inputNotes, start) =
      .error (.aborted "The input note map was checked to contain all input notes") := by
  induction noteIds generalizing inputNotes start with
  | nil => exact absurd ⟨List.nodup_nil, List.forall_mem_nil _⟩ missing
  | cons noteId rest inductionHypothesis =>
    rw [List.foldlM_cons, takeInputNote]
    cases found : inputNotes[noteId]? with
    | none => rfl
    | some note =>
      refine inductionHypothesis fun ⟨distinct, present⟩ => missing ?_
      refine ⟨List.nodup_cons.mpr ⟨fun listed => ?_, distinct⟩,
        List.forall_mem_cons.mpr ⟨?_, fun other listed => ?_⟩⟩
      · have again := present noteId listed
        rw [ExtTreeMap.mem_erase] at again
        exact again.1 Std.ReflCmp.compare_self
      · rw [← ExtTreeMap.isSome_getElem?_iff_mem, found]
        rfl
      · exact (ExtTreeMap.mem_erase.mp (present other listed)).2

/-- The taken notes have the ids that they were taken by. -/
theorem ids_of_taken {inputNotes : ExtTreeMap NoteId InputNote} (keyed : InputNotesKeyed inputNotes)
    {noteIds : List NoteId} {taken : List InputNote}
    (same : taken.map some = noteIds.map fun noteId => inputNotes[noteId]?) :
    taken.map InputNote.id = noteIds := by
  induction noteIds generalizing taken with
  | nil =>
    rw [List.map_eq_nil_iff.mp same]
    rfl
  | cons noteId rest inductionHypothesis =>
    obtain ⟨note, others, rfl, found, later⟩ := List.map_eq_cons_iff.mp same
    rw [List.map_cons, keyed noteId note found.symm, inductionHypothesis later]

/-! ### The notes of a request -/

variable {environment : ExecutionEnvironment} {request : TransactionRequest}
  {records : List InputNoteRecord}

/-- From usable records a map is prepared that holds every note of the request. -/
theorem exists_prepared (request : TransactionRequest)
    (usable : ∀ record ∈ records, record.Usable) : ∃ authenticated,
    records.foldlM addAuthenticated ∅ = .ok authenticated ∧
      Prepares ((request.unauthenticatedNotes authenticated.keys).foldl
        (fun prepared note => prepared.insert note.id (.unauthenticated note)) authenticated)
        records (request.unauthenticatedNotes authenticated.keys) ∧
      ∀ noteId ∈ request.inputNoteIds, (∃ record ∈ records, record.id = noteId) ∨
        ∃ note ∈ request.unauthenticatedNotes authenticated.keys, note.id = noteId := by
  have empty : HoldsAuthenticated ∅ [] := by
    refine ⟨fun _ _ stored => ?_, fun _ _ stored => ?_, fun noteId => ?_⟩
    · simp at stored
    · simp at stored
    · simp
  obtain ⟨authenticated, added, holds⟩ := addAuthenticated_all empty usable
  rw [List.nil_append] at holds
  refine ⟨authenticated, added, ?_, fun noteId listed => ?_⟩
  · refine prepares_foldl holds.prepares fun note unauthenticated supplied => ?_
    have absent := of_decide_eq_true (List.mem_filter.mp unauthenticated).2
    exact absent (ExtTreeMap.mem_keys.mpr ((holds.supplied note.id).mpr supplied))
  · obtain ⟨note, member, rfl⟩ := List.mem_map.mp listed
    by_cases supplied : ∃ record ∈ records, record.id = note.id
    · exact Or.inl supplied
    · refine Or.inr ⟨note, List.mem_filter.mpr ⟨member, decide_eq_true fun held => ?_⟩, rfl⟩
      exact supplied ((holds.supplied note.id).mp (ExtTreeMap.mem_keys.mp held))

/-- With usable records, a note that is listed twice is a panic. -/
theorem buildInputNotes_of_duplicate (usable : ∀ record ∈ records, record.Usable)
    (duplicate : ¬ request.inputNoteIds.Nodup) : request.buildInputNotes environment records =
      .error (.aborted "The input note map was checked to contain all input notes") := by
  obtain ⟨authenticated, added, _⟩ := exists_prepared request usable
  unfold TransactionRequest.buildInputNotes
  rw [added]
  show request.inputNoteIds.foldlM takeInputNote (_, []) >>= _ = _
  rw [takeInputNote_aborted fun both => duplicate both.1]
  rfl

/-- The notes of a request are prepared as they should exactly when they are distinct, or one of the
supplied records is refused before it matters. -/
theorem buildsNotes_iff : BuildsNotes environment request records ↔
    (∃ record ∈ records, ¬ record.Usable) ∨ request.inputNoteIds.Nodup := by
  by_cases refused : ∃ record ∈ records, ¬ record.Usable
  · obtain ⟨error, failed⟩ := addAuthenticated_refused ∅ refused
    have outcome : request.buildInputNotes environment records =
        .error (.transactionRequestError error) := by
      unfold TransactionRequest.buildInputNotes
      rw [failed]
      rfl
    refine iff_of_true ⟨fun message same => ?_, fun notes same => ?_, fun notes same => ?_⟩
      (Or.inl refused)
    · rw [outcome] at same
      cases same
    · rw [outcome] at same
      cases same
    · rw [outcome] at same
      cases same
  rw [or_iff_right refused]
  have usable : ∀ record ∈ records, record.Usable := fun record listed =>
    not_not.mp fun unusable => refused ⟨record, listed, unusable⟩
  obtain ⟨authenticated, added, prepares, covered⟩ := exists_prepared request usable
  have present : ∀ noteId ∈ request.inputNoteIds, noteId ∈
      (request.unauthenticatedNotes authenticated.keys).foldl
        (fun prepared note => prepared.insert note.id (.unauthenticated note)) authenticated :=
    fun noteId listed => (prepares.present noteId).mpr (covered noteId listed)
  constructor
  · intro builds
    by_contra duplicate
    exact builds.returns _ (buildInputNotes_of_duplicate usable duplicate)
  · intro distinct
    obtain ⟨last, taken, took, same⟩ := takeInputNote_all distinct [] present
    have outcome : request.buildInputNotes environment records = do
        (environment.checkInputNotes taken).mapError .transactionRequestError
        return taken := by
      unfold TransactionRequest.buildInputNotes
      rw [added]
      show request.inputNoteIds.foldlM takeInputNote (_, []) >>= _ = _
      rw [took]
      rfl
    have given : ∀ notes, request.buildInputNotes environment records = .ok notes →
        notes = taken := by
      intro notes built
      rw [outcome] at built
      obtain ⟨_, _, built⟩ := bind_eq_ok.mp built
      exact (Except.ok.inj built).symm
    refine ⟨fun message failed => ?_, fun notes built => ?_, fun notes built => ?_⟩
    · rw [outcome] at failed
      cases checked : environment.checkInputNotes taken with
      | ok checked' =>
        rw [checked] at failed
        cases failed
      | error reason =>
        rw [checked] at failed
        cases failed
    · rw [given notes built]
      have ids := ids_of_taken prepares.keyed same
      exact ⟨ids, ids ▸ distinct⟩
    · rw [given notes built]
      intro note member
      have listed : some note ∈ taken.map some := List.mem_map_of_mem member
      rw [same] at listed
      obtain ⟨noteId, _, found⟩ := List.mem_map.mp listed
      rw [prepares.keyed noteId note found]
      exact prepares.authenticated noteId note found

end Requests

namespace Sample

/-- A committed record of a note in block 1. -/
def committedRecord : InputNoteRecord :=
  ⟨emptyNote.details, none, .committed ⟨emptyNote.metadata, ⟨1, 0, [5]⟩, 5⟩⟩

/-- A request for a note whose record is supplied. -/
theorem buildsNotes_emptyNote :
    BuildsNotes (acceptingEnvironment .tracked) (consumeRequest [emptyNote]) [committedRecord] := by
  refine buildsNotes_iff.mpr (Or.inr ?_)
  exact List.nodup_singleton emptyNote.id

/-- The note is listed twice. -/
def twiceRequest : FullTransactionRequest where
  toTransactionRequest := consumeRequest [emptyNote, emptyNote]
  inputNotesArgs := []
  scriptTemplate := none
  adviceMap := ∅
  merkleStore := RequestLibrary.emptyMerkleStore
  foreignAccounts := ∅
  expirationDelta := none
  scriptArg := none
  authArg := none
  expectedNtxScripts := []

/-- A request that lists a note twice can be read from bytes, and its notes are a panic. -/
theorem twiceRequest_panics :
    (∃ bytes, FullTransactionRequest.readFrom bytes = .ok (twiceRequest, [])) ∧
      twiceRequest.buildInputNotes (acceptingEnvironment .tracked) [] =
        .error (.aborted "The input note map was checked to contain all input notes") ∧
      ¬ BuildsNotes (acceptingEnvironment .tracked) twiceRequest.toTransactionRequest [] := by
  have keyed : FullTransactionRequest.KeyedAccounts twiceRequest.foreignAccounts := by
    intro accountId account found
    simp [twiceRequest] at found
  have panics : twiceRequest.buildInputNotes (acceptingEnvironment .tracked) [] =
      .error (.aborted "The input note map was checked to contain all input notes") := by
    refine buildInputNotes_of_duplicate (List.forall_mem_nil _) fun distinct => ?_
    exact absurd distinct (by decide)
  exact ⟨⟨_, (FullTransactionRequest.readsBack keyed).complete⟩, panics,
    fun builds => builds.returns _ panics⟩

end Sample

end MidenClient
