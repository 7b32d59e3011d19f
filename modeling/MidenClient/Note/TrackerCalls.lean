/-
This file shows what holds of a note tracker after any sequence of calls, whether they
succeed or fail (`rust-client/src/note/note_update_tracker.rs`).

Input and output notes are kept in the same way: a map of updates under note ids, and an
index from nullifiers to ids. A call either replaces the record of one note by a record
with the same id and nullifier, or it inserts a note; what it means for a map and its
index is stated once for both kinds of notes.
-/

import MidenClient.Note.TrackerEvents

namespace MidenClient

open Std (ExtTreeMap)
open Fallible

/-! ### A map of updates and its index -/

namespace NoteUpdate

section Table

variable {record : Type} {idOf : record → NoteId} {nullifierOf : record → Option Nullifier}
  {notes : ExtTreeMap NoteId (NoteUpdate record)} {index : ExtTreeMap Nullifier NoteId}

/-- The updates stand under the ids of their notes, and the index contains exactly the
nullifiers of these notes and leads to a note with the nullifier. -/
structure Registered (idOf : record → NoteId) (nullifierOf : record → Option Nullifier)
    (notes : ExtTreeMap NoteId (NoteUpdate record)) (index : ExtTreeMap Nullifier NoteId) :
    Prop where
  keyed : ∀ (noteId : NoteId) (update : NoteUpdate record), notes[noteId]? = some update →
    idOf update.note = noteId
  indexed : ∀ (noteId : NoteId) (update : NoteUpdate record) (nullifier : Nullifier),
    notes[noteId]? = some update → nullifierOf update.note = some nullifier → nullifier ∈ index
  leads : ∀ (nullifier : Nullifier) (noteId : NoteId), index[nullifier]? = some noteId →
    ∃ update, notes[noteId]? = some update ∧ nullifierOf update.note = some nullifier

theorem registered_empty : Registered idOf nullifierOf ∅ ∅ where
  keyed _ _ found := by simp at found
  indexed _ _ _ found := by simp at found
  leads _ _ found := by simp at found

/-- How a call changes the map at its target, if it has one: not at all, or the record is
replaced by one with the same id and nullifier and the note is marked. -/
def TouchedAt (idOf : record → NoteId) (nullifierOf : record → Option Nullifier)
    (target : Option NoteId) (before after : ExtTreeMap NoteId (NoteUpdate record)) : Prop :=
  after = before ∨ ∃ noteId update note, target = some noteId ∧ before[noteId]? = some update ∧
    idOf note = idOf update.note ∧ nullifierOf note = nullifierOf update.note ∧
    after = before.insert noteId (update.setInner note)

theorem setInner_setInner (update : NoteUpdate record) (first second : record) :
    (update.setInner first).setInner second = update.setInner second := by
  unfold setInner
  cases update.updateType <;> rfl

/-- Touching a note twice is touching it once. -/
theorem TouchedAt.trans {target : Option NoteId}
    {first second third : ExtTreeMap NoteId (NoteUpdate record)}
    (one : TouchedAt idOf nullifierOf target first second)
    (two : TouchedAt idOf nullifierOf target second third) :
    TouchedAt idOf nullifierOf target first third := by
  rcases one with rfl | ⟨noteId, update, note, rfl, found, sameId, sameNullifier, rfl⟩
  · exact two
  · rcases two with rfl | ⟨_, _, next, ⟨⟩, foundNext, sameIdNext, sameNullifierNext, rfl⟩
    · exact Or.inr ⟨noteId, update, note, rfl, found, sameId, sameNullifier, rfl⟩
    · rw [ExtTreeMap.getElem?_insert_self] at foundNext
      cases foundNext
      refine Or.inr ⟨noteId, update, next, rfl, found, sameIdNext.trans sameId,
        sameNullifierNext.trans sameNullifier, ?_⟩
      rw [setInner_setInner]
      exact ExtTreeMap.ext_getElem? fun other => by
        simp only [ExtTreeMap.getElem?_insert]
        split <;> rfl

theorem TouchedAt.getElem?_ne {target : Option NoteId} {other : NoteId}
    {before after : ExtTreeMap NoteId (NoteUpdate record)}
    (touched : TouchedAt idOf nullifierOf target before after) (different : target ≠ some other) :
    after[other]? = before[other]? := by
  rcases touched with rfl | ⟨noteId, update, note, rfl, _, _, _, rfl⟩
  · rfl
  · rw [ExtTreeMap.getElem?_insert,
      if_neg fun same => different (congrArg some (Std.compare_eq_iff_eq.mp same))]

/-- A touched map still is registered with its index. -/
theorem Registered.touch {target : Option NoteId}
    {after : ExtTreeMap NoteId (NoteUpdate record)}
    (registered : Registered idOf nullifierOf notes index)
    (touched : TouchedAt idOf nullifierOf target notes after) :
    Registered idOf nullifierOf after index := by
  rcases touched with rfl | ⟨noteId, update, note, rfl, found, sameId, sameNullifier, rfl⟩
  · exact registered
  refine ⟨?_, ?_, ?_⟩
  · intro other foundUpdate foundAt
    rw [ExtTreeMap.getElem?_insert] at foundAt
    split at foundAt
    · rename_i same
      obtain rfl := Std.compare_eq_iff_eq.mp same
      cases foundAt
      exact sameId.trans (registered.keyed noteId update found)
    · exact registered.keyed other foundUpdate foundAt
  · intro other foundUpdate nullifier foundAt has
    rw [ExtTreeMap.getElem?_insert] at foundAt
    split at foundAt
    · cases foundAt
      exact registered.indexed noteId update nullifier found (sameNullifier.symm.trans has)
    · exact registered.indexed other foundUpdate nullifier foundAt has
  · intro nullifier other leads
    obtain ⟨earlier, foundAt, has⟩ := registered.leads nullifier other leads
    by_cases same : noteId = other
    · subst same
      obtain rfl := Option.some.inj (found.symm.trans foundAt)
      exact ⟨_, ExtTreeMap.getElem?_insert_self, sameNullifier.trans has⟩
    · refine ⟨earlier, ?_, has⟩
      rw [ExtTreeMap.getElem?_insert, if_neg fun equal => same (Std.compare_eq_iff_eq.mp equal)]
      exact foundAt

/-- The index after a note was inserted. -/
def reindex (nullifier : Option Nullifier) (noteId : NoteId) (index : ExtTreeMap Nullifier NoteId) :
    ExtTreeMap Nullifier NoteId :=
  match nullifier with
  | some nullifier => index.insert nullifier noteId
  | none => index

/-- Inserting a note keeps the index exact when a record it replaces has the same nullifier, or
none. -/
theorem Registered.insert (registered : Registered idOf nullifierOf notes index) (note : record)
    (updateType : NoteUpdateType)
    (agrees : ∀ (update : NoteUpdate record) nullifier, notes[idOf note]? = some update →
      nullifierOf update.note = some nullifier → nullifierOf note = some nullifier) :
    Registered idOf nullifierOf (notes.insert (idOf note) ⟨note, updateType⟩)
      (reindex (nullifierOf note) (idOf note) index) := by
  have indexedBefore : ∀ nullifier, nullifier ∈ index →
      nullifier ∈ reindex (nullifierOf note) (idOf note) index := by
    intro nullifier member
    unfold reindex
    split
    · exact ExtTreeMap.mem_insert.mpr (Or.inr member)
    · exact member
  refine ⟨?_, ?_, ?_⟩
  · intro other foundUpdate foundAt
    rw [ExtTreeMap.getElem?_insert] at foundAt
    split at foundAt
    · rename_i same
      cases foundAt
      exact Std.compare_eq_iff_eq.mp same
    · exact registered.keyed other foundUpdate foundAt
  · intro other foundUpdate nullifier foundAt has
    rw [ExtTreeMap.getElem?_insert] at foundAt
    split at foundAt
    · cases foundAt
      rw [show nullifierOf note = some nullifier from has]
      exact ExtTreeMap.mem_insert_self
    · exact indexedBefore nullifier (registered.indexed other foundUpdate nullifier foundAt has)
  · have kept : ∀ nullifier other, index[nullifier]? = some other →
        ∃ update, (notes.insert (idOf note) ⟨note, updateType⟩)[other]? = some update ∧
          nullifierOf update.note = some nullifier := by
      intro nullifier other leads
      obtain ⟨earlier, foundAt, has⟩ := registered.leads nullifier other leads
      by_cases same : idOf note = other
      · subst same
        exact ⟨_, ExtTreeMap.getElem?_insert_self, agrees earlier nullifier foundAt has⟩
      · refine ⟨earlier, ?_, has⟩
        rw [ExtTreeMap.getElem?_insert, if_neg fun equal => same (Std.compare_eq_iff_eq.mp equal)]
        exact foundAt
    intro nullifier other leads
    unfold reindex at leads
    split at leads
    · rename_i known has
      rw [ExtTreeMap.getElem?_insert] at leads
      split at leads
      · rename_i same
        obtain rfl := Std.compare_eq_iff_eq.mp same
        cases leads
        exact ⟨_, ExtTreeMap.getElem?_insert_self, has⟩
      · exact kept nullifier other leads
    · exact kept nullifier other leads

/-- A note without a mark is not reported as updated. -/
theorem Registered.ne_of_unmarked (registered : Registered idOf nullifierOf notes index)
    {noteId : NoteId} (unmarked : ∀ update, notes[noteId]? = some update →
      update.updateType = .none) :
    ∀ update ∈ (OrderedMap.values notes).filter isUpdated, idOf update.note ≠ noteId := by
  rintro update member rfl
  obtain ⟨tracked, marked⟩ := List.mem_filter.mp member
  obtain ⟨key, found⟩ := OrderedMap.mem_values_iff.mp tracked
  have clean := unmarked update (by rw [registered.keyed key update found, found])
  unfold isUpdated at marked
  rw [clean] at marked
  cases marked

/-- The note is reported as one to insert. -/
def IsInserted (notes : ExtTreeMap NoteId (NoteUpdate record)) (noteId : NoteId) : Prop :=
  ∃ update, notes[noteId]? = some update ∧ update.updateType = .insert

theorem IsInserted.touch {target : Option NoteId} {other : NoteId}
    {after : ExtTreeMap NoteId (NoteUpdate record)} (inserted : IsInserted notes other)
    (touched : TouchedAt idOf nullifierOf target notes after) : IsInserted after other := by
  rcases touched with rfl | ⟨noteId, update, note, rfl, found, _, _, rfl⟩
  · exact inserted
  · obtain ⟨earlier, foundAt, isInsert⟩ := inserted
    by_cases same : noteId = other
    · subst same
      obtain rfl := Option.some.inj (found.symm.trans foundAt)
      refine ⟨_, ExtTreeMap.getElem?_insert_self, ?_⟩
      unfold setInner
      rw [isInsert]
    · refine ⟨earlier, ?_, isInsert⟩
      rw [ExtTreeMap.getElem?_insert, if_neg fun equal => same (Std.compare_eq_iff_eq.mp equal)]
      exact foundAt

theorem IsInserted.insert {noteId other : NoteId} (inserted : IsInserted notes other)
    (note : record) : IsInserted (notes.insert noteId ⟨note, .insert⟩) other := by
  obtain ⟨earlier, foundAt, isInsert⟩ := inserted
  by_cases same : noteId = other
  · subst same
    exact ⟨_, ExtTreeMap.getElem?_insert_self, rfl⟩
  · refine ⟨earlier, ?_, isInsert⟩
    rw [ExtTreeMap.getElem?_insert, if_neg fun equal => same (Std.compare_eq_iff_eq.mp equal)]
    exact foundAt

end Table

end NoteUpdate

open NoteUpdate

namespace NoteUpdateTracker

/-! ### The order of nullifiers -/

/-- The order lists exactly the nullifiers that were passed, by their first occurrence. -/
structure OrderedBy (order : ExtTreeMap Nullifier ℕ) (passed : List Nullifier) : Prop where
  mem_iff : ∀ nullifier, nullifier ∈ order ↔ nullifier ∈ passed
  below : ∀ (nullifier : Nullifier) (position : ℕ), order[nullifier]? = some position →
    position < order.size
  increasing : ∀ (first second : Nullifier) (early late : ℕ), order[first]? = some early →
    order[second]? = some late → passed.idxOf first < passed.idxOf second → early < late

theorem orderedBy_empty : OrderedBy ∅ [] where
  mem_iff nullifier := by simp
  below _ _ found := by simp at found
  increasing _ _ _ _ found := by simp at found

theorem OrderedBy.insertIfNew {order : ExtTreeMap Nullifier ℕ} {passed : List Nullifier}
    (ordered : OrderedBy order passed) (nullifier : Nullifier) :
    OrderedBy (order.insertIfNew nullifier order.size) (passed ++ [nullifier]) := by
  by_cases known : nullifier ∈ order
  · have unchanged : order.insertIfNew nullifier order.size = order := by
      refine ExtTreeMap.ext_getElem? fun other => ?_
      rw [ExtTreeMap.getElem?_insertIfNew, if_neg fun fresh => fresh.2 known]
    have listed := (ordered.mem_iff nullifier).mp known
    have inPassed : ∀ (other : Nullifier) (position : ℕ), order[other]? = some position →
        (passed ++ [nullifier]).idxOf other = passed.idxOf other := by
      intro other position found
      refine List.idxOf_append_of_mem ((ordered.mem_iff other).mp ?_)
      exact ExtTreeMap.mem_iff_isSome_getElem?.mpr (by rw [found]; rfl)
    rw [unchanged]
    refine ⟨fun other => ?_, ordered.below, fun first second early late one two before => ?_⟩
    · rw [ordered.mem_iff, List.mem_append, List.mem_singleton]
      refine ⟨Or.inl, fun member => member.elim id ?_⟩
      rintro rfl
      exact listed
    · rw [inPassed first early one, inPassed second late two] at before
      exact ordered.increasing first second early late one two before
  · have fresh : nullifier ∉ passed := fun listed => known ((ordered.mem_iff nullifier).mpr listed)
    have grown : (order.insertIfNew nullifier order.size).size = order.size + 1 := by
      rw [ExtTreeMap.size_insertIfNew, if_neg known]
    have lookup : ∀ (other : Nullifier) (position : ℕ),
        (order.insertIfNew nullifier order.size)[other]? = some position →
          other = nullifier ∧ position = order.size ∨
            other ∈ passed ∧ order[other]? = some position := by
      intro other position found
      rw [ExtTreeMap.getElem?_insertIfNew] at found
      split at found
      · rename_i same
        exact Or.inl ⟨(Std.compare_eq_iff_eq.mp same.1).symm, (Option.some.inj found).symm⟩
      · refine Or.inr ⟨(ordered.mem_iff other).mp ?_, found⟩
        exact ExtTreeMap.mem_iff_isSome_getElem?.mpr (by rw [found]; rfl)
    refine ⟨fun other => ?_, fun other position found => ?_,
      fun first second early late one two before => ?_⟩
    · rw [ExtTreeMap.mem_insertIfNew, ordered.mem_iff, List.mem_append, List.mem_singleton,
        Std.compare_eq_iff_eq]
      exact ⟨fun member => member.symm.imp_right Eq.symm, fun member =>
        member.symm.imp_left Eq.symm⟩
    · rw [grown]
      rcases lookup other position found with ⟨_, rfl⟩ | ⟨_, earlier⟩
      · exact Nat.lt_succ_self _
      · exact (ordered.below other position earlier).trans (Nat.lt_succ_self _)
    · rcases lookup first early one with ⟨rfl, rfl⟩ | ⟨firstListed, firstFound⟩
      · exfalso
        rw [List.idxOf_append_of_notMem fresh] at before
        rcases lookup second late two with ⟨rfl, _⟩ | ⟨secondListed, _⟩
        · rw [List.idxOf_append_of_notMem fresh] at before
          exact absurd before (lt_irrefl _)
        · rw [List.idxOf_append_of_mem secondListed] at before
          have bound := List.idxOf_lt_length_of_mem secondListed
          omega
      · rcases lookup second late two with ⟨rfl, rfl⟩ | ⟨secondListed, secondFound⟩
        · exact ordered.below first early firstFound
        · rw [List.idxOf_append_of_mem firstListed, List.idxOf_append_of_mem secondListed]
            at before
          exact ordered.increasing first second early late firstFound secondFound before

theorem OrderedBy.extend {order : ExtTreeMap Nullifier ℕ} {passed : List Nullifier}
    (ordered : OrderedBy order passed) (nullifiers : List Nullifier) :
    OrderedBy (nullifiers.foldl (fun order nullifier => order.insertIfNew nullifier order.size)
      order) (passed ++ nullifiers) := by
  induction nullifiers generalizing order passed with
  | nil =>
    rw [List.append_nil]
    exact ordered
  | cons nullifier rest inductionHypothesis =>
    rw [List.append_cons]
    exact inductionHypothesis (ordered.insertIfNew nullifier)

/-- A position that was given to a nullifier stays. -/
theorem foldl_insertIfNew_kept (nullifiers : List Nullifier) {order : ExtTreeMap Nullifier ℕ}
    {nullifier : Nullifier} {position : ℕ} (found : order[nullifier]? = some position) :
    (nullifiers.foldl (fun order nullifier => order.insertIfNew nullifier order.size)
      order)[nullifier]? = some position := by
  induction nullifiers generalizing order with
  | nil => exact found
  | cons next rest inductionHypothesis =>
    refine inductionHypothesis ?_
    rw [ExtTreeMap.getElem?_insertIfNew, if_neg]
    · exact found
    · rintro ⟨same, fresh⟩
      rw [Std.compare_eq_iff_eq.mp same] at fresh
      exact fresh (ExtTreeMap.mem_iff_isSome_getElem?.mpr (by rw [found]; rfl))

/-! ### What one call does -/

/-- The calls on a tracker after it was built. -/
inductive Call where
  | newPublicNote (publicNote : InputNoteRecord) (blockHeader : BlockHeader)
  | committedNote (committedNote : CommittedNote) (blockHeader : BlockHeader)
  | extendNullifiers (nullifiers : List Nullifier)
  | nullifiedNote (nullifierUpdate : NullifierUpdate)
      (committedTransactions : List TransactionRecord)

/-- The nullifiers the call passes for ordering. -/
def Call.passed : Call → List Nullifier
  | .extendNullifiers nullifiers => nullifiers
  | .newPublicNote _ _ | .committedNote _ _ | .nullifiedNote _ _ => []

variable [NoteLibrary]

/-- The nullifier of an input note record, which is always known. -/
abbrev inputNullifier (record : InputNoteRecord) : Option Nullifier :=
  some record.nullifier

/-- The call is about the note with the id and the nullifier, if that is known. -/
def Call.Addresses (noteId : NoteId) (nullifier : Option Nullifier) : Call → Prop
  | .newPublicNote publicNote _ => publicNote.id = noteId
  | .committedNote note _ => note.noteId = noteId
  | .extendNullifiers _ => False
  | .nullifiedNote update _ => nullifier = some update.nullifier

/-- The tracker after the call, which may have failed. -/
def applyCall (tracker : NoteUpdateTracker) : Call → NoteUpdateTracker
  | .newPublicNote publicNote blockHeader =>
    finalState (applyNewPublicNote publicNote blockHeader tracker)
  | .committedNote note blockHeader =>
    finalState (applyCommittedNoteStateTransitions note blockHeader tracker)
  | .extendNullifiers nullifiers => tracker.extendNullifiers nullifiers
  | .nullifiedNote update committedTransactions =>
    finalState (applyNullifiersStateTransitions update committedTransactions tracker)

def run (tracker : NoteUpdateTracker) (calls : List Call) : NoteUpdateTracker :=
  calls.foldl applyCall tracker

/-- The event keeps the id and the nullifier of a record. -/
def KeepsIdentity {record : Type} (idOf : record → NoteId)
    (nullifierOf : record → Option Nullifier) (event : record → Except ClientError record) :
    Prop :=
  ∀ before after, event before = .ok after →
    idOf after = idOf before ∧ nullifierOf after = nullifierOf before

theorem keepsIdentity_of_details {event : InputNoteRecord → Except ClientError InputNoteRecord}
    (keeps : ∀ before after, event before = .ok after → after.details = before.details) :
    KeepsIdentity InputNoteRecord.id inputNullifier event := by
  intro before after done
  have same := keeps before after done
  exact ⟨congrArg NoteDetails.id same, congrArg (some ∘ NoteDetails.nullifier) same⟩

omit [NoteLibrary] in
theorem apply_touches {record : Type} {idOf : record → NoteId}
    {nullifierOf : record → Option Nullifier} {event : record → Except ClientError record}
    (keeps : KeepsIdentity idOf nullifierOf event)
    {notes : ExtTreeMap NoteId (NoteUpdate record)} {noteId : NoteId} {update : NoteUpdate record}
    (found : notes[noteId]? = some update) :
    TouchedAt idOf nullifierOf (some noteId) notes
      (notes.insert noteId (update.apply event).1) := by
  unfold NoteUpdate.apply
  cases done : event update.note with
  | ok note =>
    obtain ⟨sameId, sameNullifier⟩ := keeps _ _ done
    exact Or.inr ⟨noteId, update, note, rfl, found, sameId, sameNullifier, rfl⟩
  | error error => exact Or.inr ⟨noteId, update, update.note, rfl, found, rfl, rfl, rfl⟩

/-- What a call did that replaces the records of at most one input and one output note. -/
structure Touches (inputNote outputNote : Option NoteId) (before after : NoteUpdateTracker) :
    Prop where
  inputs : TouchedAt InputNoteRecord.id inputNullifier inputNote before.inputNotes
    after.inputNotes
  outputs : TouchedAt OutputNoteRecord.id OutputNoteRecord.nullifier outputNote
    before.outputNotes after.outputNotes
  inputIndex : after.inputNotesByNullifier = before.inputNotesByNullifier
  outputIndex : after.outputNotesByNullifier = before.outputNotesByNullifier
  order : after.nullifierOrder = before.nullifierOrder

theorem Touches.refl (inputNote outputNote : Option NoteId) (tracker : NoteUpdateTracker) :
    Touches inputNote outputNote tracker tracker :=
  ⟨Or.inl rfl, Or.inl rfl, rfl, rfl, rfl⟩

section Touching

variable {inputNote outputNote : Option NoteId} {start : NoteUpdateTracker}

theorem changeInputNote_touches {noteId : NoteId} (target : inputNote = some noteId)
    {event : InputNoteRecord → Except ClientError InputNoteRecord}
    (keeps : KeepsIdentity InputNoteRecord.id inputNullifier event) :
    Preserves (Touches inputNote outputNote start) (changeInputNote noteId event) := by
  intro tracker touches
  unfold changeInputNote
  split
  · exact touches
  · rename_i update found
    have step := apply_touches keeps found
    rw [← target] at step
    split <;> exact { touches with inputs := touches.inputs.trans step }

theorem changeOutputNote_touches {noteId : NoteId} (target : outputNote = some noteId)
    {event : OutputNoteRecord → Except ClientError OutputNoteRecord}
    (keeps : KeepsIdentity OutputNoteRecord.id OutputNoteRecord.nullifier event) :
    Preserves (Touches inputNote outputNote start) (changeOutputNote noteId event) := by
  intro tracker touches
  unfold changeOutputNote
  split
  · exact touches
  · rename_i update found
    have step := apply_touches keeps found
    rw [← target] at step
    split <;> exact { touches with outputs := touches.outputs.trans step }

end Touching

omit [NoteLibrary] in
theorem details_of_recordEvent {record changed : InputNoteRecord}
    {result : Except NoteRecordError (Option InputNoteState)}
    (done : recordEvent (record.advance result) = .ok changed) :
    changed.details = record.details := by
  obtain ⟨flag, advanced⟩ := recordEvent_eq_ok.mp done
  rcases InputNoteRecord.advance_eq_ok advanced with ⟨next, _, rfl⟩ | ⟨_, rfl⟩ <;> rfl

theorem receiveInclusion_keepsIdentity (committedNote : CommittedNote) :
    KeepsIdentity InputNoteRecord.id inputNullifier (receiveInclusion committedNote) :=
  keepsIdentity_of_details fun before after done =>
    ((receiveInclusion_keepsProcessing committedNote) before after done).1

theorem blockHeaderReceived_keepsIdentity (blockHeader : BlockHeader) :
    KeepsIdentity InputNoteRecord.id inputNullifier
      (fun record => recordEvent (record.blockHeaderReceived blockHeader)) :=
  keepsIdentity_of_details fun before after done =>
    ((blockHeaderReceived_keepsProcessing blockHeader) before after done).1

theorem setConsumedTxOrder_keepsIdentity (order : Option ℕ) :
    KeepsIdentity InputNoteRecord.id inputNullifier
      (fun record => .ok (record.setConsumedTxOrder order)) :=
  keepsIdentity_of_details fun before after done =>
    ((setConsumedTxOrder_keepsProcessing order) before after done).1

theorem receiveNullifier_keepsIdentity (nullifierUpdate : NullifierUpdate)
    (committedTransactions : List TransactionRecord) :
    KeepsIdentity InputNoteRecord.id inputNullifier
      (receiveNullifier nullifierUpdate committedTransactions) := by
  refine keepsIdentity_of_details fun before after done => ?_
  unfold receiveNullifier at done
  split at done
  · split at done
    · exact details_of_recordEvent done
    · cases done
      rfl
    · cases done
      rfl
  · unfold InputNoteRecord.consumedExternally at done
    split at done
    · cases done
    · exact details_of_recordEvent done

/-- An event on an output note that keeps the recipient keeps the identity of the note. -/
theorem keepsIdentity_of_recipient
    (event : OutputNoteRecord → Except NoteRecordError (Option OutputNoteState))
    (keeps : ∀ record state, event record = .ok (some state) →
      state.recipient = record.state.recipient) :
    KeepsIdentity OutputNoteRecord.id OutputNoteRecord.nullifier
      (fun record => recordEvent (record.advance (event record))) := by
  intro before after done
  obtain ⟨flag, advanced⟩ := recordEvent_eq_ok.mp done
  cases result : event before with
  | error error =>
    rw [result] at advanced
    cases advanced
  | ok next =>
    rw [result] at advanced
    cases next with
    | none =>
      cases advanced
      exact ⟨rfl, rfl⟩
    | some state =>
      cases advanced
      refine ⟨rfl, ?_⟩
      unfold OutputNoteRecord.nullifier
      rw [keeps before state result]

theorem outputInclusionReceived_keepsIdentity (inclusionProof : NoteInclusionProof) :
    KeepsIdentity OutputNoteRecord.id OutputNoteRecord.nullifier
      (fun record => recordEvent (record.inclusionProofReceived inclusionProof)) := by
  refine keepsIdentity_of_recipient _ fun record state moved => ?_
  unfold OutputNoteState.inclusionProofReceived at moved
  split at moved <;> try split at moved
  all_goals cases moved
  all_goals rename_i is; rw [is]; rfl

theorem outputNullifierReceived_keepsIdentity (nullifierUpdate : NullifierUpdate) :
    KeepsIdentity OutputNoteRecord.id OutputNoteRecord.nullifier (fun record => recordEvent
      (record.nullifierReceived nullifierUpdate.nullifier nullifierUpdate.blockNum)) := by
  intro before after done
  beta_reduce at done
  unfold OutputNoteRecord.nullifierReceived at done
  split at done
  · cases done
  · refine keepsIdentity_of_recipient (fun record =>
      record.state.nullifierReceived nullifierUpdate.blockNum) (fun record state moved => ?_)
      before after done
    unfold OutputNoteState.nullifierReceived at moved
    split at moved
    all_goals cases moved
    all_goals rename_i is; rw [is]; rfl

/-- What one call does to a tracker. -/
theorem applyCall_cases (tracker : NoteUpdateTracker) (call : Call) :
    (∃ publicNote blockHeader note, call = .newPublicNote publicNote blockHeader ∧
      note.details = publicNote.details ∧
      tracker.applyCall call = tracker.insertInputNote note .insert) ∨
    (∃ nullifiers, call = .extendNullifiers nullifiers ∧
      tracker.applyCall call = tracker.extendNullifiers nullifiers) ∨
    (∃ note blockHeader, call = .committedNote note blockHeader ∧
      Touches (some note.noteId) (some note.noteId) tracker (tracker.applyCall call)) ∨
    (∃ update committedTransactions, call = .nullifiedNote update committedTransactions ∧
      Touches tracker.inputNotesByNullifier[update.nullifier]?
        tracker.outputNotesByNullifier[update.nullifier]? tracker (tracker.applyCall call)) ∨
    tracker.applyCall call = tracker ∧ call.passed = [] := by
  cases call with
  | newPublicNote publicNote blockHeader =>
    have effect : tracker.applyCall (.newPublicNote publicNote blockHeader) =
        finalState (applyNewPublicNote publicNote blockHeader tracker) := rfl
    unfold applyNewPublicNote at effect
    cases received : publicNote.blockHeaderReceived blockHeader with
    | error error =>
      rw [received] at effect
      exact Or.inr (Or.inr (Or.inr (Or.inr ⟨effect, rfl⟩)))
    | ok result =>
      rw [received] at effect
      refine Or.inl ⟨publicNote, blockHeader, result.1, rfl, ?_, effect⟩
      rcases InputNoteRecord.advance_eq_ok received with ⟨next, _, same⟩ | ⟨_, same⟩ <;> rw [same]
  | extendNullifiers nullifiers => exact Or.inr (Or.inl ⟨nullifiers, rfl, rfl⟩)
  | committedNote note blockHeader =>
    refine Or.inr (Or.inr (Or.inl ⟨note, blockHeader, rfl, ?_⟩))
    have preserves : Preserves (Touches (some note.noteId) (some note.noteId) tracker)
        (applyCommittedNoteStateTransitions note blockHeader) := by
      refine Preserves.bind (fun _ touches => touches) fun _ => ?_
      refine (changeInputNote_touches rfl (receiveInclusion_keepsIdentity note)).bind fun _ => ?_
      refine (changeInputNote_touches rfl (blockHeaderReceived_keepsIdentity blockHeader)).bind
        fun _ => ?_
      exact (changeOutputNote_touches rfl (outputInclusionReceived_keepsIdentity _)).bind
        fun _ => Preserves.pure _ _
    exact preserves tracker (Touches.refl _ _ tracker)
  | nullifiedNote update committedTransactions =>
    refine Or.inr (Or.inr (Or.inr (Or.inl ⟨update, committedTransactions, rfl, ?_⟩)))
    have inputs : Preserves (Touches tracker.inputNotesByNullifier[update.nullifier]?
        tracker.outputNotesByNullifier[update.nullifier]? tracker)
        (nullifyInputNote update committedTransactions) := by
      intro current touches
      unfold nullifyInputNote
      split
      · exact touches
      · rename_i noteId leads
        rw [touches.inputIndex] at leads
        exact ((changeInputNote_touches leads (receiveNullifier_keepsIdentity update _)).bind
          fun _ => changeInputNote_touches leads (setConsumedTxOrder_keepsIdentity _)) current
          touches
    have outputs : Preserves (Touches tracker.inputNotesByNullifier[update.nullifier]?
        tracker.outputNotesByNullifier[update.nullifier]? tracker) (nullifyOutputNote update) := by
      intro current touches
      unfold nullifyOutputNote
      split
      · exact touches
      · rename_i noteId leads
        rw [touches.outputIndex] at leads
        exact changeOutputNote_touches leads (outputNullifierReceived_keepsIdentity update) current
          touches
    exact (inputs.bind fun _ => outputs) tracker (Touches.refl _ _ tracker)

/-! ### Runs -/

/-- Both maps of a tracker are registered with their indexes. -/
structure Consistent (tracker : NoteUpdateTracker) : Prop where
  inputs : Registered InputNoteRecord.id inputNullifier tracker.inputNotes
    tracker.inputNotesByNullifier
  outputs : Registered OutputNoteRecord.id OutputNoteRecord.nullifier tracker.outputNotes
    tracker.outputNotesByNullifier

theorem Consistent.touch {inputNote outputNote : Option NoteId} {tracker next : NoteUpdateTracker}
    (consistent : Consistent tracker) (touches : Touches inputNote outputNote tracker next) :
    Consistent next := by
  refine ⟨?_, ?_⟩
  · rw [touches.inputIndex]
    exact consistent.inputs.touch touches.inputs
  · rw [touches.outputIndex]
    exact consistent.outputs.touch touches.outputs

theorem Consistent.insertInputNote (collisionFree : NoteIdCollisionFree)
    {tracker : NoteUpdateTracker} (consistent : Consistent tracker) (note : InputNoteRecord)
    (updateType : NoteUpdateType) : Consistent (tracker.insertInputNote note updateType) := by
  refine ⟨consistent.inputs.insert note updateType ?_, consistent.outputs⟩
  intro update nullifier tracked has
  have sameId := consistent.inputs.keyed note.id update tracked
  exact (congrArg some (collisionFree.nullifier_eq sameId)).symm.trans has

/-- Of the records of one note, a later one has the nullifier an earlier one has. -/
def NullifiersStay (outputNotes : List OutputNoteRecord) : Prop :=
  outputNotes.Pairwise fun earlier later => earlier.id = later.id →
    ∀ nullifier, earlier.nullifier = some nullifier → later.nullifier = some nullifier

theorem foldl_insertOutputNote_consistent {notes : List OutputNoteRecord}
    (stay : NullifiersStay notes) (updateType : NoteUpdateType) {tracker : NoteUpdateTracker}
    (consistent : Consistent tracker)
    (agrees : ∀ (noteId : NoteId) (update : OutputNoteUpdate) (nullifier : Nullifier),
      tracker.outputNotes[noteId]? = some update → update.note.nullifier = some nullifier →
      ∀ note ∈ notes, note.id = noteId → note.nullifier = some nullifier) :
    Consistent (notes.foldl (fun tracker note => tracker.insertOutputNote note updateType)
      tracker) := by
  induction notes generalizing tracker with
  | nil => exact consistent
  | cons note rest inductionHypothesis =>
    obtain ⟨ahead, later⟩ := List.pairwise_cons.mp stay
    refine inductionHypothesis later ⟨consistent.inputs, ?_⟩ ?_
    · exact consistent.outputs.insert note updateType fun update nullifier tracked has =>
        agrees note.id update nullifier tracked has note List.mem_cons_self rfl
    · intro noteId update nullifier tracked has other member sameId
      unfold insertOutputNote at tracked
      rw [ExtTreeMap.getElem?_insert] at tracked
      split at tracked
      · rename_i same
        cases tracked
        exact ahead other member ((Std.compare_eq_iff_eq.mp same).trans sameId.symm) nullifier has
      · exact agrees noteId update nullifier tracked has other (List.mem_cons_of_mem note member)
          sameId

theorem foldl_insertInputNote_consistent (collisionFree : NoteIdCollisionFree)
    (updateType : NoteUpdateType) (notes : List InputNoteRecord) {tracker : NoteUpdateTracker}
    (consistent : Consistent tracker) : Consistent
      (notes.foldl (fun tracker note => tracker.insertInputNote note updateType) tracker) := by
  induction notes generalizing tracker with
  | nil => exact consistent
  | cons note rest inductionHypothesis =>
    exact inductionHypothesis (consistent.insertInputNote collisionFree note updateType)

theorem foldl_insertInputNote_frame (updateType : NoteUpdateType)
    (notes : List InputNoteRecord) (tracker : NoteUpdateTracker) :
    (notes.foldl (fun tracker note => tracker.insertInputNote note updateType)
        tracker).outputNotes = tracker.outputNotes ∧
      (notes.foldl (fun tracker note => tracker.insertInputNote note updateType)
        tracker).nullifierOrder = tracker.nullifierOrder := by
  induction notes generalizing tracker with
  | nil => exact ⟨rfl, rfl⟩
  | cons note rest inductionHypothesis => exact inductionHypothesis _

theorem new_nullifierOrder (inputNotes : List InputNoteRecord)
    (outputNotes : List OutputNoteRecord) : (new inputNotes outputNotes).nullifierOrder = ∅ := by
  have outputs : ∀ tracker : NoteUpdateTracker, (outputNotes.foldl
      (fun tracker note => tracker.insertOutputNote note .none) tracker).nullifierOrder =
        tracker.nullifierOrder := by
    induction outputNotes with
    | nil => exact fun _ => rfl
    | cons note rest inductionHypothesis => exact fun tracker => inductionHypothesis _
  exact (outputs _).trans (foldl_insertInputNote_frame .none inputNotes empty).2

/-- Where the output notes of a tracker come from that a list of notes was inserted into. -/
theorem foldl_insertOutputNote_eq_some {updateType : NoteUpdateType}
    {notes : List OutputNoteRecord} {tracker : NoteUpdateTracker} {noteId : NoteId}
    {update : OutputNoteUpdate}
    (tracked : (notes.foldl (fun tracker note => tracker.insertOutputNote note updateType)
      tracker).outputNotes[noteId]? = some update) :
    tracker.outputNotes[noteId]? = some update ∨ update.updateType = updateType := by
  induction notes generalizing tracker with
  | nil => exact Or.inl tracked
  | cons note rest inductionHypothesis =>
    rcases inductionHypothesis tracked with before | given
    · unfold insertOutputNote at before
      rw [ExtTreeMap.getElem?_insert] at before
      split at before
      · cases before
        exact Or.inr rfl
      · exact Or.inl before
    · exact Or.inr given

theorem new_consistent (collisionFree : NoteIdCollisionFree) (inputNotes : List InputNoteRecord)
    {outputNotes : List OutputNoteRecord} (stay : NullifiersStay outputNotes) :
    Consistent (new inputNotes outputNotes) := by
  refine foldl_insertOutputNote_consistent stay .none (foldl_insertInputNote_consistent
    collisionFree .none inputNotes ⟨registered_empty, registered_empty⟩) ?_
  intro noteId update nullifier tracked
  rw [(foldl_insertInputNote_frame _ _ _).1] at tracked
  simp [empty] at tracked

/-- No output note of a new tracker is marked. -/
theorem new_outputNotes_eq_some {inputNotes : List InputNoteRecord}
    {outputNotes : List OutputNoteRecord} {noteId : NoteId} {update : OutputNoteUpdate}
    (tracked : (new inputNotes outputNotes).outputNotes[noteId]? = some update) :
    update.updateType = .none := by
  unfold new at tracked
  rcases foldl_insertOutputNote_eq_some tracked with before | given
  · rw [(foldl_insertInputNote_frame _ _ _).1] at before
    simp [empty] at before
  · exact given

section Run

variable {tracker : NoteUpdateTracker}

theorem Consistent.applyCall (collisionFree : NoteIdCollisionFree) (consistent : Consistent tracker)
    (call : Call) : Consistent (tracker.applyCall call) := by
  obtain ⟨_, _, note, _, _, done⟩ | ⟨_, _, done⟩ | ⟨_, _, _, touches⟩ | ⟨_, _, _, touches⟩ |
    ⟨done, _⟩ := tracker.applyCall_cases call
  · rw [done]
    exact consistent.insertInputNote collisionFree note .insert
  · rw [done]
    exact ⟨consistent.inputs, consistent.outputs⟩
  · exact consistent.touch touches
  · exact consistent.touch touches
  · rw [done]
    exact consistent

theorem Consistent.run (collisionFree : NoteIdCollisionFree) (consistent : Consistent tracker)
    (calls : List Call) : Consistent (tracker.run calls) := by
  induction calls generalizing tracker with
  | nil => exact consistent
  | cons call rest inductionHypothesis =>
    exact inductionHypothesis (consistent.applyCall collisionFree call)

theorem run_append (tracker : NoteUpdateTracker) (earlier later : List Call) :
    tracker.run (earlier ++ later) = (tracker.run earlier).run later :=
  List.foldl_append

/-- A call keeps the notes that are reported as ones to insert. -/
theorem applyCall_isInserted (call : Call) (noteId : NoteId) :
    (IsInserted tracker.inputNotes noteId →
      IsInserted (tracker.applyCall call).inputNotes noteId) ∧
    (IsInserted tracker.outputNotes noteId →
      IsInserted (tracker.applyCall call).outputNotes noteId) := by
  obtain ⟨_, _, note, _, _, done⟩ | ⟨_, _, done⟩ | ⟨_, _, _, touches⟩ | ⟨_, _, _, touches⟩ |
    ⟨done, _⟩ := tracker.applyCall_cases call
  · rw [done]
    exact ⟨fun inserted => inserted.insert note, id⟩
  · rw [done]
    exact ⟨id, id⟩
  · exact ⟨fun inserted => inserted.touch touches.inputs,
      fun inserted => inserted.touch touches.outputs⟩
  · exact ⟨fun inserted => inserted.touch touches.inputs,
      fun inserted => inserted.touch touches.outputs⟩
  · rw [done]
    exact ⟨id, id⟩

theorem run_isInserted (calls : List Call) (noteId : NoteId) :
    (IsInserted tracker.inputNotes noteId → IsInserted (tracker.run calls).inputNotes noteId) ∧
    (IsInserted tracker.outputNotes noteId →
      IsInserted (tracker.run calls).outputNotes noteId) := by
  induction calls generalizing tracker with
  | nil => exact ⟨id, id⟩
  | cons call rest inductionHypothesis =>
    have step := @applyCall_isInserted _ tracker call noteId
    exact ⟨fun inserted => inductionHypothesis.1 (step.1 inserted),
      fun inserted => inductionHypothesis.2 (step.2 inserted)⟩

/-- A call leaves an input note alone that it is not about. -/
theorem applyCall_inputNotes_unaddressed (consistent : Consistent tracker) {call : Call}
    {noteId : NoteId} (untouched : ¬call.Addresses noteId
      (tracker.inputNotes[noteId]?.map fun update => update.note.nullifier)) :
    (tracker.applyCall call).inputNotes[noteId]? = tracker.inputNotes[noteId]? := by
  obtain ⟨publicNote, _, note, rfl, details, done⟩ | ⟨_, _, done⟩ | ⟨_, _, rfl, touches⟩ |
    ⟨update, _, rfl, touches⟩ | ⟨done, _⟩ := tracker.applyCall_cases call
  · rw [done, insertInputNote, ExtTreeMap.getElem?_insert, if_neg]
    intro same
    exact untouched ((congrArg NoteDetails.id details).symm.trans (Std.compare_eq_iff_eq.mp same))
  · rw [done, extendNullifiers]
  · exact touches.inputs.getElem?_ne fun same => untouched (Option.some.inj same)
  · refine touches.inputs.getElem?_ne fun leads => untouched ?_
    obtain ⟨earlier, found, has⟩ := consistent.inputs.leads update.nullifier noteId leads
    rw [found]
    exact has
  · rw [done]

/-- A call leaves an output note alone that it is not about. -/
theorem applyCall_outputNotes_unaddressed (consistent : Consistent tracker) {call : Call}
    {noteId : NoteId} (untouched : ¬call.Addresses noteId
      (tracker.outputNotes[noteId]?.bind fun update => update.note.nullifier)) :
    (tracker.applyCall call).outputNotes[noteId]? = tracker.outputNotes[noteId]? := by
  obtain ⟨_, _, _, _, _, done⟩ | ⟨_, _, done⟩ | ⟨_, _, rfl, touches⟩ | ⟨update, _, rfl, touches⟩ |
    ⟨done, _⟩ := tracker.applyCall_cases call
  · rw [done, insertInputNote]
  · rw [done, extendNullifiers]
  · exact touches.outputs.getElem?_ne fun same => untouched (Option.some.inj same)
  · refine touches.outputs.getElem?_ne fun leads => untouched ?_
    obtain ⟨earlier, found, has⟩ := consistent.outputs.leads update.nullifier noteId leads
    rw [found]
    exact has
  · rw [done]

theorem run_inputNotes_unaddressed (collisionFree : NoteIdCollisionFree)
    (consistent : Consistent tracker) {calls : List Call} {noteId : NoteId}
    (untouched : ∀ call ∈ calls, ¬call.Addresses noteId
      (tracker.inputNotes[noteId]?.map fun update => update.note.nullifier)) :
    (tracker.run calls).inputNotes[noteId]? = tracker.inputNotes[noteId]? := by
  induction calls generalizing tracker with
  | nil => rfl
  | cons call rest inductionHypothesis =>
    have step := applyCall_inputNotes_unaddressed consistent (untouched call List.mem_cons_self)
    refine (inductionHypothesis (consistent.applyCall collisionFree call) ?_).trans step
    intro other member
    rw [step]
    exact untouched other (List.mem_cons_of_mem call member)

theorem run_outputNotes_unaddressed (collisionFree : NoteIdCollisionFree)
    (consistent : Consistent tracker) {calls : List Call} {noteId : NoteId}
    (untouched : ∀ call ∈ calls, ¬call.Addresses noteId
      (tracker.outputNotes[noteId]?.bind fun update => update.note.nullifier)) :
    (tracker.run calls).outputNotes[noteId]? = tracker.outputNotes[noteId]? := by
  induction calls generalizing tracker with
  | nil => rfl
  | cons call rest inductionHypothesis =>
    have step := applyCall_outputNotes_unaddressed consistent (untouched call List.mem_cons_self)
    refine (inductionHypothesis (consistent.applyCall collisionFree call) ?_).trans step
    intro other member
    rw [step]
    exact untouched other (List.mem_cons_of_mem call member)

/-- A call appends the nullifiers it passes to the order, and does nothing else to it. -/
theorem applyCall_nullifierOrder (call : Call) : (tracker.applyCall call).nullifierOrder =
    call.passed.foldl (fun order nullifier => order.insertIfNew nullifier order.size)
      tracker.nullifierOrder := by
  obtain ⟨_, _, _, rfl, _, done⟩ | ⟨_, rfl, done⟩ | ⟨_, _, rfl, touches⟩ |
    ⟨_, _, rfl, touches⟩ | ⟨done, nothing⟩ := tracker.applyCall_cases call
  · rw [done]
    rfl
  · rw [done]
    rfl
  · exact touches.order
  · exact touches.order
  · rw [done, nothing]
    rfl

theorem run_nullifierOrder (calls : List Call) : (tracker.run calls).nullifierOrder =
    (calls.flatMap Call.passed).foldl
      (fun order nullifier => order.insertIfNew nullifier order.size) tracker.nullifierOrder := by
  induction calls generalizing tracker with
  | nil => rfl
  | cons call rest inductionHypothesis =>
    rw [List.flatMap_cons, List.foldl_append, ← applyCall_nullifierOrder]
    exact inductionHypothesis

end Run

/-- What holds of the tracker of a run of calls. -/
structure RunsConsistently (inputNotes : List InputNoteRecord)
    (outputNotes : List OutputNoteRecord) (calls : List Call) : Prop where
  /-- Every key is the id of its note, and the indexes contain exactly the nullifiers of the
  tracked notes and lead to notes with them. -/
  consistent : Consistent ((new inputNotes outputNotes).run calls)
  /-- A note that was seen as one to insert is reported as one to insert. -/
  insertedInput : ∀ earlier later noteId, calls = earlier ++ later →
    IsInserted ((new inputNotes outputNotes).run earlier).inputNotes noteId →
    IsInserted ((new inputNotes outputNotes).run calls).inputNotes noteId
  insertedOutput : ∀ earlier later noteId, calls = earlier ++ later →
    IsInserted ((new inputNotes outputNotes).run earlier).outputNotes noteId →
    IsInserted ((new inputNotes outputNotes).run calls).outputNotes noteId
  /-- A note that no call was about keeps its record, and is not reported as updated. -/
  unaddressedInput : ∀ noteId : NoteId,
    (∀ call ∈ calls, ¬call.Addresses noteId
      ((new inputNotes outputNotes).inputNotes[noteId]?.map fun update => update.note.nullifier)) →
    ((new inputNotes outputNotes).run calls).inputNotes[noteId]? =
        (new inputNotes outputNotes).inputNotes[noteId]? ∧
      ∀ update ∈ ((new inputNotes outputNotes).run calls).updatedInputNotes,
        update.note.id ≠ noteId
  unaddressedOutput : ∀ noteId : NoteId,
    (∀ call ∈ calls, ¬call.Addresses noteId
      ((new inputNotes outputNotes).outputNotes[noteId]?.bind fun update =>
        update.note.nullifier)) →
    ((new inputNotes outputNotes).run calls).outputNotes[noteId]? =
        (new inputNotes outputNotes).outputNotes[noteId]? ∧
      ∀ update ∈ ((new inputNotes outputNotes).run calls).updatedOutputNotes,
        update.note.id ≠ noteId
  /-- The order of a nullifier never changes once it is assigned. -/
  orderKept : ∀ earlier later (nullifier : Nullifier) (position : ℕ), calls = earlier ++ later →
    ((new inputNotes outputNotes).run earlier).nullifierOrder[nullifier]? = some position →
    ((new inputNotes outputNotes).run calls).nullifierOrder[nullifier]? = some position
  /-- It increases strictly in the order in which the nullifiers were first passed. -/
  orderIncreasing : ∀ first ∈ calls.flatMap Call.passed, ∀ second ∈ calls.flatMap Call.passed,
    (calls.flatMap Call.passed).idxOf first < (calls.flatMap Call.passed).idxOf second →
    ∃ early late : ℕ,
      ((new inputNotes outputNotes).run calls).nullifierOrder[first]? = some early ∧
      ((new inputNotes outputNotes).run calls).nullifierOrder[second]? = some late ∧ early < late

/-- A tracker whose output notes keep their nullifiers runs consistently through any calls. -/
theorem run_consistently (collisionFree : NoteIdCollisionFree) (inputNotes : List InputNoteRecord)
    (outputNotes : List OutputNoteRecord) (stay : NullifiersStay outputNotes)
    (calls : List Call) : RunsConsistently inputNotes outputNotes calls := by
  have start := new_consistent collisionFree inputNotes stay
  have last := start.run collisionFree calls
  have ordered : OrderedBy ((new inputNotes outputNotes).run calls).nullifierOrder
      (calls.flatMap Call.passed) := by
    rw [run_nullifierOrder, new_nullifierOrder]
    exact orderedBy_empty.extend _
  refine ⟨last, ?_, ?_, ?_, ?_, ?_, ?_⟩
  · rintro earlier later noteId rfl inserted
    rw [run_append]
    exact (run_isInserted later noteId).1 inserted
  · rintro earlier later noteId rfl inserted
    rw [run_append]
    exact (run_isInserted later noteId).2 inserted
  · intro noteId untouched
    have same := run_inputNotes_unaddressed collisionFree start untouched
    refine ⟨same, last.inputs.ne_of_unmarked fun update found => ?_⟩
    rw [same] at found
    exact (new_eq_some found).2.2
  · intro noteId untouched
    have same := run_outputNotes_unaddressed collisionFree start untouched
    refine ⟨same, last.outputs.ne_of_unmarked fun update found => ?_⟩
    rw [same] at found
    exact new_outputNotes_eq_some found
  · rintro earlier later nullifier position rfl found
    rw [run_append, run_nullifierOrder]
    exact foldl_insertIfNew_kept _ found
  · intro first firstPassed second secondPassed before
    obtain ⟨early, foundFirst⟩ := Option.isSome_iff_exists.mp
      (ExtTreeMap.mem_iff_isSome_getElem?.mp ((ordered.mem_iff first).mpr firstPassed))
    obtain ⟨late, foundSecond⟩ := Option.isSome_iff_exists.mp
      (ExtTreeMap.mem_iff_isSome_getElem?.mp ((ordered.mem_iff second).mpr secondPassed))
    exact ⟨early, late, foundFirst, foundSecond,
      ordered.increasing first second early late foundFirst foundSecond before⟩

end NoteUpdateTracker

namespace Sample

open NoteUpdateTracker

/-- A public note for account 2. -/
def paymentNote : Note :=
  ⟨⟨[], ⟨3, 1, 1⟩⟩, ⟨2, .isPublic, 9, 0⟩⟩

/-- The note as an output of which everything is known. -/
def paymentOutput : OutputNoteRecord :=
  .fromFullNote paymentNote 4

/-- The note as an output of which the recipient is not known. -/
def paymentOutline : OutputNoteRecord :=
  .fromPartialNote ⟨paymentNote.details.recipient.digest, [], paymentNote.metadata⟩ 4

/-- A run with one output note that learns of its commitment and its nullifier. -/
theorem run_consistently_payment : RunsConsistently [] [paymentOutput]
    [.committedNote ⟨paymentNote.id, .isPublic, some paymentNote.metadata, ⟨5, 0, [7]⟩⟩ ⟨5, 7, 100⟩,
      .extendNullifiers [paymentNote.nullifier], .nullifiedNote ⟨paymentNote.nullifier, 6⟩ []] :=
  run_consistently noteIdCollisionFree [] [paymentOutput] (by simp [NullifiersStay]) _

/-- A record without a recipient that replaces one of the same note leaves the index with a
nullifier that no tracked note has. -/
theorem not_run_consistently_outline :
    ¬RunsConsistently [] [paymentOutput, paymentOutline] [] := by
  intro runs
  obtain ⟨update, found, has⟩ := runs.consistent.outputs.leads paymentNote.nullifier
    paymentNote.id (by decide +kernel)
  have outline : ((new [] [paymentOutput, paymentOutline]).run []).outputNotes[paymentNote.id]?.map
      (fun update => update.note.nullifier) = some none := by decide +kernel
  rw [found, Option.map_some, has] at outline
  cases outline

end Sample

end MidenClient
