/-
This file proves what the calls of a builder lead to (`rust-client/src/transaction/request`).

The notes that a script creates are found again by the digests of their recipients. The call
that adds such notes adds their recipients, but the call that sets the expected recipients
replaces all that were added before it. Whether a recipient is there at the end is therefore
decided by the last call that replaces them, and by what follows it.
-/

import MidenClient.Transaction.Request

namespace MidenClient

open Std (ExtTreeMap)
open Panicking

namespace TransactionRequestBuilder

variable [NoteLibrary] [RequestLibrary]

/-! ### What the calls provide -/

namespace Call

/-- The notes that the script is to create. -/
def ownNotes : Call → List Note
  | .ownOutputNotes notes => notes
  | _ => []

/-- The recipients that a call adds. -/
def recipients : Call → List NoteRecipient
  | .ownOutputNotes notes => notes.map fun note => note.details.recipient
  | .expectedOutputRecipients recipients => recipients
  | _ => []

/-- Only one call drops the recipients that are there. -/
def Replaces : Call → Prop
  | .expectedOutputRecipients _ => True
  | _ => False

def Provides (call : Call) (digest : Word) : Prop :=
  ∃ recipient ∈ call.recipients, recipient.digest = digest

end Call

/-- The notes that the script of a request is to create, over all calls. -/
def ownNotes (calls : List Call) : List Note :=
  calls.flatMap Call.ownNotes

/-- A call provides the digest, and no later one replaces the recipients. -/
def Provide : List Call → Word → Prop
  | [], _ => False
  | call :: rest, digest =>
    Provide rest digest ∨ call.Provides digest ∧ ∀ later ∈ rest, ¬ later.Replaces

/-- When a call replaces the recipients, that call or one behind it provides the recipient of each
own output note again that was added before. -/
def RecipientsKept : List Call → Prop
  | [] => True
  | call :: rest =>
    (∀ note ∈ call.ownNotes, (∃ later ∈ rest, later.Replaces) →
      Provide rest note.details.recipient.digest) ∧ RecipientsKept rest

/-- What is relied on of a request: its own output notes can be put together again, one by one, and
its input notes are distinct and listed like their arguments. -/
structure Consistent (request : FullTransactionRequest) (ownNotes : List Note) : Prop where
  recipients : ∀ note ∈ ownNotes, ∃ recipient,
    request.expectedOutputRecipients[note.details.recipient.digest]? = some recipient ∧
      recipient.digest = note.details.recipient.digest
  expectedOutputOwnNotes : ∃ notes, request.expectedOutputOwnNotes = .ok notes ∧
    notes.map Note.toPartial = ownNotes.map Note.toPartial
  distinct : request.inputNoteIds.Nodup
  arguments : request.inputNotesArgs.map Prod.fst = request.inputNoteIds

/-! ### The steps of a builder -/

variable {builder : TransactionRequestBuilder}

theorem recipients_perform (call : Call) (digest : Word) :
    ((builder.perform call).expectedOutputRecipients[digest]?).isSome = true ↔
      call.Provides digest ∨
        ¬ call.Replaces ∧ (builder.expectedOutputRecipients[digest]?).isSome = true := by
  have listed : ∀ recipients : List NoteRecipient,
      digest ∈ (recipientsByDigest recipients).map Prod.fst ↔
        ∃ recipient ∈ recipients, recipient.digest = digest := by
    intro recipients
    unfold recipientsByDigest
    rw [List.map_map, List.mem_map]
    rfl
  have untouched : ∀ other : Call, other.recipients = [] → ¬ other.Replaces →
      ((builder.expectedOutputRecipients[digest]?).isSome = true ↔ other.Provides digest ∨
        ¬ other.Replaces ∧ (builder.expectedOutputRecipients[digest]?).isSome = true) := by
    intro other none keeps
    unfold Call.Provides
    rw [none]
    simp [keeps]
  cases call with
  | ownOutputNotes notes =>
    show ((OrderedMap.insertAll _ _)[digest]?).isSome = true ↔ _
    rw [OrderedMap.isSome_insertAll, listed, or_comm]
    exact or_congr Iff.rfl (and_iff_right not_false).symm
  | expectedOutputRecipients recipients =>
    show ((OrderedMap.insertAll _ _)[digest]?).isSome = true ↔ _
    rw [OrderedMap.isSome_insertAll, listed]
    constructor
    · rintro (absent | provided)
      · simp at absent
      · exact Or.inl provided
    · rintro (provided | ⟨keeps, _⟩)
      · exact Or.inr provided
      · exact absurd trivial keeps
  | inputNotes | customScript | foreignAccounts | expectedFutureNotes | extendAdviceMap
  | extendMerkleStore | expirationDelta | ignoreInvalidInputNotes | scriptArg | authArg
  | expectedNtxScripts => exact untouched _ rfl not_false

/-- The recipients that are there after some calls: those that are provided, and those from before
if nothing replaces them. -/
theorem recipients_foldl (calls : List Call) (digest : Word) :
    ((calls.foldl perform builder).expectedOutputRecipients[digest]?).isSome = true ↔
      Provide calls digest ∨ (∀ call ∈ calls, ¬ call.Replaces) ∧
        (builder.expectedOutputRecipients[digest]?).isSome = true := by
  induction calls generalizing builder with
  | nil => simp [Provide]
  | cons call rest inductionHypothesis =>
    rw [List.foldl_cons, inductionHypothesis, recipients_perform, Provide, List.forall_mem_cons]
    tauto

theorem recipients_run (calls : List Call) (digest : Word) :
    ((run calls).expectedOutputRecipients[digest]?).isSome = true ↔ Provide calls digest := by
  unfold run
  rw [recipients_foldl, or_iff_left]
  rintro ⟨_, present⟩
  have absent : (new.expectedOutputRecipients[digest]?).isSome = false := by simp [new]
  rw [absent] at present
  cases present

/-- Each recipient is kept under its digest. -/
def Keyed (builder : TransactionRequestBuilder) : Prop :=
  ∀ (digest : Word) (recipient : NoteRecipient),
    builder.expectedOutputRecipients[digest]? = some recipient → recipient.digest = digest

/-- The input notes and their arguments are listed alike. -/
def Paired (builder : TransactionRequestBuilder) : Prop :=
  builder.inputNotesArgs.map Prod.fst = builder.inputNotes.map Note.id

theorem Keyed.perform (keyed : builder.Keyed) (call : Call) : (builder.perform call).Keyed := by
  have written : ∀ (map : ExtTreeMap Word NoteRecipient) (recipients : List NoteRecipient),
      (∀ (digest : Word) (recipient : NoteRecipient), map[digest]? = some recipient →
          recipient.digest = digest) →
        ∀ (digest : Word) (recipient : NoteRecipient),
          (OrderedMap.insertAll map (recipientsByDigest recipients))[digest]? = some recipient →
            recipient.digest = digest := by
    intro map recipients before digest recipient found
    rcases OrderedMap.insertAll_eq_some found with held | listed
    · exact before digest recipient held
    · obtain ⟨_, _, same⟩ := List.mem_map.mp listed
      cases same
      rfl
  cases call with
  | ownOutputNotes notes => exact written _ _ keyed
  | expectedOutputRecipients recipients =>
    refine written _ _ fun digest recipient found => ?_
    simp at found
  | inputNotes | customScript | foreignAccounts | expectedFutureNotes | extendAdviceMap
  | extendMerkleStore | expirationDelta | ignoreInvalidInputNotes | scriptArg | authArg
  | expectedNtxScripts => exact keyed

theorem Paired.perform (paired : builder.Paired) (call : Call) : (builder.perform call).Paired := by
  cases call with
  | inputNotes notes =>
    show ((_ ++ _ : List (NoteId × Option NoteArgs)).map Prod.fst) =
      (_ ++ _ : List Note).map Note.id
    rw [List.map_append, List.map_append, paired, List.map_map, List.map_map]
    rfl
  | ownOutputNotes | expectedOutputRecipients | customScript | foreignAccounts
  | expectedFutureNotes | extendAdviceMap | extendMerkleStore | expirationDelta
  | ignoreInvalidInputNotes | scriptArg | authArg | expectedNtxScripts => exact paired

theorem ownOutputNotes_perform (call : Call) :
    (builder.perform call).ownOutputNotes = builder.ownOutputNotes ++ call.ownNotes := by
  cases call with
  | ownOutputNotes notes => rfl
  | inputNotes | customScript | foreignAccounts | expectedOutputRecipients | expectedFutureNotes
  | extendAdviceMap | extendMerkleStore | expirationDelta | ignoreInvalidInputNotes | scriptArg
  | authArg | expectedNtxScripts => exact (List.append_nil _).symm

/-! ### Whole runs -/

/-- What each call keeps holds after a run. -/
theorem run_invariant (invariant : TransactionRequestBuilder → Prop) (holds : invariant new)
    (keeps : ∀ builder : TransactionRequestBuilder, ∀ call, invariant builder →
      invariant (builder.perform call)) (calls : List Call) : invariant (run calls) := by
  refine List.foldlRecOn calls perform holds fun builder kept call _ => keeps builder call kept

theorem keyed_run (calls : List Call) : (run calls).Keyed := by
  refine run_invariant Keyed ?_ (fun _ call keyed => keyed.perform call) calls
  intro digest recipient found
  simp [new] at found

theorem paired_run (calls : List Call) : (run calls).Paired :=
  run_invariant Paired rfl (fun _ call paired => paired.perform call) calls

theorem ownOutputNotes_run (calls : List Call) : (run calls).ownOutputNotes = ownNotes calls := by
  unfold run ownNotes
  induction calls using List.reverseRecOn with
  | nil => rfl
  | append_singleton calls call inductionHypothesis =>
    rw [List.foldl_append, List.flatMap_append, ← inductionHypothesis]
    show ((calls.foldl perform new).perform call).ownOutputNotes = _
    rw [ownOutputNotes_perform, List.flatMap_singleton]

omit [NoteLibrary] in
theorem mem_ownNotes_cons {call : Call} {rest : List Call} {note : Note} :
    note ∈ ownNotes (call :: rest) ↔ note ∈ call.ownNotes ∨ note ∈ ownNotes rest := by
  unfold ownNotes
  rw [List.flatMap_cons, List.mem_append]

/-- The call that adds an own output note adds its recipient. -/
theorem Call.provides_of_mem_ownNotes {call : Call} {note : Note} (own : note ∈ call.ownNotes) :
    call.Provides note.details.recipient.digest := by
  cases call with
  | ownOutputNotes notes => exact ⟨_, List.mem_map_of_mem own, rfl⟩
  | inputNotes | customScript | foreignAccounts | expectedOutputRecipients | expectedFutureNotes
  | extendAdviceMap | extendMerkleStore | expirationDelta | ignoreInvalidInputNotes | scriptArg
  | authArg | expectedNtxScripts => cases own

/-- Without a replacement the recipients of all own output notes are provided. -/
theorem provide_of_not_replaces {calls : List Call} (keep : ∀ call ∈ calls, ¬ call.Replaces)
    {note : Note} (listed : note ∈ ownNotes calls) :
    Provide calls note.details.recipient.digest := by
  induction calls with
  | nil => cases listed
  | cons call rest inductionHypothesis =>
    obtain ⟨_, later⟩ := List.forall_mem_cons.mp keep
    rcases mem_ownNotes_cons.mp listed with here | behind
    · exact Or.inr ⟨Call.provides_of_mem_ownNotes here, later⟩
    · exact Or.inl (inductionHypothesis later behind)

/-- The recipients of all own output notes are provided exactly when none of them is lost. -/
theorem provide_ownNotes_iff {calls : List Call} :
    (∀ note ∈ ownNotes calls, Provide calls note.details.recipient.digest) ↔
      RecipientsKept calls := by
  induction calls with
  | nil => exact ⟨fun _ => trivial, fun _ _ absent => absurd absent List.not_mem_nil⟩
  | cons call rest inductionHypothesis =>
    rw [RecipientsKept, ← inductionHypothesis]
    constructor
    · intro provided
      refine ⟨fun note here replaced => ?_, fun note behind => ?_⟩
      · rcases provided note (mem_ownNotes_cons.mpr (Or.inl here)) with later | ⟨_, keep⟩
        · exact later
        · obtain ⟨later, listed, replaces⟩ := replaced
          exact absurd replaces (keep later listed)
      · rcases provided note (mem_ownNotes_cons.mpr (Or.inr behind)) with later | ⟨_, keep⟩
        · exact later
        · exact provide_of_not_replaces keep behind
    · rintro ⟨here, behind⟩ note listed
      rcases mem_ownNotes_cons.mp listed with own | later
      · by_cases replaced : ∃ later ∈ rest, later.Replaces
        · exact Or.inl (here note own replaced)
        · exact Or.inr ⟨Call.provides_of_mem_ownNotes own,
            fun later member replaces => replaced ⟨later, member, replaces⟩⟩
      · exact Or.inl (behind note later)

/-! ### The own output notes of a request -/

/-- The notes that a request is built with to send. -/
theorem scriptTemplate_eq {template : Option TransactionScriptTemplate}
    (made : builder.buildScriptTemplate = .ok template) :
    (builder.ownOutputNotes = [] ∧ ∀ notes, template ≠ some (.sendNotes notes)) ∨
      template = some (.sendNotes (builder.ownOutputNotes.map Note.toPartial)) := by
  unfold buildScriptTemplate at made
  cases own : builder.ownOutputNotes with
  | nil =>
    refine Or.inl ⟨rfl, fun notes same => ?_⟩
    subst same
    rw [own] at made
    cases custom : builder.customScript with
    | none =>
      rw [custom] at made
      cases made
    | some script =>
      rw [custom] at made
      dsimp only [List.isEmpty_nil] at made
      split at made
      · cases made
      · cases made
  | cons first rest =>
    rw [own] at made
    cases custom : builder.customScript with
    | none =>
      rw [custom] at made
      cases made
      exact Or.inr rfl
    | some script =>
      rw [custom] at made
      cases made

omit [NoteLibrary] in
/-- The note that is put together again has the parts of the own output note. -/
theorem ownNote_eq_ok {request : FullTransactionRequest} {note : PartialNote} {made : Note} :
    request.ownNote note = .ok made ↔ ∃ recipient,
      request.expectedOutputRecipients[note.recipientDigest]? = some recipient ∧
        made = ⟨⟨note.assets, recipient⟩, note.metadata⟩ := by
  unfold FullTransactionRequest.ownNote
  rw [Fallible.bind_eq_ok]
  refine exists_congr fun recipient => ?_
  rw [expect_eq_ok, and_congr_right_iff]
  exact fun _ => ⟨fun same => (Except.ok.inj same).symm, fun same => congrArg _ same.symm⟩

/-- The notes can be put together again when the recipient of each is there. -/
theorem exists_ownNotes {request : FullTransactionRequest}
    (keyed : ∀ (digest : Word) (recipient : NoteRecipient),
      request.expectedOutputRecipients[digest]? = some recipient → recipient.digest = digest)
    {notes : List PartialNote}
    (present : ∀ note ∈ notes, (request.expectedOutputRecipients[note.recipientDigest]?).isSome) :
    ∃ made, notes.mapM request.ownNote = .ok made ∧ made.map Note.toPartial = notes := by
  induction notes with
  | nil => exact ⟨[], rfl, rfl⟩
  | cons note rest inductionHypothesis =>
    obtain ⟨here, later⟩ := List.forall_mem_cons.mp present
    obtain ⟨recipient, found⟩ := Option.isSome_iff_exists.mp here
    obtain ⟨others, restMade, same⟩ := inductionHypothesis later
    refine ⟨⟨⟨note.assets, recipient⟩, note.metadata⟩ :: others, ?_, ?_⟩
    · rw [List.mapM_cons]
      exact Fallible.bind_eq_ok.mpr ⟨_, ownNote_eq_ok.mpr ⟨recipient, found, rfl⟩,
        Fallible.bind_eq_ok.mpr ⟨others, restMade, rfl⟩⟩
    · rw [List.map_cons, same]
      unfold Note.toPartial
      rw [keyed note.recipientDigest recipient found]

/-- A request that is built has the own output notes at hand exactly when no call takes their
recipients away, and its input notes are always distinct and listed like their arguments. -/
theorem build_consistent_iff {calls : List Call} {request : FullTransactionRequest}
    (built : (run calls).build = .ok request) :
    Consistent request (ownNotes calls) ↔ RecipientsKept calls := by
  obtain ⟨distinct, template, inputNotes, inputNotesArgs, recipients, _⟩ :=
    build_eq_ok (run calls) built
  have paired := paired_run calls
  unfold Paired at paired
  rw [← inputNotes, ← inputNotesArgs] at paired
  rw [← inputNotesArgs, paired] at distinct
  have keyed := keyed_run calls
  unfold Keyed at keyed
  rw [← recipients] at keyed
  rw [← provide_ownNotes_iff]
  constructor
  · intro consistent note own
    obtain ⟨recipient, found, _⟩ := consistent.recipients note own
    rw [← recipients_run, ← recipients, found]
    rfl
  · intro provided
    have present : ∀ note ∈ ownNotes calls,
        (request.expectedOutputRecipients[note.details.recipient.digest]?).isSome = true := by
      intro note own
      rw [recipients, recipients_run]
      exact provided note own
    refine ⟨fun note own => ?_, ?_, distinct, paired⟩
    · obtain ⟨recipient, found⟩ := Option.isSome_iff_exists.mp (present note own)
      exact ⟨recipient, found, keyed _ recipient found⟩
    · rw [← ownOutputNotes_run]
      unfold FullTransactionRequest.expectedOutputOwnNotes
      rcases scriptTemplate_eq template with ⟨none, other⟩ | send
      · refine ⟨[], ?_, by rw [none]⟩
        split
        · rename_i notes same
          exact absurd same (other notes)
        · rfl
      · rw [send]
        refine exists_ownNotes keyed fun note listed => ?_
        obtain ⟨own, member, rfl⟩ := List.mem_map.mp listed
        exact present own (ownOutputNotes_run calls ▸ member)

end TransactionRequestBuilder

namespace Sample

open TransactionRequestBuilder

/-- Scripts and accounts are known by a word, and a Merkle store is the list of its nodes. -/
scoped instance requestLibrary : RequestLibrary where
  TransactionScript := Word
  NoteScript := Word
  PartialAccount := AccountId
  MerkleStore := List (Word × Word × Word)
  partialAccountId account := account
  emptyMerkleStore := []
  extendMerkleStore store nodes := store ++ nodes

/-- A note without assets. -/
def emptyNote : Note :=
  ⟨⟨[], ⟨7, 8, 9⟩⟩, ⟨2, .isPublic, 3, 0⟩⟩

/-- A note is to be created, and other recipients are expected after that. -/
def expectedLast : List Call :=
  [.ownOutputNotes [emptyNote], .expectedOutputRecipients [⟨1, 8, 9⟩]]

/-- The recipient of the note is expected again with the other one, and a note is consumed. -/
def expectedAgain : List Call :=
  [.ownOutputNotes [emptyNote], .expectedOutputRecipients [⟨1, 8, 9⟩, ⟨7, 8, 9⟩],
    .inputNotes [(⟨⟨[], ⟨4, 8, 9⟩⟩, ⟨2, .isPublic, 3, 0⟩⟩, some 6)]]

/-- The recipients that replace that of the note include it. -/
theorem expectedAgain_kept : RecipientsKept expectedAgain := by
  refine ⟨fun note own _ => ?_, fun _ absent => absurd absent List.not_mem_nil,
    fun _ absent => absurd absent List.not_mem_nil, trivial⟩
  obtain rfl := List.mem_singleton.mp own
  refine Or.inr ⟨⟨⟨7, 8, 9⟩, List.mem_cons_of_mem _ List.mem_cons_self, rfl⟩, ?_⟩
  intro later listed replaces
  obtain rfl := List.mem_singleton.mp listed
  exact replaces

theorem build_consistent_expectedAgain : ∃ request, (run expectedAgain).build = .ok request ∧
    Consistent request [emptyNote] := by
  obtain ⟨request, built⟩ : ∃ request, (run expectedAgain).build = .ok request := ⟨_, rfl⟩
  exact ⟨request, built, (build_consistent_iff built).mpr expectedAgain_kept⟩

/-- The recipient of the note is lost, and the lookup of it panics. -/
theorem build_not_consistent_expectedLast : ∃ request, (run expectedLast).build = .ok request ∧
    ¬ Consistent request [emptyNote] ∧ request.expectedOutputOwnNotes =
      .error (.panicked "Recipient should be included if it's an own note") := by
  obtain ⟨request, built⟩ : ∃ request, (run expectedLast).build = .ok request := ⟨_, rfl⟩
  obtain ⟨_, template, _, _, recipients, _⟩ := build_eq_ok (run expectedLast) built
  have lost : request.expectedOutputRecipients[emptyNote.details.recipient.digest]? = none := by
    rw [recipients]
    refine Option.not_isSome_iff_eq_none.mp fun present => ?_
    rcases (recipients_run expectedLast _).mp present with (later | ⟨provided, _⟩) | ⟨_, keep⟩
    · exact later
    · obtain ⟨recipient, listed, same⟩ := provided
      obtain rfl := List.mem_singleton.mp listed
      exact absurd same (by decide)
    · exact keep _ List.mem_cons_self trivial
  have send : some (.sendNotes [emptyNote.toPartial]) = request.scriptTemplate :=
    Except.ok.inj template
  refine ⟨request, built, fun consistent => ?_, ?_⟩
  · obtain ⟨recipient, found, _⟩ := consistent.recipients emptyNote List.mem_cons_self
    rw [lost] at found
    cases found
  · have failed : request.ownNote emptyNote.toPartial =
        .error (.panicked "Recipient should be included if it's an own note") := by
      unfold FullTransactionRequest.ownNote
      show expect _ request.expectedOutputRecipients[emptyNote.details.recipient.digest]? >>= _ = _
      rw [lost]
      rfl
    unfold FullTransactionRequest.expectedOutputOwnNotes
    rw [← send]
    show [emptyNote.toPartial].mapM request.ownNote = _
    rw [List.mapM_cons, failed]
    rfl

end Sample

end MidenClient
