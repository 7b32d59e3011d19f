/-
This file models the note data the client keeps: details, metadata, inclusion proofs and
the block headers that verify them.

A note script and its storage only ever enter the client's logic through their
commitments, so a recipient is the three words its digest is computed from. The hash
functions and the check of an inclusion path belong to the protocol library and are
taken as a class of functions.
-/

import MidenClient.Account

namespace MidenClient

/-- A tag by which the node filters the notes it returns. -/
abbrev NoteTag := ℕ

inductive NoteType where
  | isPrivate
  | isPublic
  deriving DecidableEq, Repr

/-- What is known of a note besides its details. -/
structure NoteMetadata where
  sender : AccountId
  noteType : NoteType
  tag : NoteTag
  attachment : Word
  deriving DecidableEq, Repr

/-- The recipient of a note, with its script and storage given by their commitments. -/
structure NoteRecipient where
  serialNum : Word
  scriptRoot : Word
  storageCommitment : Word
  deriving DecidableEq, Repr

/-- The details needed to consume a note. -/
structure NoteDetails where
  assets : List Asset
  recipient : NoteRecipient
  deriving DecidableEq, Repr

/-- A full note. -/
structure Note where
  details : NoteDetails
  metadata : NoteMetadata
  deriving DecidableEq, Repr

/-- The position of a note in the note tree of a block, with the path to the root. -/
structure NoteInclusionProof where
  blockNum : BlockNumber
  blockNoteTreeIndex : ℕ
  notePath : List Word
  deriving DecidableEq, Repr

/-- The parts of a block header that a note or a transaction is checked against. -/
structure BlockHeader where
  blockNum : BlockNumber
  noteRoot : Word
  timestamp : ℕ
  deriving DecidableEq, Repr

/-- What the client uses of the protocol library for notes. -/
class NoteLibrary where
  /-- `NoteAssets::commitment`. -/
  assetsCommitment : List Asset → Word
  /-- The digest of a recipient, from its serial number, script root and storage. -/
  recipientDigest : Word → Word → Word → Word
  /-- `NoteId::new`, from the recipient digest and the assets commitment. -/
  noteId : Word → Word → NoteId
  /-- `Nullifier::new`, from script root, storage, assets commitment and serial number. -/
  nullifier : Word → Word → Word → Word → Nullifier
  /-- `compute_note_commitment`. -/
  noteCommitment : NoteId → NoteMetadata → Word
  /-- Whether the path leads from the commitment at the index to the root. -/
  verifyPath : List Word → ℕ → Word → Word → Bool

section Identity

variable [NoteLibrary]

def NoteRecipient.digest (recipient : NoteRecipient) : Word :=
  NoteLibrary.recipientDigest recipient.serialNum recipient.scriptRoot
    recipient.storageCommitment

namespace NoteDetails

def id (details : NoteDetails) : NoteId :=
  NoteLibrary.noteId details.recipient.digest (NoteLibrary.assetsCommitment details.assets)

def nullifier (details : NoteDetails) : Nullifier :=
  NoteLibrary.nullifier details.recipient.scriptRoot details.recipient.storageCommitment
    (NoteLibrary.assetsCommitment details.assets) details.recipient.serialNum

end NoteDetails

namespace Note

def id (note : Note) : NoteId :=
  note.details.id

def nullifier (note : Note) : Nullifier :=
  note.details.nullifier

end Note

/-- The proof places the note with this id and metadata under the root. -/
def NoteInclusionProof.verifies (proof : NoteInclusionProof) (noteId : NoteId)
    (metadata : NoteMetadata) (noteRoot : Word) : Bool :=
  NoteLibrary.verifyPath proof.notePath proof.blockNoteTreeIndex
    (NoteLibrary.noteCommitment noteId metadata) noteRoot

/-- Nullifiers are collision free: each one determines the words it is computed from. -/
def NullifierCollisionFree : Prop :=
  ∀ {script storage assets serial script' storage' assets' serial' : Word},
    NoteLibrary.nullifier script storage assets serial =
        NoteLibrary.nullifier script' storage' assets' serial' →
      script = script' ∧ storage = storage' ∧ assets = assets' ∧ serial = serial'

/-- Notes with one nullifier have one id, since both come from the same four words. -/
theorem NullifierCollisionFree.id_eq (collisionFree : NullifierCollisionFree)
    {first second : NoteDetails} (same : first.nullifier = second.nullifier) :
    first.id = second.id := by
  obtain ⟨script, storage, assets, serial⟩ := collisionFree same
  unfold NoteDetails.id NoteRecipient.digest
  rw [script, storage, assets, serial]

/-- Note ids are collision free: each one determines the words it is computed from. -/
structure NoteIdCollisionFree : Prop where
  noteId : ∀ {recipient assets recipient' assets' : Word},
    NoteLibrary.noteId recipient assets = NoteLibrary.noteId recipient' assets' →
      recipient = recipient' ∧ assets = assets'
  recipientDigest : ∀ {serial script storage serial' script' storage' : Word},
    NoteLibrary.recipientDigest serial script storage =
        NoteLibrary.recipientDigest serial' script' storage' →
      serial = serial' ∧ script = script' ∧ storage = storage'

/-- Notes with one id have one nullifier. -/
theorem NoteIdCollisionFree.nullifier_eq (collisionFree : NoteIdCollisionFree)
    {first second : NoteDetails} (same : first.id = second.id) :
    first.nullifier = second.nullifier := by
  obtain ⟨recipient, assets⟩ := collisionFree.noteId same
  obtain ⟨serial, script, storage⟩ := collisionFree.recipientDigest recipient
  unfold NoteDetails.nullifier
  rw [script, storage, assets, serial]

end Identity

namespace Sample

/-- Digests that pair up what they commit to; a path is valid when it ends in the root. -/
scoped instance noteLibrary : NoteLibrary where
  assetsCommitment assets := assets.length
  recipientDigest serial script storage := Nat.pair serial (Nat.pair script storage)
  noteId recipient assets := Nat.pair recipient assets
  nullifier script storage assets serial :=
    Nat.pair script (Nat.pair storage (Nat.pair assets serial))
  noteCommitment noteId metadata := Nat.pair noteId metadata.tag
  verifyPath path _ _ root := path.getLast? = some root

theorem nullifierCollisionFree : NullifierCollisionFree := by
  intro script storage assets serial script' storage' assets' serial' same
  obtain ⟨scripts, same⟩ := Nat.pair_eq_pair.mp same
  obtain ⟨storages, same⟩ := Nat.pair_eq_pair.mp same
  obtain ⟨assets, serials⟩ := Nat.pair_eq_pair.mp same
  exact ⟨scripts, storages, assets, serials⟩

theorem noteIdCollisionFree : NoteIdCollisionFree where
  noteId same := Nat.pair_eq_pair.mp same
  recipientDigest same := by
    obtain ⟨serials, same⟩ := Nat.pair_eq_pair.mp same
    obtain ⟨scripts, storages⟩ := Nat.pair_eq_pair.mp same
    exact ⟨serials, scripts, storages⟩

end Sample

end MidenClient
