/-
This file fixes the codecs of the protocol library and of the standard library that the
encodings of the client are made of.

Each type has its own codec, also where two types are numbers in this model, so that a field
can only be read by the codec it was written with. All that is known of a codec is that it
reads back what it writes.
-/

import MidenClient.Library.Codec
import MidenClient.Store.NoteRecord

namespace MidenClient

open Std (ExtTreeMap)
open Codecs

/-- The codecs that the encodings of the client are made of. -/
class ProtocolCodecs where
  /-- `write_usize`. -/
  lengths : Codec ℕ
  u16 : Codec ℕ
  u32 : Codec ℕ
  u64 : Codec ℕ
  word : Codec Word
  blockNumber : Codec BlockNumber
  accountId : Codec AccountId
  transactionId : Codec TransactionId
  noteId : Codec NoteId
  noteTag : Codec NoteTag
  noteRecipient : Codec NoteRecipient
  noteDetails : Codec NoteDetails
  noteMetadata : Codec NoteMetadata
  noteInclusionProof : Codec NoteInclusionProof
  note : Codec Note
  partialNote : Codec PartialNote
  rawOutputNotes : Codec (List RawOutputNote)
  adviceMap : Codec (ExtTreeMap Word (List ℕ))

namespace Sample

open Codec

def recipientCodec : Codec NoteRecipient :=
  ofLeftInverse (pair unary (pair unary unary))
    (fun recipient => (recipient.serialNum, recipient.scriptRoot, recipient.storageCommitment))
    (fun parts => ⟨parts.1, parts.2.1, parts.2.2⟩) fun _ => rfl

/-- An asset of a faucet, or one without an amount. -/
def assetCodec : Codec Asset :=
  ofLeftInverse (pair unary (option unary))
    (fun asset => match asset with
      | .fungible asset => (asset.faucetId, some asset.amount)
      | .nonFungible asset => (asset, none))
    (fun parts => match parts with
      | (faucetId, some amount) => .fungible ⟨faucetId, amount⟩
      | (asset, none) => .nonFungible asset)
    fun asset => by cases asset <;> rfl

def detailsCodec : Codec NoteDetails :=
  ofLeftInverse (pair (list unary assetCodec) recipientCodec)
    (fun details => (details.assets, details.recipient)) (fun parts => ⟨parts.1, parts.2⟩)
    fun _ => rfl

def noteTypeCodec : Codec NoteType :=
  ofLeftInverse bool (fun noteType => noteType = .isPublic)
    (fun isPublic => if isPublic then .isPublic else .isPrivate) fun noteType => by
      cases noteType <;> rfl

def metadataCodec : Codec NoteMetadata :=
  ofLeftInverse (pair unary (pair noteTypeCodec (pair unary unary)))
    (fun metadata => (metadata.sender, metadata.noteType, metadata.tag, metadata.attachment))
    (fun parts => ⟨parts.1, parts.2.1, parts.2.2.1, parts.2.2.2⟩) fun _ => rfl

def inclusionProofCodec : Codec NoteInclusionProof :=
  ofLeftInverse (pair unary (pair unary (list unary unary)))
    (fun proof => (proof.blockNum, proof.blockNoteTreeIndex, proof.notePath))
    (fun parts => ⟨parts.1, parts.2.1, parts.2.2⟩) fun _ => rfl

def noteCodec : Codec Note :=
  ofLeftInverse (pair detailsCodec metadataCodec) (fun note => (note.details, note.metadata))
    (fun parts => ⟨parts.1, parts.2⟩) fun _ => rfl

def partialNoteCodec : Codec PartialNote :=
  ofLeftInverse (pair unary (pair (list unary assetCodec) metadataCodec))
    (fun note => (note.recipientDigest, note.assets, note.metadata))
    (fun parts => ⟨parts.1, parts.2.1, parts.2.2⟩) fun _ => rfl

/-- A full note, or the parts of one. -/
def rawOutputNoteCodec : Codec RawOutputNote :=
  ofLeftInverse (pair (option noteCodec) (option partialNoteCodec))
    (fun note => match note with
      | .full note => (some note, none)
      | .partialNote note => (none, some note))
    (fun parts => match parts with
      | (some note, _) => .full note
      | (none, some note) => .partialNote note
      | (none, none) => .partialNote ⟨0, [], ⟨0, .isPrivate, 0, 0⟩⟩)
    fun note => by cases note <;> rfl

/-- Codecs that write every number as so many bytes. -/
scoped instance protocolCodecs : ProtocolCodecs where
  lengths := unary
  u16 := unary
  u32 := unary
  u64 := unary
  word := unary
  blockNumber := unary
  accountId := unary
  transactionId := unary
  noteId := unary
  noteTag := unary
  noteRecipient := recipientCodec
  noteDetails := detailsCodec
  noteMetadata := metadataCodec
  noteInclusionProof := inclusionProofCodec
  note := noteCodec
  partialNote := partialNoteCodec
  rawOutputNotes := list unary rawOutputNoteCodec
  adviceMap := map unary unary (list unary unary)

end Sample

end MidenClient
