/-
This file gives the rules for strings as the arrays of their bytes in UTF-8: cutting one at
an index, which panics inside a character, and searching it from either end.

An index is safe when a search for ASCII characters found it. An ASCII byte is a character
of its own, so it can be cut off in front, and behind it the next character begins. A search
result is used through the parts it cuts the text into.
-/

import MidenClient.Library.Panic

namespace ByteText

open Panicking

/-- Characters in UTF-8. -/
def encode (characters : List Char) : List ℕ :=
  characters.flatMap fun character => (String.utf8EncodeChar character).map UInt8.toNat

/-- The bytes of a string. -/
def bytes (string : String) : List ℕ :=
  encode string.toList

theorem bytes_append (first second : String) :
    bytes (first ++ second) = bytes first ++ bytes second := by
  unfold bytes encode
  rw [String.toList_append, List.flatMap_append]

/-! ### Where characters begin -/

/-- No character begins with a continuation byte. -/
def isFirstByte (byte : ℕ) : Bool :=
  byte < 128 || 192 ≤ byte

/-- A character begins at the index, or the text ends there. -/
def isCharBoundary (text : List ℕ) (index : ℕ) : Bool :=
  index = 0 || index = text.length || text[index]?.any isFirstByte

/-- The text is empty or begins with a character. -/
def StartsChar (text : List ℕ) : Prop :=
  ∀ byte ∈ text.head?, isFirstByte byte = true

theorem startsChar_cons {byte : ℕ} {rest : List ℕ} :
    StartsChar (byte :: rest) ↔ isFirstByte byte = true :=
  ⟨fun starts => starts byte rfl, fun first _ same => Option.some.inj same ▸ first⟩

theorem StartsChar.of_append {first second : List ℕ} (starts : StartsChar (first ++ second)) :
    StartsChar first := by
  cases first with
  | nil => exact fun _ absent => (nomatch absent)
  | cons byte rest => exact startsChar_cons.mpr (startsChar_cons.mp starts)

theorem isFirstByte_of_ascii {byte : ℕ} (ascii : byte < 128) : isFirstByte byte = true := by
  unfold isFirstByte
  rw [decide_eq_true ascii]
  rfl

/-- Behind an ASCII byte a character begins. -/
def BreaksAfterAscii (text : List ℕ) : Prop :=
  text.IsChain fun byte next => byte < 128 → isFirstByte next = true

/-- A character begins with a first byte, and only one of a single byte is ASCII. -/
theorem encoded_char (character : Char) :
    StartsChar ((String.utf8EncodeChar character).map UInt8.toNat) ∧
      BreaksAfterAscii ((String.utf8EncodeChar character).map UInt8.toNat) := by
  unfold String.utf8EncodeChar
  dsimp only
  split_ifs with one two three
  · refine ⟨startsChar_cons.mpr (isFirstByte_of_ascii ?_), List.isChain_singleton _⟩
    rw [UInt8.toNat_ofNat']
    omega
  all_goals
    refine ⟨startsChar_cons.mpr ?_, ?_⟩
    · simp only [isFirstByte, UInt8.toNat_ofNat', Bool.or_eq_true, decide_eq_true_eq]
      omega
    · simp only [BreaksAfterAscii, List.map_cons, List.map_nil, List.isChain_cons_cons,
        UInt8.toNat_ofNat', List.isChain_singleton, and_true]
      omega

theorem encoded_chars (characters : List Char) :
    StartsChar (encode characters) ∧ BreaksAfterAscii (encode characters) := by
  induction characters with
  | nil => exact ⟨fun _ absent => (nomatch absent), List.isChain_nil⟩
  | cons character rest inductionHypothesis =>
    obtain ⟨restStarts, restBreaks⟩ := inductionHypothesis
    obtain ⟨starts, breaks⟩ := encoded_char character
    rw [encode, List.flatMap_cons]
    constructor
    · obtain ⟨byte, others, encoded⟩ :=
        List.exists_cons_of_ne_nil (String.utf8EncodeChar_ne_nil (c := character))
      rw [encoded] at starts ⊢
      exact startsChar_cons.mpr (startsChar_cons.mp starts)
    · refine List.isChain_append.mpr ⟨breaks, restBreaks, ?_⟩
      exact fun _ _ next first _ => restStarts next first

/-- In a string, the text behind an ASCII byte begins with a character. -/
theorem startsChar_after_ascii {string : String} {before after : List ℕ} {byte : ℕ}
    (split : bytes string = before ++ byte :: after) (ascii : byte < 128) : StartsChar after := by
  have breaks := (encoded_chars string.toList).2
  rw [show encode string.toList = before ++ byte :: after from split] at breaks
  have behind := (List.isChain_append.mp breaks).2.1
  exact fun next first => (List.isChain_cons.mp behind).1 next first ascii

/-! ### Slices -/

section Slices

variable {ε : Type}

/-- `&text[..index]` -/
def sliceTo (text : List ℕ) (index : ℕ) : Except (Failure ε) (List ℕ) :=
  if isCharBoundary text index then .ok (text.take index)
  else .error (.panicked "byte index is not a char boundary")

/-- `&text[index..]` -/
def sliceFrom (text : List ℕ) (index : ℕ) : Except (Failure ε) (List ℕ) :=
  if isCharBoundary text index then .ok (text.drop index)
  else .error (.panicked "byte index is not a char boundary")

/-- `text.split_at(index)` -/
def splitAt (text : List ℕ) (index : ℕ) : Except (Failure ε) (List ℕ × List ℕ) :=
  if isCharBoundary text index then .ok (text.take index, text.drop index)
  else .error (.panicked "failed to slice string")

/-- A text can be cut where a character begins. -/
theorem isCharBoundary_append {before after : List ℕ} (starts : StartsChar after) :
    isCharBoundary (before ++ after) before.length = true := by
  unfold isCharBoundary
  cases after with
  | nil => simp
  | cons byte rest => simp [startsChar_cons.mp starts]

theorem sliceFrom_append {before after : List ℕ} (starts : StartsChar after) :
    (sliceFrom (before ++ after) before.length : Except (Failure ε) (List ℕ)) = .ok after := by
  unfold sliceFrom
  rw [if_pos (isCharBoundary_append starts), List.drop_left]

theorem splitAt_append {before after : List ℕ} (starts : StartsChar after) :
    (splitAt (before ++ after) before.length : Except (Failure ε) (List ℕ × List ℕ)) =
      .ok (before, after) := by
  unfold splitAt
  rw [if_pos (isCharBoundary_append starts), List.take_left, List.drop_left]

/-- A text can be cut at its end. -/
theorem sliceTo_length {text : List ℕ} {index : ℕ} (length : text.length = index) :
    (sliceTo text index : Except (Failure ε) (List ℕ)) = .ok text := by
  subst length
  unfold sliceTo isCharBoundary
  rw [if_pos (by simp), List.take_length]

end Slices

/-! ### Searching -/

/-- The first index at which a pattern occurs. -/
def find (pattern : List ℕ) : List ℕ → Option ℕ
  | [] => if pattern = [] then some 0 else none
  | byte :: rest =>
    if pattern <+: byte :: rest then some 0 else (find pattern rest).map (· + 1)

/-- The last index of a byte. -/
def rfind (target : ℕ) : List ℕ → Option ℕ
  | [] => none
  | byte :: rest =>
    match rfind target rest with
    | some index => some (index + 1)
    | none => if byte = target then some 0 else none

/-- The text without the bytes at its end that equal the given one. -/
def trimEndMatches (target : ℕ) (text : List ℕ) : List ℕ :=
  text.rdropWhile (· == target)

theorem find_cons_skip {pattern rest : List ℕ} {byte : ℕ}
    (differs : ¬ pattern <+: byte :: rest) :
    find pattern (byte :: rest) = (find pattern rest).map (· + 1) :=
  if_neg differs

/-- What is found is an occurrence. -/
theorem find_eq_some {pattern text : List ℕ} {index : ℕ} (found : find pattern text = some index) :
    ∃ before after, text = before ++ (pattern ++ after) ∧ before.length = index := by
  induction text generalizing index with
  | nil =>
    by_cases empty : pattern = []
    · subst empty
      cases found
      exact ⟨[], [], rfl, rfl⟩
    · rw [find, if_neg empty] at found
      cases found
  | cons byte rest inductionHypothesis =>
    by_cases here : pattern <+: byte :: rest
    · rw [find, if_pos here] at found
      cases found
      obtain ⟨after, split⟩ := here
      exact ⟨[], after, split.symm, rfl⟩
    · rw [find_cons_skip here] at found
      obtain ⟨next, later, rfl⟩ := Option.map_eq_some_iff.mp found
      obtain ⟨before, after, rfl, rfl⟩ := inductionHypothesis later
      exact ⟨byte :: before, after, rfl, rfl⟩

/-- A pattern that is not found does not occur. -/
theorem find_eq_none {pattern text : List ℕ} (absent : find pattern text = none)
    (before after : List ℕ) : text ≠ before ++ (pattern ++ after) := by
  induction text generalizing before with
  | nil =>
    intro split
    obtain ⟨_, rest⟩ := List.append_eq_nil_iff.mp split.symm
    obtain ⟨empty, _⟩ := List.append_eq_nil_iff.mp rest
    rw [find, if_pos empty] at absent
    cases absent
  | cons byte rest inductionHypothesis =>
    by_cases here : pattern <+: byte :: rest
    · rw [find, if_pos here] at absent
      cases absent
    · rw [find_cons_skip here] at absent
      intro split
      cases before with
      | nil => exact here ⟨after, split.symm⟩
      | cons first before =>
        exact inductionHypothesis (Option.map_eq_none_iff.mp absent) before (List.cons.inj split).2

theorem find_eq_none_iff {pattern text : List ℕ} :
    find pattern text = none ↔ ∀ before after, text ≠ before ++ (pattern ++ after) := by
  refine ⟨find_eq_none, fun absent => ?_⟩
  cases found : find pattern text with
  | none => rfl
  | some index =>
    obtain ⟨before, after, split, _⟩ := find_eq_some found
    exact absurd split (absent before after)

/-- Without one of its bytes, a pattern does not occur. -/
theorem find_eq_none_of_not_mem {pattern text : List ℕ} {byte : ℕ} (member : byte ∈ pattern)
    (absent : byte ∉ text) : find pattern text = none := by
  refine find_eq_none_iff.mpr fun before after split => absent ?_
  rw [split]
  exact List.mem_append_right before (List.mem_append_left after member)

/-- Where a pattern occurs first is decided by the text up to the end of that occurrence. -/
theorem find_append_iff {pattern before after : List ℕ} (nonempty : pattern ≠ []) :
    find pattern (before ++ (pattern ++ after)) = some before.length ↔
      find pattern (before ++ pattern) = some before.length := by
  induction before with
  | nil =>
    obtain ⟨byte, rest, rfl⟩ := List.exists_cons_of_ne_nil nonempty
    have here : byte :: rest <+: byte :: (rest ++ after) := List.prefix_append (byte :: rest) after
    have alone : byte :: rest <+: byte :: rest := List.prefix_refl (byte :: rest)
    simp only [List.nil_append, List.cons_append, List.length_nil, find, if_pos here, if_pos alone]
  | cons byte before inductionHypothesis =>
    have samePrefix : pattern <+: byte :: (before ++ (pattern ++ after)) ↔
        pattern <+: byte :: (before ++ pattern) := by
      have assoc :
          byte :: (before ++ (pattern ++ after)) = byte :: (before ++ pattern) ++ after := by
        rw [List.cons_append, List.append_assoc]
      rw [assoc]
      refine ⟨fun occurs => ?_, fun occurs => occurs.trans (List.prefix_append _ _)⟩
      refine List.prefix_of_prefix_length_le occurs (List.prefix_append _ _) ?_
      rw [List.length_cons, List.length_append]
      omega
    have shifted : ∀ found : Option ℕ,
        found.map (· + 1) = some (before.length + 1) ↔ found = some before.length := by
      intro found
      cases found with
      | none => exact ⟨fun same => (nomatch same), fun same => (nomatch same)⟩
      | some index => simp
    rw [List.cons_append, List.cons_append, find, find, List.length_cons]
    by_cases here : pattern <+: byte :: (before ++ pattern)
    · rw [if_pos (samePrefix.mpr here), if_pos here]
    · rw [if_neg fun occurs => here (samePrefix.mp occurs), if_neg here, shifted, shifted]
      exact inductionHypothesis

theorem rfind_eq_none_iff {target : ℕ} {text : List ℕ} :
    rfind target text = none ↔ target ∉ text := by
  induction text with
  | nil => exact ⟨fun _ => List.not_mem_nil, fun _ => rfl⟩
  | cons byte rest inductionHypothesis =>
    rw [List.mem_cons, not_or, ← inductionHypothesis, rfind]
    cases later : rfind target rest with
    | some index => exact ⟨fun same => (nomatch same), fun both => (nomatch both.2)⟩
    | none =>
      dsimp only
      split_ifs with same
      · exact ⟨fun found => (nomatch found), fun both => absurd same.symm both.1⟩
      · exact ⟨fun _ => ⟨fun other => same other.symm, rfl⟩, fun _ => rfl⟩

/-- The last occurrence of a byte is the one behind which there is no other. -/
theorem rfind_append {target : ℕ} {before after : List ℕ} (absent : target ∉ after) :
    rfind target (before ++ target :: after) = some before.length := by
  induction before with
  | nil =>
    rw [List.nil_append, rfind, rfind_eq_none_iff.mpr absent]
    exact if_pos rfl
  | cons byte before inductionHypothesis =>
    rw [List.cons_append, rfind, inductionHypothesis]
    rfl

theorem rfind_eq_some {target index : ℕ} {text : List ℕ} (found : rfind target text = some index) :
    ∃ before after, text = before ++ target :: after ∧ before.length = index ∧ target ∉ after := by
  have member : target ∈ text := by
    by_contra absent
    rw [rfind_eq_none_iff.mpr absent] at found
    cases found
  have reversed : target ∈ text.reverse := List.mem_reverse.mpr member
  obtain ⟨after, before, split, absent⟩ := List.eq_append_cons_of_mem reversed
  have parts : text = before.reverse ++ target :: after.reverse := by
    have back := congrArg List.reverse split
    rw [List.reverse_reverse, List.reverse_append, List.reverse_cons, List.append_assoc] at back
    exact back
  have notAfter : target ∉ after.reverse := fun other => absent (List.mem_reverse.mp other)
  refine ⟨before.reverse, after.reverse, parts, ?_, notAfter⟩
  rw [parts, rfind_append notAfter] at found
  exact Option.some.inj found

theorem trimEndMatches_append (target : ℕ) (text : List ℕ) :
    trimEndMatches target (text ++ [target]) = trimEndMatches target text :=
  List.rdropWhile_concat_pos _ _ _ (beq_self_eq_true target)

/-- A text without the byte is not trimmed. -/
theorem trimEndMatches_of_not_mem {target : ℕ} {text : List ℕ} (absent : target ∉ text) :
    trimEndMatches target text = text := by
  refine List.rdropWhile_eq_self_iff.mpr fun nonempty same => absent ?_
  rw [← eq_of_beq same]
  exact List.getLast_mem nonempty

end ByteText
