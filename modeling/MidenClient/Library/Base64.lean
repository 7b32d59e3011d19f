/-
This file gives the base64 texts of bytes as browsers write and read them (`btoa` and
`atob`). Three bytes are four digits of six bits. The writer pads the last group, and the
reader forgives whitespace and missing padding.

Reading what was written gives the bytes back, which is all that is needed of the format.
-/

import Mathlib.Data.List.Basic
import Mathlib.Data.List.Infix

namespace Base64

/-- The characters of the digits. -/
def alphabet : List Char :=
  "ABCDEFGHIJKLMNOPQRSTUVWXYZabcdefghijklmnopqrstuvwxyz0123456789+/".toList

def charOf (digit : ℕ) : Char :=
  alphabet.getD digit '='

def digitOf (character : Char) : Option ℕ :=
  alphabet.idxOf? character

/-! ### Writing -/

/-- The digits of some bytes, high bits first. -/
def encodeDigits : List UInt8 → List ℕ
  | [] => []
  | [first] => [first.toNat / 4, first.toNat % 4 * 16]
  | [first, second] =>
    [first.toNat / 4, first.toNat % 4 * 16 + second.toNat / 16, second.toNat % 16 * 4]
  | first :: second :: third :: rest =>
    first.toNat / 4 :: (first.toNat % 4 * 16 + second.toNat / 16) ::
      (second.toNat % 16 * 4 + third.toNat / 64) :: third.toNat % 64 :: encodeDigits rest

/-- The number of padding characters behind the digits of so many bytes. -/
def padding (length : ℕ) : ℕ :=
  (3 - length % 3) % 3

/-- `btoa` of the string whose characters have the codes of the bytes. -/
def btoa (bytes : List UInt8) : String :=
  String.ofList ((encodeDigits bytes).map charOf ++ List.replicate (padding bytes.length) '=')

/-! ### Reading -/

def isWhitespace (character : Char) : Bool :=
  character ∈ ['\t', '\n', '\x0c', '\r', ' ']

/-- Removes a padding character from the end, if there is one. -/
def dropPad (data : List Char) : List Char :=
  if data.getLast? = some '=' then data.dropLast else data

/-- The bytes of some digits. Bits that do not fill a byte are dropped. -/
def decodeDigits : List ℕ → List UInt8
  | first :: second :: third :: fourth :: rest =>
    .ofNat (first * 4 + second / 16) :: .ofNat (second % 16 * 16 + third / 4) ::
      .ofNat (third % 4 * 64 + fourth) :: decodeDigits rest
  | [first, second, third] =>
    [.ofNat (first * 4 + second / 16), .ofNat (second % 16 * 16 + third / 4)]
  | [first, second] => [.ofNat (first * 4 + second / 16)]
  | _ => []

/-- `atob`, with the characters of its result as bytes. It throws where this gives nothing. -/
def atob (text : String) : Option (List UInt8) :=
  let data := text.toList.filter fun character => !isWhitespace character
  let digits := if data.length % 4 = 0 then dropPad (dropPad data) else data
  if digits.length % 4 = 1 then none
  else (digits.mapM digitOf).map decodeDigits

/-! ### Reading what was written -/

theorem digitOf_charOf {digit : ℕ} (small : digit < 64) :
    digitOf (charOf digit) = some digit := by
  have every : ∀ digit < 64, digitOf (charOf digit) = some digit := by decide +kernel
  exact every digit small

/-- The character of a digit is no whitespace, and no padding. -/
theorem charOf_plain {digit : ℕ} (small : digit < 64) :
    isWhitespace (charOf digit) = false ∧ charOf digit ≠ '=' := by
  have every : ∀ digit < 64, isWhitespace (charOf digit) = false ∧ charOf digit ≠ '=' := by
    decide +kernel
  exact every digit small

theorem encodeDigits_lt (bytes : List UInt8) : ∀ digit ∈ encodeDigits bytes, digit < 64 := by
  induction bytes using encodeDigits.induct with
  | case1 => exact fun _ absent => absurd absent List.not_mem_nil
  | case2 first =>
    have bound := first.toNat_lt
    simp only [encodeDigits, List.forall_mem_cons]
    exact ⟨by omega, by omega, fun _ absent => absurd absent List.not_mem_nil⟩
  | case3 first second =>
    have bound := first.toNat_lt
    have boundToo := second.toNat_lt
    simp only [encodeDigits, List.forall_mem_cons]
    exact ⟨by omega, by omega, by omega, fun _ absent => absurd absent List.not_mem_nil⟩
  | case4 first second third rest inductionHypothesis =>
    have bound := first.toNat_lt
    have boundToo := second.toNat_lt
    have lastBound := third.toNat_lt
    simp only [encodeDigits, List.forall_mem_cons]
    exact ⟨by omega, by omega, by omega, by omega, inductionHypothesis⟩

/-- The padding fills the last group. -/
theorem length_encodeDigits (bytes : List UInt8) :
    ((encodeDigits bytes).length + padding bytes.length) % 4 = 0 := by
  induction bytes using encodeDigits.induct with
  | case1 => rfl
  | case2 first => simp only [encodeDigits, padding, List.length_cons, List.length_nil]
  | case3 first second => simp only [encodeDigits, padding, List.length_cons, List.length_nil]
  | case4 first second third rest inductionHypothesis =>
    simp only [encodeDigits, padding, List.length_cons] at inductionHypothesis ⊢
    omega

theorem padding_le (length : ℕ) : padding length ≤ 2 :=
  Nat.le_of_lt_succ (Nat.mod_lt _ (by decide))

theorem ofNat_eq_of_toNat {byte : UInt8} {number : ℕ} (same : number = byte.toNat) :
    UInt8.ofNat number = byte := by
  rw [same, UInt8.ofNat_toNat]

theorem decodeDigits_encodeDigits (bytes : List UInt8) :
    decodeDigits (encodeDigits bytes) = bytes := by
  induction bytes using encodeDigits.induct with
  | case1 => rfl
  | case2 first =>
    have bound := first.toNat_lt
    have whole : UInt8.ofNat (first.toNat / 4 * 4 + first.toNat % 4 * 16 / 16) = first :=
      ofNat_eq_of_toNat (by omega)
    simp only [encodeDigits, decodeDigits, whole]
  | case3 first second =>
    have bound := second.toNat_lt
    have whole : UInt8.ofNat (first.toNat / 4 * 4 +
        (first.toNat % 4 * 16 + second.toNat / 16) / 16) = first := ofNat_eq_of_toNat (by omega)
    have next : UInt8.ofNat ((first.toNat % 4 * 16 + second.toNat / 16) % 16 * 16 +
        second.toNat % 16 * 4 / 4) = second := ofNat_eq_of_toNat (by omega)
    simp only [encodeDigits, decodeDigits, whole, next]
  | case4 first second third rest inductionHypothesis =>
    have bound := second.toNat_lt
    have lastBound := third.toNat_lt
    have whole : UInt8.ofNat (first.toNat / 4 * 4 +
        (first.toNat % 4 * 16 + second.toNat / 16) / 16) = first := ofNat_eq_of_toNat (by omega)
    have next : UInt8.ofNat ((first.toNat % 4 * 16 + second.toNat / 16) % 16 * 16 +
        (second.toNat % 16 * 4 + third.toNat / 64) / 4) = second := ofNat_eq_of_toNat (by omega)
    have last : UInt8.ofNat ((second.toNat % 16 * 4 + third.toNat / 64) % 4 * 64 +
        third.toNat % 64) = third := ofNat_eq_of_toNat (by omega)
    simp only [encodeDigits, decodeDigits, whole, next, last, inductionHypothesis]

theorem dropPad_concat (characters : List Char) : dropPad (characters ++ ['=']) = characters := by
  unfold dropPad
  rw [List.getLast?_concat, if_pos rfl, List.dropLast_concat]

theorem dropPad_of_plain {characters : List Char} (plain : ∀ one ∈ characters, one ≠ '=') :
    dropPad characters = characters := by
  refine if_neg fun last => ?_
  exact plain '=' (List.mem_of_getLast? last) rfl

/-- Just the padding is removed. -/
theorem dropPad_append {characters : List Char} (plain : ∀ one ∈ characters, one ≠ '=')
    {count : ℕ} (few : count ≤ 2) :
    dropPad (dropPad (characters ++ List.replicate count '=')) = characters := by
  obtain rfl | rfl | rfl : count = 0 ∨ count = 1 ∨ count = 2 := by omega
  · rw [List.replicate_zero, List.append_nil, dropPad_of_plain plain, dropPad_of_plain plain]
  · rw [List.replicate_one, dropPad_concat, dropPad_of_plain plain]
  · rw [List.replicate_succ', ← List.append_assoc, List.replicate_one, dropPad_concat,
      dropPad_concat]

theorem mapM_digitOf {digits : List ℕ} (small : ∀ digit ∈ digits, digit < 64) :
    (digits.map charOf).mapM digitOf = some digits := by
  induction digits with
  | nil => rfl
  | cons digit rest inductionHypothesis =>
    have ⟨first, others⟩ := List.forall_mem_cons.mp small
    rw [List.map_cons, List.mapM_cons, digitOf_charOf first, inductionHypothesis others]
    rfl

/-- Reading what was written gives the bytes back. -/
theorem atob_btoa (bytes : List UInt8) : atob (btoa bytes) = some bytes := by
  have small := encodeDigits_lt bytes
  have plain : ∀ one ∈ (encodeDigits bytes).map charOf, isWhitespace one = false ∧ one ≠ '=' := by
    intro one member
    obtain ⟨digit, listed, rfl⟩ := List.mem_map.mp member
    exact charOf_plain (small digit listed)
  have data : (btoa bytes).toList.filter (fun character => !isWhitespace character) =
      (encodeDigits bytes).map charOf ++ List.replicate (padding bytes.length) '=' := by
    unfold btoa
    rw [String.toList_ofList]
    refine List.filter_eq_self.mpr fun one member => ?_
    rcases List.mem_append.mp member with digit | pad
    · rw [(plain one digit).1]
      rfl
    · rw [List.eq_of_mem_replicate pad]
      rfl
  have groups := length_encodeDigits bytes
  have few := padding_le bytes.length
  unfold atob
  rw [data]
  dsimp only
  rw [List.length_append, List.length_map, List.length_replicate, if_pos groups,
    dropPad_append (fun one member => (plain one member).2) few, List.length_map,
    if_neg (by omega), mapM_digitOf small, Option.map_some, decodeDigits_encodeDigits]

end Base64
