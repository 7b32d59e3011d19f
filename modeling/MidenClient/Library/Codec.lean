/-
This file gives the rules for values that are written as bytes and read back. A reader takes
what it needs from the front of the bytes and leaves the rest.

Some bytes are read back as a value when a reader gives the value for them and leaves exactly
what follows them. This goes through sequences, so a reader is checked against a writer part
by part. A codec is a writer with a reader that reads back whatever it writes; the codecs of
lists, options, pairs and maps are put together from those of their parts.
-/

import MidenClient.Library.OrderedMap

namespace Codecs

open Std (ExtTreeMap)

/-- Why bytes are not accepted. -/
inductive ReadError where
  | unexpectedEnd
  | invalidValue (message : String)
  deriving DecidableEq, Repr

/-- Takes a value from the front of the bytes. -/
abbrev Reader (α : Type) := StateT (List UInt8) (Except ReadError) α

variable {α β κ ν : Type}

/-- The reader gives the value for the bytes, and leaves what follows them. -/
def ReadsBack (reader : Reader α) (bytes : List UInt8) (value : α) : Prop :=
  ∀ rest, reader (bytes ++ rest) = .ok (value, rest)

namespace ReadsBack

theorem pure (value : α) : ReadsBack (Pure.pure value) [] value :=
  fun _ => rfl

/-- In a sequence each part reads its own bytes. -/
theorem bind {first : Reader α} {rest : α → Reader β} {bytes more : List UInt8} {value : α}
    {result : β} (firstReads : ReadsBack first bytes value)
    (restReads : ReadsBack (rest value) more result) :
    ReadsBack (first >>= rest) (bytes ++ more) result := by
  intro remaining
  show StateT.bind first rest (bytes ++ more ++ remaining) = _
  unfold StateT.bind
  rw [List.append_assoc, firstReads]
  exact restReads remaining

/-- The last part may build the result from what it reads. -/
theorem map {reader : Reader α} {bytes : List UInt8} {value : α} {result : β}
    {convert : α → β} (reads : ReadsBack reader bytes value) (same : convert value = result) :
    ReadsBack (reader >>= fun read => Pure.pure (convert read)) bytes result := by
  intro rest
  show StateT.bind reader _ (bytes ++ rest) = _
  unfold StateT.bind
  rw [reads, ← same]
  rfl

/-- The parts of a value are written one after the other, and read one by one. -/
theorem part {first : Reader α} {rest : α → Reader β} {bytes : List UInt8}
    {parts : List (List UInt8)} {value : α} {result : β} (firstReads : ReadsBack first bytes value)
    (restReads : ReadsBack (rest value) parts.flatten result) :
    ReadsBack (first >>= rest) (bytes :: parts).flatten result :=
  firstReads.bind restReads

/-- Once all parts are read, the result is what they make up. -/
theorem done {value result : α} (same : value = result) :
    ReadsBack (Pure.pure value) ([] : List (List UInt8)).flatten result := by
  rw [← same]
  exact pure value

/-- Nothing is left when the bytes end with the value. -/
theorem complete {reader : Reader α} {bytes : List UInt8} {value : α}
    (reads : ReadsBack reader bytes value) : reader bytes = .ok (value, []) := by
  have ended := reads []
  rwa [List.append_nil] at ended

end ReadsBack

/-! ### Bytes -/

/-- Takes one byte. -/
def readU8 : Reader UInt8
  | [] => .error .unexpectedEnd
  | byte :: rest => .ok (byte, rest)

theorem readsBack_readU8 (byte : UInt8) : ReadsBack readU8 [byte] byte :=
  fun _ => rfl

/-- After a byte that is known, the reader goes on with what it stands for. -/
theorem ReadsBack.u8_bind {rest : UInt8 → Reader β} {byte : UInt8} {more : List UInt8} {result : β}
    (restReads : ReadsBack (rest byte) more result) :
    ReadsBack (readU8 >>= rest) (byte :: more) result :=
  (readsBack_readU8 byte).bind restReads

/-! ### Codecs -/

/-- A writer with a reader that reads back what it writes. -/
structure Codec (α : Type) where
  write : α → List UInt8
  read : Reader α
  readsBack : ∀ value, ReadsBack read (write value) value

/-- What is written is read back, and what is read from bytes as a whole is read again once it is
written. -/
def RoundTrips (write : α → List UInt8) (read : Reader α) : Prop :=
  (∀ value, ReadsBack read (write value) value) ∧
    ∀ bytes value, read bytes = .ok (value, []) → read (write value) = .ok (value, [])

/-- Nothing but reading back is needed for that. -/
theorem RoundTrips.of_readsBack {write : α → List UInt8} {read : Reader α}
    (readsBack : ∀ value, ReadsBack read (write value) value) : RoundTrips write read :=
  ⟨readsBack, fun _ value _ => (readsBack value).complete⟩

namespace Codec

/-- A codec of another type, whose values are rebuilt from what is written of them. -/
def ofLeftInverse (codec : Codec β) (view : α → β) (rebuild : β → α)
    (inverse : Function.LeftInverse rebuild view) : Codec α where
  write value := codec.write (view value)
  read := codec.read >>= fun written => Pure.pure (rebuild written)
  readsBack value := (codec.readsBack (view value)).map (inverse value)

/-- One value after the other. -/
def pair (first : Codec α) (second : Codec β) : Codec (α × β) where
  write value := first.write value.1 ++ second.write value.2
  read := do
    let left ← first.read
    let right ← second.read
    return (left, right)
  readsBack value := (first.readsBack value.1).bind ((second.readsBack value.2).map rfl)

/-- A truth value, as a byte that must be zero or one. -/
def readBool : Reader Bool := do
  match ← readU8 with
  | 0 => return false
  | 1 => return true
  | _ => throw (.invalidValue "not a boolean")

def bool : Codec Bool where
  write value := [if value then 1 else 0]
  read := readBool
  readsBack value := by
    cases value with
    | false => exact .u8_bind (.pure false)
    | true => exact .u8_bind (.pure true)

/-- Whether there is a value, and the value if there is one. -/
def option (codec : Codec α) : Codec (Option α) where
  write
    | none => bool.write false
    | some value => bool.write true ++ codec.write value
  read := do
    if ← bool.read then return some (← codec.read)
    else return none
  readsBack value := by
    cases value with
    | none => exact (bool.readsBack false).bind (.pure none)
    | some held => exact (bool.readsBack true).bind ((codec.readsBack held).map rfl)

/-- Counts bytes up to a zero byte. -/
def readUnary : Reader ℕ
  | [] => .error .unexpectedEnd
  | byte :: rest =>
    if byte = 0 then .ok (0, rest)
    else (readUnary rest).map fun read => (read.1 + 1, read.2)

/-- A number as so many bytes. -/
def unary : Codec ℕ where
  write number := List.replicate number 1 ++ [0]
  read := readUnary
  readsBack number rest := by
    induction number with
    | zero => rfl
    | succ number inductionHypothesis =>
      rw [List.replicate_succ, List.cons_append, List.cons_append, readUnary, if_neg (by decide),
        inductionHypothesis]
      rfl

/-- Takes some values, one after the other. -/
def readMany (reader : Reader α) : ℕ → Reader (List α)
  | 0 => return []
  | count + 1 => do
    let first ← reader
    let others ← readMany reader count
    return first :: others

theorem readsBack_readMany (codec : Codec α) (items : List α) :
    ReadsBack (readMany codec.read items.length) (items.flatMap codec.write) items := by
  induction items with
  | nil => exact .pure []
  | cons head rest inductionHypothesis =>
    exact (codec.readsBack head).bind (inductionHypothesis.map rfl)

/-- The number of values, and the values. -/
def list (lengths : Codec ℕ) (items : Codec α) : Codec (List α) where
  write values := lengths.write values.length ++ values.flatMap items.write
  read := do
    let count ← lengths.read
    readMany items.read count
  readsBack values := (lengths.readsBack values.length).bind (readsBack_readMany items values)

section Maps

variable [LinearOrder κ] [Std.LawfulEqOrd κ]

/-- A map is put together again from its entries. -/
theorem ofList_toList (map : ExtTreeMap κ ν) : ExtTreeMap.ofList map.toList = map := by
  have distinct : (map.toList.map Prod.fst).Nodup := by
    refine List.pairwise_map.mpr ((OrderedMap.pairwise_lt_toList map).imp ?_)
    intro first second below
    exact ne_of_lt below
  refine ExtTreeMap.ext_getElem? fun key => Option.ext fun value => ?_
  rw [OrderedMap.getElem?_ofList_eq_some_iff map.toList distinct]
  exact ExtTreeMap.mem_toList_iff_getElem?_eq_some

/-- The entries of a map in the order of their keys. -/
def map (lengths : Codec ℕ) (keys : Codec κ) (values : Codec ν) : Codec (ExtTreeMap κ ν) :=
  ofLeftInverse (list lengths (pair keys values)) (fun entries : ExtTreeMap κ ν => entries.toList)
    (fun entries : List (κ × ν) => ExtTreeMap.ofList entries) fun entries => ofList_toList entries

end Maps

end Codec

end Codecs
