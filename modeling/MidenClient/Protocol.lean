/-
This file fixes the protocol values the client passes around.

The client never looks inside a digest: it compares digests, orders them as map
keys and hands them to the hash functions of the protocol library. A digest is
therefore modelled by a natural number, and so are the identifiers built from
digests. Block numbers are natural numbers as well; the code that computes with
them says where a bound matters.
-/

import MidenClient.Library.Panic

namespace MidenClient

/-- A digest of four field elements. Only its identity and its order are used. -/
abbrev Word := ℕ

/-- The word with four zero elements, which marks an absent map value. -/
def emptyWord : Word := 0

abbrev AccountId := ℕ

abbrev TransactionId := Word

abbrev NoteId := Word

abbrev Nullifier := Word

abbrev BlockNumber := ℕ

/-- `BlockNumber::checked_sub`: the difference, when it is not negative. -/
def checkedSub (block : BlockNumber) (delta : ℕ) : Option BlockNumber :=
  if delta ≤ block then some (block - delta) else none

/-- What the client is compiled for: the bits of `usize`, and whether an addition that overflows
panics or wraps around. -/
structure BuildTarget where
  pointerWidth : ℕ
  overflowChecks : Bool

namespace BuildTarget

open Panicking

/-- `usize::try_from`. -/
def usize (build : BuildTarget) (number : UInt64) : Option ℕ :=
  if number.toNat < 2 ^ build.pointerWidth then some number.toNat else none

/-- Adds one to a block number. -/
def increment (build : BuildTarget) {ε : Type} (number : UInt32) : Except (Failure ε) UInt32 :=
  if build.overflowChecks = true ∧ number.toNat + 1 = 2 ^ 32 then
    .error (.panicked "attempt to add with overflow")
  else .ok (number + 1)

/-- Adds one to a block number, which has 32 bits. -/
def nextBlock (build : BuildTarget) {ε : Type} (block : BlockNumber) :
    Except (Failure ε) BlockNumber :=
  (build.increment (UInt32.ofNat block)).map UInt32.toNat

theorem nextBlock_of_lt (build : BuildTarget) {ε : Type} {block : BlockNumber}
    (below : block + 1 < 2 ^ 32) :
    (build.nextBlock block : Except (Failure ε) BlockNumber) = .ok (block + 1) := by
  have same : (UInt32.ofNat block).toNat = block :=
    UInt32.toNat_ofNat_of_lt' (Nat.lt_of_succ_lt below)
  unfold nextBlock increment
  rw [if_neg (by rw [same]; exact fun last => below.ne last.2)]
  refine congrArg Except.ok ?_
  rw [UInt32.toNat_add, same]
  exact Nat.mod_eq_of_lt below

/-- Behind the last block number there is no other one. -/
theorem nextBlock_of_last (build : BuildTarget) {ε : Type} {block : BlockNumber}
    (last : block + 1 = 2 ^ 32) :
    (build.nextBlock block : Except (Failure ε) BlockNumber) =
      if build.overflowChecks = true then .error (.panicked "attempt to add with overflow")
      else .ok 0 := by
  obtain rfl : block = 2 ^ 32 - 1 := Nat.eq_sub_of_add_eq last
  rcases build with ⟨pointerWidth, _ | _⟩ <;> rfl

end BuildTarget

end MidenClient
