/-
This file models the conversions between amounts in base units and amounts in tokens
(`rust-client/src/utils.rs`).

A string is the list of its bytes. Indexing, slicing and subtracting panic where Rust's do,
so that the conversions are computations that may panic. The largest number of decimals is
a constant of the standard library of the protocol and is a parameter here.
-/

import MidenClient.Library.ByteText
import MidenClient.Library.DecimalText

namespace MidenClient

open ByteText DecimalText Panicking

/-! ### Strings and integers -/

/-- Errors that can occur when parsing a token represented as a decimal number in a string into
base units. -/
inductive TokenParseError where
  | maxDecimals (decimals : ℕ)
  | multipleDecimalPoints
  | parseU64 (error : ParseIntError)
  | tooManyDecimals (decimals : ℕ)
  deriving DecidableEq, Repr

/-- `str::parse::<u64>`: a leading plus sign is accepted, a minus sign is not a digit. -/
def parseU64 (text : Text) : Except ParseIntError ℕ :=
  readBelow (2 ^ 64) text

def subUsize {ε : Type} (minuend subtrahend : ℕ) : Except (Failure ε) ℕ :=
  if subtrahend ≤ minuend then .ok (minuend - subtrahend)
  else .error (.panicked "attempt to subtract with overflow")

/-! ### The conversions -/

/-- Converts an amount in the faucet base units to the token's decimals. -/
def baseUnitsToTokens (units decimals : ℕ) : Except (Failure TokenParseError) Text :=
  let unitsStr := decimal units
  let len := unitsStr.length
  if decimals = 0 then .ok unitsStr
  else if len ≤ decimals then do
    let zeros ← subUsize decimals len
    return [zeroDigit, point] ++ List.replicate zeros zeroDigit ++ unitsStr
  else do
    let cut ← subUsize len decimals
    let integerPart ← sliceTo unitsStr cut
    let fractionalPart ← sliceFrom unitsStr cut
    return integerPart ++ [point] ++ fractionalPart

/-- Validates that a part is a valid number. -/
def parsePart (part : Text) : Except (Failure TokenParseError) Unit := do
  let _ ← fallible ((parseU64 part).mapError .parseU64)

/-- Get the fractional part; remove trailing zeros. -/
def fractionalPart (parts : List Text) : Text :=
  match parts[1]? with
  | some part => trimZeros part
  | none => []

/-- Converts a decimal number, represented as a string, into an integer by shifting the decimal
point to the right by a specified number of decimal places. -/
def tokensToBaseUnits (maxDecimals : ℕ) (decimalStr : Text) (nDecimals : ℕ) :
    Except (Failure TokenParseError) ℕ :=
  if maxDecimals < nDecimals then .error (.error (.maxDecimals nDecimals))
  else
    let parts := decimalStr.splitOn point
    if 2 < parts.length then .error (.error .multipleDecimalPoints)
    else do
      parts.forM parsePart
      let integerPart ← expect "index out of bounds" parts[0]?
      if nDecimals < (fractionalPart parts).length then
        .error (.error (.tooManyDecimals nDecimals))
      else
        -- The loop pushes a zero as long as the part is shorter than the number of decimals.
        let fraction ← sliceTo (padEnd nDecimals (fractionalPart parts)) nDecimals
        fallible ((parseU64 (integerPart ++ fraction)).mapError .parseU64)

/-! ### Reading integers -/

/-- Digits behind an optional plus sign are read as their value, if it fits. -/
theorem parseU64_digits (plus : Bool) {digits : Text} (nonempty : digits ≠ [])
    (allDigits : AllDigits digits) :
    parseU64 (sign plus ++ digits) =
      if value digits < 2 ^ 64 then .ok (value digits) else .error .posOverflow :=
  readBelow_digits (by decide) plus nonempty allDigits

/-- What is read as an integer are digits behind an optional plus sign. -/
theorem parseU64_eq_ok {text : Text} {number : ℕ} (parsed : parseU64 text = .ok number) :
    ∃ plus digits, text = sign plus ++ digits ∧ digits ≠ [] ∧ AllDigits digits ∧
      number = value digits := by
  rw [parseU64] at parsed
  obtain ⟨plus, digits, split, nonempty, allDigits, same, _⟩ := readBelow_eq_ok (by decide) parsed
  exact ⟨plus, digits, split, nonempty, allDigits, same⟩

/-! ### What a text denotes -/

/-- An optional plus sign and digits, with at most one decimal point between digits. -/
structure Numeral where
  plus : Bool
  whole : Text
  fraction : Option Text
  wholeDigits : whole ≠ [] ∧ AllDigits whole
  fractionDigits : ∀ digits ∈ fraction, digits ≠ [] ∧ AllDigits digits

namespace Numeral

def text (numeral : Numeral) : Text :=
  sign numeral.plus ++ numeral.whole ++
    match numeral.fraction with
    | some digits => point :: digits
    | none => []

def denotes (numeral : Numeral) : ℚ :=
  match numeral.fraction with
  | some digits => value numeral.whole + value digits / 10 ^ digits.length
  | none => value numeral.whole

end Numeral

/-! ### The parts of the conversion -/

theorem parsePart_eq_ok {part : Text} :
    parsePart part = .ok () ↔ ∃ number, parseU64 part = .ok number := by
  unfold parsePart
  rw [Fallible.bind_eq_ok]
  constructor
  · rintro ⟨number, read, _⟩
    exact ⟨number, mapError_eq_ok.mp (fallible_eq_ok.mp read)⟩
  · rintro ⟨number, read⟩
    exact ⟨number, fallible_eq_ok.mpr (mapError_eq_ok.mpr read), rfl⟩

theorem forM_parsePart_eq_ok {parts : List Text} :
    parts.forM parsePart = .ok () ↔ ∀ part ∈ parts, ∃ number, parseU64 part = .ok number := by
  induction parts with
  | nil => exact ⟨fun _ => List.forall_mem_nil _, fun _ => rfl⟩
  | cons part rest inductionHypothesis =>
    rw [List.forall_mem_cons, ← inductionHypothesis, ← parsePart_eq_ok]
    show (parsePart part >>= fun _ => rest.forM parsePart) = _ ↔ _
    rw [Fallible.bind_eq_ok]
    exact ⟨fun ⟨_, first, later⟩ => ⟨first, later⟩, fun ⟨first, later⟩ => ⟨(), first, later⟩⟩

theorem returns_forM_parsePart (parts : List Text) : Returns (parts.forM parsePart) := by
  induction parts with
  | nil => exact returns_ok ()
  | cons part rest inductionHypothesis =>
    show Returns (parsePart part >>= fun _ => rest.forM parsePart)
    refine returns_bind.mpr ⟨?_, fun _ _ => inductionHypothesis⟩
    exact returns_bind.mpr ⟨returns_fallible _, fun _ _ => returns_ok ()⟩

/-- Digits can be cut anywhere. -/
theorem isCharBoundary_of_digits {text : Text} (digits : AllDigits text) {index : ℕ}
    (inside : index ≤ text.length) : isCharBoundary text index = true := by
  have starts : StartsChar (text.drop index) := by
    intro unit first
    have digit := digits unit (List.mem_of_mem_drop (List.mem_of_mem_head? first))
    simp only [isDigit, Bool.and_eq_true, decide_eq_true_eq] at digit
    exact isFirstByte_of_ascii (by omega)
  have boundary : isCharBoundary (text.take index ++ text.drop index) (text.take index).length =
      true := isCharBoundary_append starts
  rwa [List.take_append_drop, List.length_take_of_le inside] at boundary

/-- A conversion that comes to the end read its parts, and then the whole part with the padded
fraction behind it. -/
theorem tokensToBaseUnits_eq_ok {maxDecimals nDecimals amount : ℕ} {decimalStr whole : Text}
    {rest : List Text} (split : decimalStr.splitOn point = whole :: rest) :
    tokensToBaseUnits maxDecimals decimalStr nDecimals = .ok amount ↔
      nDecimals ≤ maxDecimals ∧ rest.length ≤ 1 ∧
        (∀ part ∈ whole :: rest, ∃ number, parseU64 part = .ok number) ∧
        (fractionalPart (whole :: rest)).length ≤ nDecimals ∧
        parseU64 (whole ++ padEnd nDecimals (fractionalPart (whole :: rest))) = .ok amount := by
  unfold tokensToBaseUnits
  rw [split]
  dsimp only
  split_ifs with refused many long
  · exact ⟨fun same => (nomatch same), fun holds => absurd holds.1 (not_le.mpr refused)⟩
  · refine ⟨fun same => (nomatch same), fun holds => ?_⟩
    rw [List.length_cons] at many
    omega
  · refine ⟨fun same => ?_, fun holds => absurd holds.2.2.2.1 (not_le.mpr long)⟩
    obtain ⟨_, _, later⟩ := Fallible.bind_eq_ok.mp same
    cases later
  · rw [not_lt] at refused many long
    rw [List.length_cons] at many
    rw [Fallible.bind_eq_ok]
    simp only [List.getElem?_cons_zero, expect, sliceTo_length (length_padEnd long)]
    constructor
    · rintro ⟨_, parts, read⟩
      exact ⟨refused, by omega, forM_parsePart_eq_ok.mp parts, long,
        mapError_eq_ok.mp (fallible_eq_ok.mp read)⟩
    · rintro ⟨_, _, parts, _, read⟩
      exact ⟨(), forM_parsePart_eq_ok.mpr parts, fallible_eq_ok.mpr (mapError_eq_ok.mpr read)⟩

/-- No step of the conversion panics. -/
theorem returns_tokensToBaseUnits (maxDecimals : ℕ) (decimalStr : Text) (nDecimals : ℕ) :
    Returns (tokensToBaseUnits maxDecimals decimalStr nDecimals) := by
  obtain ⟨whole, rest, split⟩ := List.exists_cons_of_ne_nil (List.splitOn_ne_nil point decimalStr)
  unfold tokensToBaseUnits
  rw [split]
  dsimp only
  split_ifs with refused many long
  · exact returns_error _
  · exact returns_error _
  · exact returns_bind.mpr ⟨returns_forM_parsePart _, fun _ _ => returns_error _⟩
  · refine returns_bind.mpr ⟨returns_forM_parsePart _, fun _ _ => ?_⟩
    simp only [List.getElem?_cons_zero, expect, sliceTo_length (length_padEnd (not_lt.mp long))]
    exact returns_fallible _

/-! ### From texts to amounts -/

theorem plusSign_mem_trimZeros {text : Text} (member : plusSign ∈ text) :
    plusSign ∈ trimZeros text := by
  obtain ⟨count, split⟩ := trimZeros_append text
  rw [split] at member
  rcases List.mem_append.mp member with kept | zero
  · exact kept
  · cases List.eq_of_mem_replicate zero

/-- Behind an optional sign, a text that begins with a digit is the digits it equals. -/
theorem sign_append_inj {plus other : Bool} {unit : ℕ} {rest text : Text}
    (digit : isDigit unit = true) (digits : AllDigits text)
    (same : sign plus ++ unit :: rest = sign other ++ text) : unit :: rest = text := by
  cases plus with
  | true =>
    cases other with
    | true => exact List.tail_eq_of_cons_eq same
    | false =>
      have isPlus : plusSign ∈ text := by
        rw [show text = plusSign :: unit :: rest from same.symm]
        exact List.mem_cons_self
      exact absurd isPlus (plusSign_not_mem digits)
  | false =>
    cases other with
    | true =>
      have isPlus : unit = plusSign := (List.cons.inj same).1
      rw [isPlus] at digit
      cases digit
    | false => exact same

/-- A whole number and a fraction that are read as one integer are both digits. -/
theorem digits_of_parseU64_append {plus : Bool} {digits fraction : Text} {amount : ℕ}
    (nonempty : digits ≠ []) (allDigits : AllDigits digits)
    (read : parseU64 (sign plus ++ digits ++ fraction) = .ok amount) :
    AllDigits fraction ∧ amount = value (digits ++ fraction) := by
  obtain ⟨other, text, same, _, textDigits, rfl⟩ := parseU64_eq_ok read
  obtain ⟨unit, rest, rfl⟩ := List.exists_cons_of_ne_nil nonempty
  rw [List.append_assoc] at same
  have whole : unit :: rest ++ fraction = text :=
    sign_append_inj (allDigits unit List.mem_cons_self) textDigits same
  subst whole
  exact ⟨(allDigits_append.mp textDigits).2, rfl⟩

/-- A fraction that is read without its zeros, and behind a whole number, has no sign. -/
theorem digits_of_fraction {fraction : Text} {count number : ℕ}
    (read : parseU64 fraction = .ok number)
    (digits : AllDigits (padEnd count (trimZeros fraction))) :
    fraction ≠ [] ∧ AllDigits fraction := by
  obtain ⟨plus, text, rfl, nonempty, allDigits, -⟩ := parseU64_eq_ok read
  cases plus with
  | true =>
    have isPlus : plusSign ∈ trimZeros (sign true ++ text) :=
      plusSign_mem_trimZeros List.mem_cons_self
    exact absurd isPlus (plusSign_not_mem (allDigits_append.mp digits).1)
  | false => exact ⟨nonempty, allDigits⟩

/-- The whole part and the trimmed fraction make up the number times the power of ten. -/
theorem value_shifted {whole fraction : Text} {count : ℕ}
    (fits : (trimZeros fraction).length ≤ count) :
    (value (whole ++ padEnd count (trimZeros fraction)) : ℚ) =
      (value whole + value fraction / 10 ^ fraction.length) * 10 ^ count := by
  have shorter := length_trimZeros_le fraction
  rw [value_append, length_padEnd fits, value_padEnd, value_trimZeros fraction]
  push_cast
  have lengths : (10 : ℚ) ^ fraction.length =
      10 ^ (fraction.length - (trimZeros fraction).length) * 10 ^ (trimZeros fraction).length := by
    rw [← pow_add, Nat.sub_add_cancel shorter]
  have counts : (10 : ℚ) ^ count =
      10 ^ (count - (trimZeros fraction).length) * 10 ^ (trimZeros fraction).length := by
    rw [← pow_add, Nat.sub_add_cancel fits]
  rw [lengths, counts]
  field_simp

/-- An amount comes from a numeral, and is what it denotes in base units. -/
theorem numeral_of_tokensToBaseUnits {maxDecimals nDecimals amount : ℕ} {decimalStr : Text}
    (converted : tokensToBaseUnits maxDecimals decimalStr nDecimals = .ok amount) :
    ∃ numeral : Numeral, numeral.text = decimalStr ∧
      (amount : ℚ) = numeral.denotes * 10 ^ nDecimals := by
  rcases splitOn_point_cases decimalStr with ⟨_, split⟩ | ⟨whole, fraction, _, _, rfl, split⟩ | many
  · obtain ⟨_, _, parts, _, read⟩ := (tokensToBaseUnits_eq_ok split).mp converted
    obtain ⟨number, wholeRead⟩ := parts decimalStr List.mem_cons_self
    obtain ⟨plus, digits, rfl, nonempty, allDigits, -⟩ := parseU64_eq_ok wholeRead
    obtain ⟨_, rfl⟩ := digits_of_parseU64_append nonempty allDigits read
    refine ⟨⟨plus, digits, none, ⟨nonempty, allDigits⟩, fun _ none => (nomatch none)⟩,
      List.append_nil _, ?_⟩
    show (value (digits ++ padEnd nDecimals []) : ℚ) = value digits * 10 ^ nDecimals
    rw [value_append, length_padEnd (Nat.zero_le _), value_padEnd]
    show ((value digits * 10 ^ nDecimals + 0 * _ : ℕ) : ℚ) = _
    rw [Nat.zero_mul, Nat.add_zero]
    push_cast
    rfl
  · obtain ⟨_, _, parts, fits, read⟩ := (tokensToBaseUnits_eq_ok split).mp converted
    obtain ⟨number, wholeRead⟩ := parts whole List.mem_cons_self
    obtain ⟨_, fractionRead⟩ := parts fraction (List.mem_cons_of_mem _ List.mem_cons_self)
    obtain ⟨plus, digits, rfl, nonempty, allDigits, -⟩ := parseU64_eq_ok wholeRead
    obtain ⟨paddedDigits, rfl⟩ := digits_of_parseU64_append nonempty allDigits read
    have fractionDigits := digits_of_fraction fractionRead paddedDigits
    refine ⟨⟨plus, digits, some fraction, ⟨nonempty, allDigits⟩, ?_⟩, rfl, value_shifted fits⟩
    rintro _ ⟨⟩
    exact fractionDigits
  · obtain ⟨whole, rest, split⟩ := List.exists_cons_of_ne_nil (List.splitOn_ne_nil point decimalStr)
    obtain ⟨_, few, _⟩ := (tokensToBaseUnits_eq_ok split).mp converted
    rw [split, List.length_cons] at many
    omega

/-! ### From amounts to texts and back -/

/-- Digits are read as their value when it fits. -/
theorem parseU64_of_digits {digits : Text} (nonempty : digits ≠ []) (allDigits : AllDigits digits)
    (small : value digits < 2 ^ 64) : parseU64 digits = .ok (value digits) := by
  have read := parseU64_digits false nonempty allDigits
  rw [if_pos small] at read
  exact read

/-- A whole number and a fraction with exactly the decimals are read back. -/
theorem tokensToBaseUnits_of_parts {maxDecimals nDecimals units : ℕ} {whole fraction : Text}
    (allowed : nDecimals ≤ maxDecimals) (small : units < 2 ^ 64) (positive : nDecimals ≠ 0)
    (nonempty : whole ≠ []) (wholeDigits : AllDigits whole) (fractionDigits : AllDigits fraction)
    (length : fraction.length = nDecimals) (same : value (whole ++ fraction) = units) :
    tokensToBaseUnits maxDecimals (whole ++ point :: fraction) nDecimals = .ok units := by
  have fractionNonempty : fraction ≠ [] := by
    rintro rfl
    exact positive length.symm
  have wholeSmall : value whole < 2 ^ 64 :=
    lt_of_le_of_lt (value_le_append whole fraction) (by rw [same]; exact small)
  have fractionSmall : value fraction < 2 ^ 64 := by
    rw [value_append] at same
    omega
  have split : (whole ++ point :: fraction).splitOn point = [whole, fraction] := by
    rw [List.splitOn_append_cons_self_of_not_mem (point_not_mem wholeDigits),
      List.splitOn_eq_singleton (point_not_mem fractionDigits)]
  refine (tokensToBaseUnits_eq_ok split).mpr ⟨allowed, le_rfl, ?_, ?_, ?_⟩
  · refine List.forall_mem_cons.mpr ⟨⟨_, parseU64_of_digits nonempty wholeDigits wholeSmall⟩, ?_⟩
    refine List.forall_mem_singleton.mpr ⟨value fraction, ?_⟩
    exact parseU64_of_digits fractionNonempty fractionDigits fractionSmall
  · exact length ▸ length_trimZeros_le fraction
  · have padded : padEnd nDecimals (fractionalPart [whole, fraction]) = fraction :=
      length ▸ padEnd_trimZeros fraction
    rw [padded, ← same]
    refine parseU64_of_digits ?_ (allDigits_append.mpr ⟨wholeDigits, fractionDigits⟩) ?_
    · exact List.append_ne_nil_of_left_ne_nil nonempty _
    · rw [same]
      exact small

/-- The text of an amount: its digits, or a whole number and a fraction with the decimals. -/
theorem baseUnitsToTokens_cases {units decimals : ℕ} (positive : decimals ≠ 0) :
    ∃ whole fraction, baseUnitsToTokens units decimals = .ok (whole ++ point :: fraction) ∧
      whole ≠ [] ∧ AllDigits whole ∧ AllDigits fraction ∧ fraction.length = decimals ∧
      value (whole ++ fraction) = units := by
  have digits := allDigits_decimal units
  unfold baseUnitsToTokens
  dsimp only
  rw [if_neg positive]
  split_ifs with short
  · refine ⟨[zeroDigit], padStart decimals (decimal units), ?_, List.cons_ne_nil _ _,
      List.forall_mem_singleton.mpr rfl, allDigits_padStart digits, length_padStart short, ?_⟩
    · unfold subUsize
      rw [if_pos short]
      rfl
    · rw [value_append, value_padStart, value_decimal]
      exact (Nat.zero_mul _).symm ▸ Nat.zero_add _
  · have cut : decimals < (decimal units).length := not_le.mp short
    have boundary : isCharBoundary (decimal units) ((decimal units).length - decimals) = true :=
      isCharBoundary_of_digits digits (Nat.sub_le _ _)
    refine ⟨(decimal units).take ((decimal units).length - decimals),
      (decimal units).drop ((decimal units).length - decimals), ?_, ?_, ?_, ?_, ?_, ?_⟩
    · refine Fallible.bind_eq_ok.mpr ⟨_, if_pos cut.le, ?_⟩
      refine Fallible.bind_eq_ok.mpr ⟨_, if_pos boundary, ?_⟩
      refine Fallible.bind_eq_ok.mpr ⟨_, if_pos boundary, ?_⟩
      rw [List.append_assoc]
      rfl
    · intro empty
      have length := congrArg List.length empty
      rw [List.length_take, List.length_nil] at length
      omega
    · exact fun unit member => digits unit (List.mem_of_mem_take member)
    · exact fun unit member => digits unit (List.mem_of_mem_drop member)
    · rw [List.length_drop]
      omega
    · rw [List.take_append_drop, value_decimal]

theorem returns_baseUnitsToTokens (units decimals : ℕ) :
    Returns (baseUnitsToTokens units decimals) := by
  by_cases zero : decimals = 0
  · unfold baseUnitsToTokens
    rw [if_pos zero]
    exact returns_ok _
  · obtain ⟨_, _, text, _⟩ := baseUnitsToTokens_cases zero
    rw [text]
    exact returns_ok _

theorem tokensToBaseUnits_baseUnitsToTokens {maxDecimals units decimals : ℕ}
    (small : units < 2 ^ 64) (allowed : decimals ≤ maxDecimals) :
    ∃ text, baseUnitsToTokens units decimals = .ok text ∧
      tokensToBaseUnits maxDecimals text decimals = .ok units := by
  by_cases zero : decimals = 0
  · subst zero
    refine ⟨decimal units, rfl, ?_⟩
    have digits := allDigits_decimal units
    have read : parseU64 (decimal units) = .ok units := by
      have parsed := parseU64_of_digits (decimal_ne_nil units) digits
        (by rw [value_decimal]; exact small)
      rwa [value_decimal] at parsed
    have split := List.splitOn_eq_singleton (point_not_mem digits)
    refine (tokensToBaseUnits_eq_ok split).mpr ⟨allowed, Nat.zero_le _, ?_, le_rfl, ?_⟩
    · exact List.forall_mem_singleton.mpr ⟨units, read⟩
    · show parseU64 (decimal units ++ []) = _
      rw [List.append_nil]
      exact read
  · obtain ⟨whole, fraction, text, nonempty, wholeDigits, fractionDigits, length, same⟩ :=
      baseUnitsToTokens_cases zero
    exact ⟨_, text, tokensToBaseUnits_of_parts allowed small zero nonempty wholeDigits
      fractionDigits length same⟩

/-! ### The conversions as a whole -/

/-- Only numerals are converted, and to exactly the amount they denote; every amount is read back
from its text; and neither conversion panics, whatever it is given. -/
theorem token_conversions_exact (maxDecimals : ℕ) :
    (∀ text nDecimals amount, tokensToBaseUnits maxDecimals text nDecimals = .ok amount →
      ∃ numeral : Numeral, numeral.text = text ∧
        (amount : ℚ) = numeral.denotes * 10 ^ nDecimals) ∧
    (∀ units decimals, units < 2 ^ 64 → decimals ≤ maxDecimals →
      ∃ text, baseUnitsToTokens units decimals = .ok text ∧
        tokensToBaseUnits maxDecimals text decimals = .ok units) ∧
    (∀ text nDecimals, Returns (tokensToBaseUnits maxDecimals text nDecimals)) ∧
    ∀ units decimals, Returns (baseUnitsToTokens units decimals) :=
  ⟨fun _ _ _ => numeral_of_tokensToBaseUnits,
    fun _ _ => tokensToBaseUnits_baseUnitsToTokens,
    returns_tokensToBaseUnits maxDecimals, returns_baseUnitsToTokens⟩

/-- The amount `12.345` with four decimals, as the bytes of its text. -/
def Sample.tokens : Text :=
  [49, 50, 46, 51, 52, 53]

theorem token_conversions_exact_sample :
    (∃ numeral : Numeral, numeral.text = Sample.tokens ∧
      (123450 : ℚ) = numeral.denotes * 10 ^ 4) ∧
    ∃ text, baseUnitsToTokens 123450 4 = .ok text ∧ tokensToBaseUnits 12 text 4 = .ok 123450 := by
  obtain ⟨sound, roundTrip, _⟩ := token_conversions_exact 12
  have converted : tokensToBaseUnits 12 Sample.tokens 4 = .ok 123450 := by
    have split : Sample.tokens.splitOn point = [[49, 50], [51, 52, 53]] := by
      unfold List.splitOn
      rfl
    refine (tokensToBaseUnits_eq_ok split).mpr ⟨by decide, le_rfl, ?_, by decide, by decide⟩
    refine List.forall_mem_cons.mpr
      ⟨⟨12, by decide⟩, List.forall_mem_singleton.mpr ⟨345, by decide⟩⟩
  exact ⟨sound Sample.tokens 4 123450 converted, roundTrip 123450 4 (by decide) (by decide)⟩

end MidenClient
