/-
This file models how amounts of an asset are formatted and parsed for the user interface
(`react-sdk/src/utils/amounts.ts`).

A string of JavaScript is the list of its UTF-16 code units. The two halves of an amount are
read by `BigInt`, whose grammar is wider than that of a numeral: spaces around the text,
signs, the prefixes of other radixes, and the empty text, which is zero.
-/

import MidenClient.Library.DecimalText
import MidenClient.Library.Fallible

namespace MidenClient

open DecimalText

/-! ### Strings and integers of JavaScript -/

/-- The white space and the line terminators, which `trim` and `BigInt` skip. -/
def isWhiteSpace (unit : ℕ) : Bool :=
  unit ∈ [0x9, 0xA, 0xB, 0xC, 0xD, 0x20, 0xA0, 0x1680, 0x2028, 0x2029, 0x202F, 0x205F, 0x3000,
    0xFEFF] || 0x2000 ≤ unit && unit ≤ 0x200A

def trim (text : Text) : Text :=
  (text.dropWhile isWhiteSpace).rdropWhile isWhiteSpace

/-- What a unit counts as a digit of a radix up to 16. -/
def unitDigit (unit : ℕ) : Option ℕ :=
  if isDigit unit then some (digitValue unit)
  else if 97 ≤ unit ∧ unit ≤ 102 then some (unit - 87)
  else if 65 ≤ unit ∧ unit ≤ 70 then some (unit - 55)
  else none

/-- The radix that the letter behind the zero of a prefix stands for. -/
def radixOf (mark : ℕ) : Option ℕ :=
  if mark = 98 ∨ mark = 66 then some 2
  else if mark = 111 ∨ mark = 79 then some 8
  else if mark = 120 ∨ mark = 88 then some 16
  else none

def isDigitOf (radix unit : ℕ) : Bool :=
  (unitDigit unit).any (· < radix)

/-- Digits of a radix, at least one. -/
def radixLiteral (radix : ℕ) (digits : Text) : Option ℕ :=
  if digits ≠ [] ∧ ∀ unit ∈ digits, isDigitOf radix unit = true then
    some (digits.foldl (fun sum unit => radix * sum + (unitDigit unit).getD 0) 0)
  else none

/-- A literal with the prefix of a radix. -/
def nonDecimalLiteral : Text → Option ℕ
  | first :: mark :: digits =>
    if first = zeroDigit then (radixOf mark).bind fun radix => radixLiteral radix digits else none
  | _ => none

def decimalLiteral (text : Text) : Option ℕ :=
  if text ≠ [] ∧ AllDigits text then some (value text) else none

/-- Decimal digits with an optional sign. -/
def signedLiteral : Text → Option ℤ
  | unit :: rest =>
    if unit = plusSign then (decimalLiteral rest).map Int.ofNat
    else if unit = minusSign then (decimalLiteral rest).map fun number : ℕ => -(number : ℤ)
    else (decimalLiteral (unit :: rest)).map Int.ofNat
  | [] => none

/-- `StringToBigInt`, which is undefined for a text that is no integer literal. -/
def stringToBigInt (text : Text) : Option ℤ :=
  let literal := trim text
  if literal = [] then some 0
  else match nonDecimalLiteral literal with
    | some number => some number
    | none => signedLiteral literal

/-- What the conversions throw. -/
inductive AmountError where
  | error (message : String)
  | syntaxError
  deriving DecidableEq, Repr

/-- `BigInt(text)` -/
def bigInt (text : Text) : Except AmountError ℤ :=
  match stringToBigInt text with
  | some number => .ok number
  | none => .error .syntaxError

/-- The decimal digits of an integer, behind a minus sign if it is negative. -/
def bigIntToString (number : ℤ) : Text :=
  if number < 0 then minusSign :: decimal number.natAbs else decimal number.natAbs

/-! ### The conversions -/

/-- The number of decimals, where an unknown or negative one counts as none. -/
def decimalCount (decimals : Option ℤ) : ℕ :=
  (decimals.getD 0).toNat

def formatAssetAmount (amount : ℤ) (decimals : Option ℤ) : Text :=
  if decimalCount decimals = 0 then bigIntToString amount
  else
    let factor : ℤ := 10 ^ decimalCount decimals
    let whole := amount.tdiv factor
    let fraction := amount.tmod factor
    if fraction = 0 then bigIntToString whole
    else
      let fractionText := trimZeros (padStart (decimalCount decimals) (bigIntToString fraction))
      bigIntToString whole ++ point :: fractionText

def parseAssetAmount (input : Text) (decimals : Option ℤ) : Except AmountError ℤ :=
  let text := trim input
  if text = [] then .error (.error "Amount is required")
  else if decimalCount decimals = 0 then
    if point ∈ text then .error (.error "Amount must be a whole number") else bigInt text
  else
    let parts := text.splitOn point
    let wholeText := parts[0]?.getD []
    let fractionText := parts[1]?.getD []
    if 2 < parts.length then .error (.error "Amount has too many decimal points")
    else
      let normalizedWhole := if wholeText.length ≠ 0 then wholeText else [zeroDigit]
      if decimalCount decimals < fractionText.length then
        .error (.error "Amount has too many decimal places")
      else do
        let paddedFraction := padEnd (decimalCount decimals) fractionText
        let whole ← bigInt normalizedWhole
        let fraction ← bigInt (if paddedFraction = [] then [zeroDigit] else paddedFraction)
        return whole * 10 ^ decimalCount decimals + fraction

/-! ### What is meant -/

/-- A text in two halves: digits around a point, or without one. -/
def IsSplit (text whole fraction : Text) : Prop :=
  (text = whole ∧ fraction = []) ∨ text = whole ++ point :: fraction

/-- The text is digits with at most one point, with at most so many digits behind it, and denotes
the number of base units. -/
def Denotes (text : Text) (decimals : ℕ) (amount : ℤ) : Prop :=
  ∃ whole fraction, IsSplit text whole fraction ∧ AllDigits whole ∧ AllDigits fraction ∧
    whole ++ fraction ≠ [] ∧ fraction.length ≤ decimals ∧
    (amount : ℚ) = (value whole + value fraction / 10 ^ fraction.length) * 10 ^ decimals

/-- A text in the grammar of `BigInt`: nothing, decimal digits that may have a sign, or digits
behind the prefix of a radix, with white space around them. -/
def IsBigIntText (text : Text) : Prop :=
  trim text = [] ∨
    (∃ sign digits, trim text = sign ++ digits ∧
      (sign = [] ∨ sign = [plusSign] ∨ sign = [minusSign]) ∧
      digits ≠ [] ∧ AllDigits digits) ∨
    ∃ mark radix digits, trim text = zeroDigit :: mark :: digits ∧ radixOf mark = some radix ∧
      digits ≠ [] ∧ ∀ unit ∈ digits, isDigitOf radix unit = true

/-- Each half of the text is in the grammar of `BigInt`, the fraction once it is padded. Without
decimals the text has one half only. -/
def IsReadable (text : Text) (decimals : ℕ) : Prop :=
  text ≠ [] ∧ ∃ whole fraction, IsSplit text whole fraction ∧ point ∉ whole ∧ point ∉ fraction ∧
    (decimals = 0 → point ∉ text) ∧ fraction.length ≤ decimals ∧
    IsBigIntText whole ∧ (decimals ≠ 0 → IsBigIntText (padEnd decimals fraction))

/-- The text is digits with at most one point, and at most so many of them behind it. -/
def IsNumeral (text : Text) (decimals : ℕ) : Prop :=
  ∃ whole fraction, IsSplit text whole fraction ∧ AllDigits whole ∧ AllDigits fraction ∧
    whole ++ fraction ≠ [] ∧ fraction.length ≤ decimals

/-- Parsing throws, or the trimmed input is a numeral and the result what it denotes. -/
def ParsesExactly (input : Text) (decimals : Option ℤ) : Prop :=
  ∀ amount, parseAssetAmount input decimals = .ok amount →
    Denotes (trim input) (decimalCount decimals) amount

/-! ### What BigInt reads -/

theorem isWhiteSpace_of_isDigit {unit : ℕ} (digit : isDigit unit = true) :
    isWhiteSpace unit = false := by
  simp only [isDigit, Bool.and_eq_true, decide_eq_true_eq] at digit
  simp only [isWhiteSpace, List.mem_cons, List.not_mem_nil, or_false, Bool.or_eq_false_iff,
    Bool.and_eq_false_iff, decide_eq_false_iff_not]
  omega

/-- There is nothing to trim where there is no white space. -/
theorem trim_of_visible {text : Text} (visible : ∀ unit ∈ text, isWhiteSpace unit = false) :
    trim text = text := by
  have front : text.dropWhile isWhiteSpace = text := by
    cases text with
    | nil => rfl
    | cons unit rest =>
      rw [List.dropWhile_cons, if_neg]
      rw [visible unit List.mem_cons_self]
      decide
  unfold trim
  rw [front]
  refine List.rdropWhile_eq_self_iff.mpr fun nonempty => ?_
  rw [visible _ (List.getLast_mem nonempty)]
  decide

theorem trim_of_digits {text : Text} (digits : AllDigits text) : trim text = text :=
  trim_of_visible fun unit member => isWhiteSpace_of_isDigit (digits unit member)

theorem radixOf_of_isDigit {unit : ℕ} (digit : isDigit unit = true) : radixOf unit = none := by
  simp only [isDigit, Bool.and_eq_true, decide_eq_true_eq] at digit
  unfold radixOf
  rw [if_neg (by omega), if_neg (by omega), if_neg (by omega)]

theorem nonDecimalLiteral_of_digits {text : Text} (digits : AllDigits text) :
    nonDecimalLiteral text = none := by
  unfold nonDecimalLiteral
  split
  · rename_i first mark rest
    have mark := digits mark (List.mem_cons_of_mem _ List.mem_cons_self)
    split
    · rw [radixOf_of_isDigit mark]
      rfl
    · rfl
  · rfl

theorem signedLiteral_cons (unit : ℕ) (rest : Text) : signedLiteral (unit :: rest) =
    if unit = plusSign then (decimalLiteral rest).map Int.ofNat
    else if unit = minusSign then (decimalLiteral rest).map fun number : ℕ => -(number : ℤ)
    else (decimalLiteral (unit :: rest)).map Int.ofNat :=
  rfl

theorem nonDecimalLiteral_cons (first mark : ℕ) (digits : Text) :
    nonDecimalLiteral (first :: mark :: digits) =
      if first = zeroDigit then (radixOf mark).bind fun radix => radixLiteral radix digits
      else none :=
  rfl

theorem signedLiteral_of_digits {text : Text} (nonempty : text ≠ []) (digits : AllDigits text) :
    signedLiteral text = some (value text : ℤ) := by
  obtain ⟨unit, rest, rfl⟩ := List.exists_cons_of_ne_nil nonempty
  have digit := digits unit List.mem_cons_self
  have noPlus : unit ≠ plusSign := by rintro rfl; cases digit
  have noMinus : unit ≠ minusSign := by rintro rfl; cases digit
  rw [signedLiteral_cons, if_neg noPlus, if_neg noMinus]
  unfold decimalLiteral
  rw [if_pos ⟨nonempty, digits⟩]
  rfl

/-- Digits are read as their value. -/
theorem bigInt_of_digits {text : Text} (nonempty : text ≠ []) (digits : AllDigits text) :
    bigInt text = .ok (value text) := by
  unfold bigInt stringToBigInt
  simp only [trim_of_digits digits, if_neg nonempty, nonDecimalLiteral_of_digits digits,
    signedLiteral_of_digits nonempty digits]

theorem decimalLiteral_isSome {text : Text} :
    (decimalLiteral text).isSome = true ↔ text ≠ [] ∧ AllDigits text := by
  unfold decimalLiteral
  split
  · rename_i both
    exact ⟨fun _ => both, fun _ => rfl⟩
  · rename_i neither
    exact ⟨fun isSome => (nomatch isSome), fun both => absurd both neither⟩

theorem signedLiteral_isSome {text : Text} :
    (signedLiteral text).isSome = true ↔ ∃ sign digits, text = sign ++ digits ∧
      (sign = [] ∨ sign = [plusSign] ∨ sign = [minusSign]) ∧ digits ≠ [] ∧ AllDigits digits := by
  cases text with
  | nil =>
    refine ⟨fun isSome => (nomatch isSome), ?_⟩
    rintro ⟨sign, digits, same, _, nonempty, _⟩
    exact absurd (List.append_eq_nil_iff.mp same.symm).2 nonempty
  | cons unit rest =>
    rw [signedLiteral_cons]
    constructor
    · intro isSome
      split_ifs at isSome with isPlus isMinus
      · rw [Option.isSome_map, decimalLiteral_isSome] at isSome
        exact ⟨[plusSign], rest, by rw [isPlus]; rfl, Or.inr (Or.inl rfl), isSome⟩
      · rw [Option.isSome_map, decimalLiteral_isSome] at isSome
        exact ⟨[minusSign], rest, by rw [isMinus]; rfl, Or.inr (Or.inr rfl), isSome⟩
      · rw [Option.isSome_map, decimalLiteral_isSome] at isSome
        exact ⟨[], unit :: rest, rfl, Or.inl rfl, isSome⟩
    · rintro ⟨sign, digits, same, rfl | rfl | rfl, nonempty, allDigits⟩
      · obtain rfl : unit :: rest = digits := same
        rw [← signedLiteral_cons, signedLiteral_of_digits nonempty allDigits]
        rfl
      · obtain ⟨rfl, rfl⟩ := List.cons.inj same
        rw [if_pos rfl, Option.isSome_map]
        exact decimalLiteral_isSome.mpr ⟨nonempty, allDigits⟩
      · obtain ⟨rfl, rfl⟩ := List.cons.inj same
        rw [if_neg (by decide), if_pos rfl, Option.isSome_map]
        exact decimalLiteral_isSome.mpr ⟨nonempty, allDigits⟩

theorem nonDecimalLiteral_isSome {text : Text} :
    (nonDecimalLiteral text).isSome = true ↔ ∃ mark radix digits,
      text = zeroDigit :: mark :: digits ∧ radixOf mark = some radix ∧ digits ≠ [] ∧
        ∀ unit ∈ digits, isDigitOf radix unit = true := by
  constructor
  · intro isSome
    unfold nonDecimalLiteral at isSome
    split at isSome
    · rename_i first mark digits
      split at isSome
      · rename_i isZero
        obtain ⟨number, literal⟩ := Option.isSome_iff_exists.mp isSome
        obtain ⟨radix, known, literal⟩ := Option.bind_eq_some_iff.mp literal
        unfold radixLiteral at literal
        split at literal
        · rename_i both
          exact ⟨mark, radix, digits, by rw [isZero], known, both⟩
        · cases literal
      · cases isSome
    · cases isSome
  · rintro ⟨mark, radix, digits, rfl, known, both⟩
    rw [nonDecimalLiteral_cons, if_pos rfl, known]
    show (radixLiteral radix digits).isSome = true
    unfold radixLiteral
    rw [if_pos both]
    rfl

/-- The texts that are read are those of the grammar. -/
theorem bigInt_isOk {text : Text} : (∃ number, bigInt text = .ok number) ↔ IsBigIntText text := by
  have known : (∃ number, bigInt text = .ok number) ↔ (stringToBigInt text).isSome = true := by
    unfold bigInt
    cases stringToBigInt text with
    | some number => exact ⟨fun _ => rfl, fun _ => ⟨number, rfl⟩⟩
    | none => exact ⟨fun ⟨_, same⟩ => (nomatch same), fun isSome => (nomatch isSome)⟩
  rw [known]
  unfold stringToBigInt IsBigIntText
  rw [← signedLiteral_isSome, ← nonDecimalLiteral_isSome]
  dsimp only
  split_ifs with empty
  · exact ⟨fun _ => Or.inl empty, fun _ => rfl⟩
  · cases nonDecimalLiteral (trim text) with
    | some number => exact ⟨fun _ => Or.inr (Or.inr rfl), fun _ => rfl⟩
    | none =>
      constructor
      · exact fun literal => Or.inr (Or.inl literal)
      · rintro (none | literal | none)
        · exact absurd none empty
        · exact literal
        · cases none

/-! ### What parsing reads -/

/-- A whole part that is not there counts as zero. -/
theorem bigInt_normalized_isOk {whole : Text} :
    (∃ number, bigInt (if whole.length ≠ 0 then whole else [zeroDigit]) = .ok number) ↔
      IsBigIntText whole := by
  by_cases empty : whole = []
  · subst empty
    exact ⟨fun _ => Or.inl rfl, fun _ => ⟨0, rfl⟩⟩
  · rw [if_pos fun none => empty (List.length_eq_zero_iff.mp none), bigInt_isOk]

theorem IsSplit.parts {text whole fraction : Text} (split : IsSplit text whole fraction)
    (wholePoint : point ∉ whole) (fractionPoint : point ∉ fraction) :
    (text.splitOn point)[0]?.getD [] = whole ∧ (text.splitOn point)[1]?.getD [] = fraction ∧
      (text.splitOn point).length ≤ 2 := by
  rcases split with ⟨rfl, rfl⟩ | rfl
  · rw [List.splitOn_eq_singleton wholePoint]
    exact ⟨rfl, rfl, Nat.le_succ 1⟩
  · rw [List.splitOn_append_cons_self_of_not_mem wholePoint,
      List.splitOn_eq_singleton fractionPoint]
    exact ⟨rfl, rfl, le_rfl⟩

theorem exists_isSplit {text : Text} (few : (text.splitOn point).length ≤ 2) :
    ∃ whole fraction, IsSplit text whole fraction ∧ point ∉ whole ∧ point ∉ fraction := by
  rcases splitOn_point_cases text with
    ⟨absent, _⟩ | ⟨whole, fraction, wholePoint, fractionPoint, same, _⟩ | many
  · exact ⟨text, [], Or.inl ⟨rfl, rfl⟩, absent, List.not_mem_nil⟩
  · exact ⟨whole, fraction, Or.inr same, wholePoint, fractionPoint⟩
  · omega

/-- With decimals, the halves of the text are read one by one. -/
theorem parseAssetAmount_of_isSplit {input whole fraction : Text} {decimals : Option ℤ}
    (nonempty : trim input ≠ []) (some : decimalCount decimals ≠ 0)
    (split : IsSplit (trim input) whole fraction) (wholePoint : point ∉ whole)
    (fractionPoint : point ∉ fraction) :
    parseAssetAmount input decimals =
      if decimalCount decimals < fraction.length then
        .error (.error "Amount has too many decimal places")
      else do
        let number ← bigInt (if whole.length ≠ 0 then whole else [zeroDigit])
        let rest ← bigInt (padEnd (decimalCount decimals) fraction)
        return number * 10 ^ decimalCount decimals + rest := by
  obtain ⟨first, second, few⟩ := split.parts wholePoint fractionPoint
  unfold parseAssetAmount
  dsimp only
  rw [if_neg nonempty, if_neg some, first, second, if_neg (not_lt.mpr few)]
  refine if_congr Iff.rfl rfl ?_
  by_cases empty : padEnd (decimalCount decimals) fraction = []
  · have short : fraction.length + (decimalCount decimals - fraction.length) = 0 := by
      have length := congrArg List.length empty
      unfold padEnd at length
      rwa [List.length_append, List.length_replicate] at length
    omega
  · rw [if_neg empty]

theorem IsSplit.whole_eq {text whole fraction : Text} (split : IsSplit text whole fraction)
    (absent : point ∉ text) : text = whole := by
  rcases split with ⟨same, _⟩ | rfl
  · exact same
  · exact absurd (List.mem_append_right whole List.mem_cons_self) absent

/-- An amount comes out exactly for the readable texts. -/
theorem parseAssetAmount_isOk {input : Text} {decimals : Option ℤ} :
    (∃ amount, parseAssetAmount input decimals = .ok amount) ↔
      IsReadable (trim input) (decimalCount decimals) := by
  by_cases empty : trim input = []
  · refine ⟨fun ⟨_, same⟩ => ?_, fun readable => absurd empty readable.1⟩
    unfold parseAssetAmount at same
    rw [if_pos empty] at same
    cases same
  by_cases none : decimalCount decimals = 0
  · unfold parseAssetAmount
    dsimp only
    rw [if_neg empty, if_pos none]
    constructor
    · rintro ⟨amount, parsed⟩
      split_ifs at parsed with member
      exact ⟨empty, trim input, [], Or.inl ⟨rfl, rfl⟩, member, List.not_mem_nil, fun _ => member,
        Nat.zero_le _, bigInt_isOk.mp ⟨amount, parsed⟩, fun some => absurd none some⟩
    · rintro ⟨_, whole, fraction, split, _, _, noPoint, _, isText, _⟩
      have absent := noPoint none
      obtain rfl := split.whole_eq absent
      rw [if_neg absent]
      exact bigInt_isOk.mpr isText
  · constructor
    · rintro ⟨amount, parsed⟩
      have few : ((trim input).splitOn point).length ≤ 2 := by
        by_contra many
        unfold parseAssetAmount at parsed
        dsimp only at parsed
        rw [if_neg empty, if_neg none, if_pos (not_le.mp many)] at parsed
        cases parsed
      obtain ⟨whole, fraction, split, wholePoint, fractionPoint⟩ := exists_isSplit few
      rw [parseAssetAmount_of_isSplit empty none split wholePoint fractionPoint] at parsed
      have long : ¬ decimalCount decimals < fraction.length := by
        intro long
        rw [if_pos long] at parsed
        cases parsed
      rw [if_neg long] at parsed
      obtain ⟨number, wholeRead, parsed⟩ := Fallible.bind_eq_ok.mp parsed
      obtain ⟨rest, fractionRead, _⟩ := Fallible.bind_eq_ok.mp parsed
      exact ⟨empty, whole, fraction, split, wholePoint, fractionPoint, fun zero => absurd zero none,
        not_lt.mp long, bigInt_normalized_isOk.mp ⟨number, wholeRead⟩,
        fun _ => bigInt_isOk.mp ⟨rest, fractionRead⟩⟩
    · rintro ⟨_, whole, fraction, split, wholePoint, fractionPoint, _, fits, wholeText,
        fractionText⟩
      rw [parseAssetAmount_of_isSplit empty none split wholePoint fractionPoint,
        if_neg (not_lt.mpr fits)]
      obtain ⟨number, wholeRead⟩ := bigInt_normalized_isOk.mpr wholeText
      obtain ⟨rest, fractionRead⟩ := bigInt_isOk.mpr (fractionText none)
      exact ⟨_, Fallible.bind_eq_ok.mpr ⟨number, wholeRead,
        Fallible.bind_eq_ok.mpr ⟨rest, fractionRead, rfl⟩⟩⟩

/-- A numeral is parsed to the base units it stands for. -/
theorem parseAssetAmount_of_digits {input whole fraction : Text} {decimals : Option ℤ}
    (some : decimalCount decimals ≠ 0) (split : IsSplit (trim input) whole fraction)
    (wholeDigits : AllDigits whole) (fractionDigits : AllDigits fraction)
    (nonempty : whole ++ fraction ≠ []) (fits : fraction.length ≤ decimalCount decimals) :
    parseAssetAmount input decimals = .ok (value whole * 10 ^ decimalCount decimals +
      value (padEnd (decimalCount decimals) fraction)) := by
  have textNonempty : trim input ≠ [] := by
    rcases split with ⟨same, rfl⟩ | same
    · rw [same]
      rwa [List.append_nil] at nonempty
    · rw [same]
      exact List.append_ne_nil_of_right_ne_nil whole (List.cons_ne_nil _ _)
  have wholeRead : bigInt (if whole.length ≠ 0 then whole else [zeroDigit]) =
    .ok (value whole) := by
    by_cases empty : whole = []
    · subst empty
      rfl
    · rw [if_pos fun none => empty (List.length_eq_zero_iff.mp none)]
      exact bigInt_of_digits empty wholeDigits
  have padded : padEnd (decimalCount decimals) fraction ≠ [] := by
    intro empty
    have length := congrArg List.length empty
    rw [length_padEnd fits] at length
    exact some length
  rw [parseAssetAmount_of_isSplit textNonempty some split (point_not_mem wholeDigits)
    (point_not_mem fractionDigits), if_neg (not_lt.mpr fits), wholeRead,
    bigInt_of_digits padded (allDigits_padEnd fractionDigits)]
  rfl

/-- What a numeral is parsed to is what it denotes. -/
theorem denotes_of_isNumeral {input : Text} {decimals : Option ℤ} {amount : ℤ}
    (numeral : IsNumeral (trim input) (decimalCount decimals))
    (parsed : parseAssetAmount input decimals = .ok amount) :
    Denotes (trim input) (decimalCount decimals) amount := by
  obtain ⟨whole, fraction, split, wholeDigits, fractionDigits, nonempty, fits⟩ := numeral
  refine ⟨whole, fraction, split, wholeDigits, fractionDigits, nonempty, fits, ?_⟩
  by_cases none : decimalCount decimals = 0
  · obtain rfl : fraction = [] := List.length_eq_zero_iff.mp (by omega)
    rw [List.append_nil] at nonempty
    have textNonempty : trim input ≠ [] := by
      rcases split with ⟨same, _⟩ | same
      · rwa [same]
      · rw [same]
        exact List.append_ne_nil_of_left_ne_nil nonempty _
    unfold parseAssetAmount at parsed
    dsimp only at parsed
    rw [if_neg textNonempty, if_pos none] at parsed
    split_ifs at parsed with member
    obtain same := split.whole_eq member
    rw [same, bigInt_of_digits nonempty wholeDigits] at parsed
    rw [← Except.ok.inj parsed, none]
    simp [value]
  · rw [parseAssetAmount_of_digits none split wholeDigits fractionDigits nonempty fits] at parsed
    have counts : (10 : ℚ) ^ decimalCount decimals =
        10 ^ (decimalCount decimals - fraction.length) * 10 ^ fraction.length := by
      rw [← pow_add, Nat.sub_add_cancel fits]
    rw [← Except.ok.inj parsed, value_padEnd]
    push_cast
    rw [add_mul, div_mul_eq_mul_div, eq_comm, counts]
    field_simp

theorem IsNumeral.of_denotes {text : Text} {decimals : ℕ} {amount : ℤ}
    (denotes : Denotes text decimals amount) : IsNumeral text decimals := by
  obtain ⟨whole, fraction, split, wholeDigits, fractionDigits, nonempty, fits, _⟩ := denotes
  exact ⟨whole, fraction, split, wholeDigits, fractionDigits, nonempty, fits⟩

/-! ### Formatting and parsing back -/

theorem bigIntToString_natCast (number : ℕ) : bigIntToString number = decimal number := by
  unfold bigIntToString
  rw [if_neg (by omega), Int.natAbs_natCast]

/-- Without decimals an amount is formatted as its digits, and parsed back. -/
theorem parseAssetAmount_decimal (number : ℕ) {decimals : Option ℤ}
    (none : decimalCount decimals = 0) :
    parseAssetAmount (decimal number) decimals = .ok number := by
  have digits := allDigits_decimal number
  unfold parseAssetAmount
  dsimp only
  rw [trim_of_digits digits, if_neg (decimal_ne_nil number), if_pos none,
    if_neg (point_not_mem digits), bigInt_of_digits (decimal_ne_nil number) digits, value_decimal]

theorem trim_of_point {whole fraction : Text} (wholeDigits : AllDigits whole)
    (fractionDigits : AllDigits fraction) :
    trim (whole ++ point :: fraction) = whole ++ point :: fraction := by
  refine trim_of_visible fun unit member => ?_
  rcases List.mem_append.mp member with inWhole | behind
  · exact isWhiteSpace_of_isDigit (wholeDigits unit inWhole)
  · rcases List.mem_cons.mp behind with rfl | inFraction
    · rfl
    · exact isWhiteSpace_of_isDigit (fractionDigits unit inFraction)

theorem allDigits_trimZeros {text : Text} (digits : AllDigits text) :
    AllDigits (trimZeros text) := by
  obtain ⟨count, split⟩ := trimZeros_append text
  rw [split] at digits
  exact (allDigits_append.mp digits).1

theorem padEnd_trimZeros_of_length {text : Text} {count : ℕ} (length : text.length = count) :
    padEnd count (trimZeros text) = text := by
  rw [← length]
  exact padEnd_trimZeros text

/-- Every amount is parsed back from its text. -/
theorem parseAssetAmount_formatAssetAmount (number : ℕ) (decimals : Option ℤ) :
    parseAssetAmount (formatAssetAmount number decimals) decimals = .ok number := by
  unfold formatAssetAmount
  by_cases none : decimalCount decimals = 0
  · rw [if_pos none, bigIntToString_natCast]
    exact parseAssetAmount_decimal number none
  rw [if_neg none]
  have factor : (10 : ℤ) ^ decimalCount decimals = ((10 ^ decimalCount decimals : ℕ) : ℤ) := by
    push_cast
    rfl
  have wholeDigits := allDigits_decimal (number / 10 ^ decimalCount decimals)
  have wholeNonempty := decimal_ne_nil (number / 10 ^ decimalCount decimals)
  dsimp only
  rw [factor, ← Int.ofNat_tdiv, ← Int.ofNat_tmod, bigIntToString_natCast, bigIntToString_natCast]
  split_ifs with zero
  · have noRest : number % 10 ^ decimalCount decimals = 0 := by exact_mod_cast zero
    have split : IsSplit (trim (decimal (number / 10 ^ decimalCount decimals)))
        (decimal (number / 10 ^ decimalCount decimals)) [] :=
      Or.inl ⟨trim_of_digits wholeDigits, rfl⟩
    rw [parseAssetAmount_of_digits none split wholeDigits (List.forall_mem_nil _)
      (by rwa [List.append_nil]) (Nat.zero_le _), value_padEnd, value_decimal]
    congr 1
    have whole := Nat.div_add_mod number (10 ^ decimalCount decimals)
    rw [noRest, Nat.add_zero, Nat.mul_comm] at whole
    conv_rhs => rw [← whole]
    push_cast
    show _ + ((0 * _ : ℕ) : ℤ) = _
    rw [Nat.zero_mul]
    push_cast
    rw [add_zero]
  · have below : number % 10 ^ decimalCount decimals < 10 ^ decimalCount decimals :=
      Nat.mod_lt _ (by positivity)
    have short := (length_decimal_le_iff (Nat.pos_of_ne_zero none)).mpr below
    have length := length_padStart short
    have fractionDigits : AllDigits (trimZeros (padStart (decimalCount decimals)
        (decimal (number % 10 ^ decimalCount decimals)))) :=
      allDigits_trimZeros (allDigits_padStart (allDigits_decimal _))
    have fits : (trimZeros (padStart (decimalCount decimals)
        (decimal (number % 10 ^ decimalCount decimals)))).length ≤ decimalCount decimals :=
      le_trans (length_trimZeros_le _) length.le
    rw [parseAssetAmount_of_digits none (Or.inr (trim_of_point wholeDigits fractionDigits))
      wholeDigits fractionDigits (List.append_ne_nil_of_left_ne_nil wholeNonempty _) fits]
    have padded : padEnd (decimalCount decimals) (trimZeros (padStart (decimalCount decimals)
        (decimal (number % 10 ^ decimalCount decimals)))) = padStart (decimalCount decimals)
          (decimal (number % 10 ^ decimalCount decimals)) :=
      padEnd_trimZeros_of_length length
    rw [padded, value_padStart, value_decimal, value_decimal]
    congr 1
    have whole := Nat.div_add_mod number (10 ^ decimalCount decimals)
    rw [Nat.mul_comm] at whole
    exact_mod_cast whole

/-! ### The conversions as a whole -/

/-- Parsing is exact for an input unless its halves are in the grammar of `BigInt` without being a
numeral together; every amount is parsed back from its text. -/
theorem parseAssetAmount_exact_iff (input : Text) (decimals : Option ℤ) :
    (ParsesExactly input decimals ↔
      (IsReadable (trim input) (decimalCount decimals) →
        IsNumeral (trim input) (decimalCount decimals))) ∧
    ∀ amount : ℤ, 0 ≤ amount →
      parseAssetAmount (formatAssetAmount amount decimals) decimals = .ok amount := by
  refine ⟨⟨fun exact readable => ?_, fun numeral amount parsed => ?_⟩, ?_⟩
  · obtain ⟨amount, parsed⟩ := parseAssetAmount_isOk.mpr readable
    exact .of_denotes (exact amount parsed)
  · exact denotes_of_isNumeral (numeral (parseAssetAmount_isOk.mp ⟨amount, parsed⟩)) parsed
  · intro amount nonnegative
    obtain ⟨number, rfl⟩ := Int.eq_ofNat_of_zero_le nonnegative
    exact parseAssetAmount_formatAssetAmount number decimals

/-- The amount 1.05 of a token with two decimals, and a numeral that is read as it. -/
theorem parseAssetAmount_exact_iff_sample :
    parseAssetAmount (formatAssetAmount 105 (some 2)) (some 2) = .ok 105 ∧
      ParsesExactly [49, 46, 48, 53] (some 2) := by
  refine ⟨(parseAssetAmount_exact_iff [] (some 2)).2 105 (by decide), ?_⟩
  refine (parseAssetAmount_exact_iff _ _).1.mpr fun _ => ?_
  exact ⟨[49], [48, 53], Or.inr rfl, by decide, by decide, by decide, by decide⟩

/-- A sign, a radix or a space behind the point is read where digits are meant: `-5`, `0x1f` and
`1. 5` with two decimals. -/
theorem not_parsesExactly_negative :
    ¬ ParsesExactly [45, 53] none ∧ parseAssetAmount [45, 53] none = .ok (-5) ∧
      parseAssetAmount [48, 120, 49, 102] none = .ok 31 ∧
      parseAssetAmount [49, 46, 32, 53] (some 2) = .ok 105 := by
  have parsed : parseAssetAmount [45, 53] none = .ok (-5) := by decide
  refine ⟨fun exact => ?_, parsed, by decide, by decide⟩
  obtain ⟨whole, fraction, _, _, _, _, _, same⟩ := exact (-5) parsed
  have nonnegative : (0 : ℚ) ≤ (value whole + value fraction / 10 ^ fraction.length) *
      10 ^ decimalCount none := by positivity
  rw [← same] at nonnegative
  norm_num at nonnegative

end MidenClient
