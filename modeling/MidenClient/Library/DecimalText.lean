/-
This file gives the rules for decimal numerals as programs handle them in strings: digits
that are read from left to right, into a number below a limit, padded with zeros, cut and
put together again.

A text is a list of code units. Only the ASCII characters matter for a numeral, so it can
be a string of bytes as well as one of UTF-16 units. Putting two numerals behind each other
shifts the value of the first by the length of the second; all other rules come from there.
-/

import Mathlib
import MidenClient.Library.Fallible

namespace DecimalText

/-- The code units of a string. -/
abbrev Text := List ℕ

def plusSign : ℕ := 43
def minusSign : ℕ := 45
def point : ℕ := 46
def zeroDigit : ℕ := 48

def isDigit (unit : ℕ) : Bool :=
  48 ≤ unit && unit ≤ 57

/-- The digit a code unit stands for. -/
def digitValue (unit : ℕ) : ℕ :=
  unit - 48

def AllDigits (text : Text) : Prop :=
  ∀ unit ∈ text, isDigit unit = true

instance (text : Text) : Decidable (AllDigits text) :=
  inferInstanceAs (Decidable (∀ unit ∈ text, isDigit unit = true))

/-- The number that the digits of a text denote. -/
def value (text : Text) : ℕ :=
  text.foldl (fun sum unit => 10 * sum + digitValue unit) 0

/-- The digits of a number, without leading zeros. -/
def decimal (number : ℕ) : Text :=
  (Nat.toDigits 10 number).map Char.toNat

/-! ### Values -/

theorem foldl_eq (text : Text) (start : ℕ) :
    text.foldl (fun sum unit => 10 * sum + digitValue unit) start =
      start * 10 ^ text.length + value text := by
  unfold value
  induction text generalizing start with
  | nil => simp
  | cons unit rest inductionHypothesis =>
    rw [List.foldl_cons, List.foldl_cons, inductionHypothesis, inductionHypothesis (10 * 0 + _),
      List.length_cons, pow_succ]
    ring

/-- Digits behind a numeral shift its value. -/
theorem value_append (first second : Text) :
    value (first ++ second) = value first * 10 ^ second.length + value second := by
  conv_lhs => rw [value, List.foldl_append, foldl_eq]
  rfl

theorem value_cons (unit : ℕ) (rest : Text) :
    value (unit :: rest) = digitValue unit * 10 ^ rest.length + value rest := by
  rw [← List.singleton_append, value_append]
  congr 2
  exact Nat.zero_add _

@[simp]
theorem value_zeros (count : ℕ) : value (List.replicate count zeroDigit) = 0 := by
  induction count with
  | zero => rfl
  | succ count inductionHypothesis =>
    rw [List.replicate_succ, value_cons, inductionHypothesis]
    exact Nat.zero_mul _

/-- Reading on never makes a value smaller. -/
theorem value_le_append (first second : Text) : value first ≤ value (first ++ second) := by
  rw [value_append]
  calc value first = value first * 1 := (Nat.mul_one _).symm
    _ ≤ value first * 10 ^ second.length := Nat.mul_le_mul_left _ (Nat.one_le_pow _ _ (by decide))
    _ ≤ _ := Nat.le_add_right _ _

theorem allDigits_append {first second : Text} :
    AllDigits (first ++ second) ↔ AllDigits first ∧ AllDigits second :=
  List.forall_mem_append

theorem allDigits_zeros (count : ℕ) : AllDigits (List.replicate count zeroDigit) := by
  intro unit member
  rw [List.eq_of_mem_replicate member]
  rfl

theorem point_not_mem {text : Text} (digits : AllDigits text) : point ∉ text := by
  intro member
  cases digits point member

theorem plusSign_not_mem {text : Text} (digits : AllDigits text) : plusSign ∉ text := by
  intro member
  cases digits plusSign member

/-! ### The digits of a number -/

theorem value_decimal (number : ℕ) : value (decimal number) = number := by
  conv_rhs => rw [← Nat.ofDigitChars_ten_toDigits (n := number)]
  unfold value decimal
  rw [List.foldl_map, Nat.ofDigitChars_eq_foldl]
  rfl

theorem allDigits_decimal (number : ℕ) : AllDigits (decimal number) := by
  intro unit member
  obtain ⟨digit, digitMember, rfl⟩ := List.mem_map.mp member
  have range := Char.isDigit_iff_toNat.mp
    (Nat.isDigit_of_mem_toDigits (by decide) (by decide) digitMember)
  simp only [isDigit, Bool.and_eq_true, decide_eq_true_eq]
  exact range

theorem decimal_ne_nil (number : ℕ) : decimal number ≠ [] := by
  unfold decimal
  rw [ne_eq, List.map_eq_nil_iff]
  exact Nat.toDigits_ne_nil

/-- A number has at most so many digits when it is below that power of ten. -/
theorem length_decimal_le_iff {number count : ℕ} (positive : 0 < count) :
    (decimal number).length ≤ count ↔ number < 10 ^ count := by
  unfold decimal
  rw [List.length_map]
  exact Nat.length_toDigits_le_iff (by decide) positive

/-! ### Reading integers -/

/-- The error kinds of parsing an integer that can occur for an unsigned one. -/
inductive ParseIntError where
  | empty
  | invalidDigit
  | posOverflow
  deriving DecidableEq, Repr

/-- One more digit of a number below the limit. -/
def readDigit (limit sum unit : ℕ) : Except ParseIntError ℕ :=
  if isDigit unit = false then .error .invalidDigit
  else if limit ≤ 10 * sum then .error .posOverflow
  else if limit ≤ 10 * sum + digitValue unit then .error .posOverflow
  else .ok (10 * sum + digitValue unit)

/-- A number below the limit: a leading plus sign is accepted, a minus sign is not a digit. -/
def readBelow (limit : ℕ) (text : Text) : Except ParseIntError ℕ :=
  match text with
  | [] => .error .empty
  | [unit] =>
    if unit = plusSign ∨ unit = minusSign then .error .invalidDigit
    else [unit].foldlM (readDigit limit) 0
  | unit :: rest =>
    if unit = plusSign then rest.foldlM (readDigit limit) 0
    else (unit :: rest).foldlM (readDigit limit) 0

/-- A plus sign, or nothing. -/
def sign (plus : Bool) : Text :=
  if plus then [plusSign] else []

variable {limit : ℕ}

theorem foldlM_readDigit {text : Text} (digits : AllDigits text) {start : ℕ}
    (small : start < limit) :
    text.foldlM (readDigit limit) start =
      if start * 10 ^ text.length + value text < limit then
        .ok (start * 10 ^ text.length + value text)
      else .error .posOverflow := by
  induction text generalizing start with
  | nil =>
    have same : start * 10 ^ ([] : Text).length + value [] = start := Nat.mul_one start
    rw [same, if_pos small]
    rfl
  | cons unit rest inductionHypothesis =>
    have digit := digits unit List.mem_cons_self
    have shifted : start * 10 ^ (unit :: rest).length + value (unit :: rest) =
        (10 * start + digitValue unit) * 10 ^ rest.length + value rest := by
      rw [value_cons, List.length_cons, pow_succ]
      ring
    have grows : 10 * start + digitValue unit ≤
        (10 * start + digitValue unit) * 10 ^ rest.length + value rest :=
      le_trans (Nat.le_mul_of_pos_right _ (by positivity)) (Nat.le_add_right _ _)
    rw [List.foldlM_cons, shifted]
    by_cases fits : 10 * start + digitValue unit < limit
    · have stepped : readDigit limit start unit = .ok (10 * start + digitValue unit) := by
        unfold readDigit
        rw [if_neg (by rw [digit]; decide), if_neg (by omega), if_neg (by omega)]
      rw [stepped]
      exact inductionHypothesis (fun other member => digits other (List.mem_cons_of_mem _ member))
        fits
    · have stepped : readDigit limit start unit = .error .posOverflow := by
        unfold readDigit
        rw [if_neg (by rw [digit]; decide)]
        split
        · rfl
        · rw [if_pos (by omega)]
      rw [stepped, if_neg (by omega)]
      rfl

theorem allDigits_of_foldlM {text : Text} {start number : ℕ}
    (parsed : text.foldlM (readDigit limit) start = .ok number) : AllDigits text := by
  induction text generalizing start with
  | nil => exact List.forall_mem_nil _
  | cons unit rest inductionHypothesis =>
    rw [List.foldlM_cons] at parsed
    obtain ⟨next, stepped, parsed⟩ := Fallible.bind_eq_ok.mp parsed
    refine List.forall_mem_cons.mpr ⟨?_, inductionHypothesis parsed⟩
    unfold readDigit at stepped
    split at stepped
    · cases stepped
    · rename_i digit
      exact (Bool.not_eq_false _).mp digit

/-- Digits behind an optional plus sign are read as their value, if it fits. -/
theorem readBelow_digits (positive : 0 < limit) (plus : Bool) {digits : Text}
    (nonempty : digits ≠ []) (allDigits : AllDigits digits) :
    readBelow limit (sign plus ++ digits) =
      if value digits < limit then .ok (value digits) else .error .posOverflow := by
  have read := foldlM_readDigit allDigits positive
  rw [Nat.zero_mul, Nat.zero_add] at read
  rw [← read]
  obtain ⟨unit, rest, rfl⟩ := List.exists_cons_of_ne_nil nonempty
  cases plus with
  | true =>
    show (if plusSign = plusSign then (unit :: rest).foldlM (readDigit limit) 0
      else (plusSign :: unit :: rest).foldlM (readDigit limit) 0) = _
    exact if_pos rfl
  | false =>
    have digit := allDigits unit List.mem_cons_self
    have noPlus : unit ≠ plusSign := by rintro rfl; cases digit
    have noMinus : unit ≠ minusSign := by rintro rfl; cases digit
    cases rest with
    | nil =>
      show (if unit = plusSign ∨ unit = minusSign then .error .invalidDigit
        else [unit].foldlM (readDigit limit) 0) = _
      exact if_neg (not_or.mpr ⟨noPlus, noMinus⟩)
    | cons other rest =>
      show (if unit = plusSign then (other :: rest).foldlM (readDigit limit) 0
        else (unit :: other :: rest).foldlM (readDigit limit) 0) = _
      exact if_neg noPlus

/-- What is read as an integer are digits behind an optional plus sign, of a value that fits. -/
theorem readBelow_eq_ok (positive : 0 < limit) {text : Text} {number : ℕ}
    (parsed : readBelow limit text = .ok number) :
    ∃ plus digits, text = sign plus ++ digits ∧ digits ≠ [] ∧ AllDigits digits ∧
      number = value digits ∧ number < limit := by
  have split : ∃ plus digits, text = sign plus ++ digits ∧ digits ≠ [] ∧ AllDigits digits := by
    unfold readBelow at parsed
    split at parsed
    · cases parsed
    · rename_i unit
      split at parsed
      · cases parsed
      · exact ⟨false, [unit], rfl, List.cons_ne_nil _ _, allDigits_of_foldlM parsed⟩
    · rename_i unit rest several
      split at parsed
      · rename_i isPlus
        have nonempty : rest ≠ [] := several
        exact ⟨true, rest, by rw [isPlus]; rfl, nonempty, allDigits_of_foldlM parsed⟩
      · exact ⟨false, unit :: rest, rfl, List.cons_ne_nil _ _, allDigits_of_foldlM parsed⟩
  obtain ⟨plus, digits, rfl, nonempty, allDigits⟩ := split
  rw [readBelow_digits positive plus nonempty allDigits] at parsed
  split at parsed
  · rename_i fits
    cases parsed
    exact ⟨plus, digits, rfl, nonempty, allDigits, rfl, fits⟩
  · cases parsed

/-- A number below the limit is read back from its digits. -/
theorem readBelow_decimal {number : ℕ} (small : number < limit) :
    readBelow limit (decimal number) = .ok number := by
  have read := readBelow_digits (lt_of_le_of_lt (Nat.zero_le number) small) false
    (decimal_ne_nil number) (allDigits_decimal number)
  rw [value_decimal, if_pos small] at read
  exact read

/-! ### Padding and cutting -/

/-- The text with zeros in front of it, up to a length. -/
def padStart (count : ℕ) (text : Text) : Text :=
  List.replicate (count - text.length) zeroDigit ++ text

/-- The text with zeros behind it, up to a length. -/
def padEnd (count : ℕ) (text : Text) : Text :=
  text ++ List.replicate (count - text.length) zeroDigit

/-- The text without the zeros at its end. -/
def trimZeros (text : Text) : Text :=
  text.rdropWhile (· == zeroDigit)

theorem value_padStart (count : ℕ) (text : Text) : value (padStart count text) = value text := by
  unfold padStart
  rw [value_append, value_zeros, Nat.zero_mul, Nat.zero_add]

theorem length_padStart {count : ℕ} {text : Text} (fits : text.length ≤ count) :
    (padStart count text).length = count := by
  unfold padStart
  rw [List.length_append, List.length_replicate, Nat.sub_add_cancel fits]

theorem length_padEnd {count : ℕ} {text : Text} (fits : text.length ≤ count) :
    (padEnd count text).length = count := by
  unfold padEnd
  rw [List.length_append, List.length_replicate, Nat.add_sub_cancel' fits]

theorem value_padEnd (count : ℕ) (text : Text) :
    value (padEnd count text) = value text * 10 ^ (count - text.length) := by
  unfold padEnd
  rw [value_append, value_zeros, List.length_replicate, Nat.add_zero]

theorem allDigits_padStart {count : ℕ} {text : Text} (digits : AllDigits text) :
    AllDigits (padStart count text) :=
  allDigits_append.mpr ⟨allDigits_zeros _, digits⟩

theorem allDigits_padEnd {count : ℕ} {text : Text} (digits : AllDigits text) :
    AllDigits (padEnd count text) :=
  allDigits_append.mpr ⟨digits, allDigits_zeros _⟩

/-- What is trimmed are zeros. -/
theorem trimZeros_append (text : Text) : ∃ count,
    text = trimZeros text ++ List.replicate count zeroDigit := by
  refine ⟨(text.rtakeWhile (· == zeroDigit)).length, ?_⟩
  have zeros : text.rtakeWhile (· == zeroDigit) =
      List.replicate (text.rtakeWhile (· == zeroDigit)).length zeroDigit := by
    refine List.eq_replicate_of_mem fun unit member => ?_
    have isZero := List.mem_rtakeWhile_imp member
    exact eq_of_beq isZero
  rw [← zeros]
  exact List.rdropWhile_append_rtakeWhile.symm

theorem length_trimZeros_le (text : Text) : (trimZeros text).length ≤ text.length := by
  obtain ⟨count, split⟩ := trimZeros_append text
  have lengths := congrArg List.length split
  rw [List.length_append, List.length_replicate] at lengths
  omega

/-- A fraction denotes the same with zeros at its end and without. -/
theorem value_trimZeros (text : Text) :
    value text = value (trimZeros text) * 10 ^ (text.length - (trimZeros text).length) := by
  obtain ⟨count, split⟩ := trimZeros_append text
  have lengths := congrArg List.length split
  rw [List.length_append, List.length_replicate] at lengths
  have values := congrArg value split
  rw [value_append, value_zeros, List.length_replicate, Nat.add_zero] at values
  rw [values, show text.length - (trimZeros text).length = count by omega]

/-- Trimming zeros and adding them again at a length the text has. -/
theorem padEnd_trimZeros (text : Text) : padEnd text.length (trimZeros text) = text := by
  obtain ⟨count, split⟩ := trimZeros_append text
  have lengths := congrArg List.length split
  rw [List.length_append, List.length_replicate] at lengths
  unfold padEnd
  rw [show text.length - (trimZeros text).length = count by omega]
  exact split.symm

/-! ### The parts around points -/

/-- A text has no point, one point, or more parts than two. -/
theorem splitOn_point_cases (text : Text) :
    (point ∉ text ∧ text.splitOn point = [text]) ∨
      (∃ whole fraction, point ∉ whole ∧ point ∉ fraction ∧ text = whole ++ point :: fraction ∧
        text.splitOn point = [whole, fraction]) ∨
      2 < (text.splitOn point).length := by
  by_cases one : point ∈ text
  · obtain ⟨whole, rest, rfl, absent⟩ := List.eq_append_cons_of_mem one
    rw [List.splitOn_append_cons_self_of_not_mem absent]
    by_cases another : point ∈ rest
    · obtain ⟨middle, last, rfl, noPoint⟩ := List.eq_append_cons_of_mem another
      rw [List.splitOn_append_cons_self_of_not_mem noPoint]
      refine Or.inr (Or.inr ?_)
      have nonempty := List.length_pos_iff.mpr (List.splitOn_ne_nil point last)
      rw [List.length_cons, List.length_cons]
      omega
    · rw [List.splitOn_eq_singleton another]
      exact Or.inr (Or.inl ⟨whole, rest, absent, another, rfl, rfl⟩)
  · exact Or.inl ⟨one, List.splitOn_eq_singleton one⟩

end DecimalText
