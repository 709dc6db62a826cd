/-
# The token formatter

`TokenFormatter` reads and writes amounts of tokens. Reading splits a text at its last decimal
separator and reads both parts as integers. Writing works on the digits of the amount: it cuts
them at the precision, keeps as many of the fractional digits as the format shows, and groups the
integer part. Rounding up builds a new number from the digits and formats that one instead.
-/

import Mathlib.Data.Int.Notation
import SafeWallet.Base.Separators
import SafeWallet.Base.Trapping
import SafeWallet.Formatting.Digits

namespace SafeWallet

/-- `BigDecimal`: an integer with a number of digits behind the point. -/
structure BigDecimal where
  value : ℤ
  precision : ℕ
  deriving DecidableEq, Repr

/-- Digits with an optional sign in front, and the number they denote. No digits denote zero. -/
inductive Signed : List Char → ℤ → Prop
  | plain {digits : List Char} (h : Digits.AllDigits digits) :
      Signed digits (Digits.value digits)
  | plus {digits : List Char} (h : Digits.AllDigits digits) :
      Signed ('+' :: digits) (Digits.value digits)
  | minus {digits : List Char} (h : Digits.AllDigits digits) :
      Signed ('-' :: digits) (-(Digits.value digits : ℤ))

/-- What the formatter uses of the big integers: `BigInt(_:)` and `power(_:)`. The texts that are
read are the documented ones, digits with at most one sign; the library also reads some with two
signs, such as `++5`. -/
structure BigIntKit where
  parse : List Char → Option ℤ
  parse_iff : ∀ text number, parse text = some number ↔ Signed text number
  power : ℤ → ℤ → ℤ
  power_natCast : ∀ (base : ℤ) (exponent : ℕ), power base exponent = base ^ exponent
  power_neg : ∀ base exponent : ℤ, 1 < base → exponent < 0 → power base exponent = 0

/-- `removingTrailingZeroes`. -/
def removingTrailingZeroes (text : List Char) : List Char := text.rdropWhile (· = '0')

/-- `CharacterSet.whitespacesAndNewlines`. -/
def isWhitespaceOrNewline (c : Char) : Bool :=
  (0x9 ≤ c.toNat ∧ c.toNat ≤ 0xd) ∨ (0x2000 ≤ c.toNat ∧ c.toNat ≤ 0x200a) ∨
    c.toNat ∈ [0x20, 0x85, 0xa0, 0x1680, 0x2028, 0x2029, 0x202f, 0x205f, 0x3000]

/-- `trimmingCharacters(in: .whitespacesAndNewlines)`. -/
def trimmed (text : List Char) : List Char :=
  (text.dropWhile isWhitespaceOrNewline).rdropWhile isWhitespaceOrNewline

namespace TokenFormatter

/-- `decimalSeparators`. -/
def decimalSeparators : List Char := ".,٫".toList

/-! ## Reading -/

/-- The text without white space at its ends and without spaces. -/
def spaceless (input : List Char) : List Char := (trimmed input).filter (· ≠ ' ')

/-- The number with an integer part and a fractional part. -/
def assembled (kit : BigIntKit) (integer fraction : List Char) (precision : ℕ) :
    Option BigDecimal := do
  let fractional := removingTrailingZeroes fraction
  let integerNumber ← kit.parse integer
  let fractionalNumber ← kit.parse fractional
  return ⟨integerNumber * kit.power 10 precision +
    fractionalNumber * kit.power 10 (precision - fractional.length), precision⟩

/-- `number(from:precision:)`. Of several separators only the last one is the decimal point. -/
def number (kit : BigIntKit) (input : List Char) (precision : ℕ) : Option BigDecimal :=
  if spaceless input = ['0'] then some ⟨0, precision⟩
  else
    match (spaceless input).splitOnP (· ∈ decimalSeparators) with
    | [] => some ⟨0, precision⟩
    | [integer] => assembled kit integer ['0'] precision
    | parts => assembled kit parts.dropLast.flatten (parts.getLast?.getD []) precision

/-! ## Writing -/

/-- `RoundingBehavior`. -/
inductive RoundingBehavior
  | cutoff
  | roundUp
  deriving DecidableEq, Repr

/-- The separators, the literals and the display of the sign. -/
structure Style where
  decimalSeparator : List Char
  thousandSeparator : List Char
  millions : List Char
  billions : List Char
  trillions : List Char
  forcePlusSign : Bool
  deriving DecidableEq, Repr

/-- The defaults. -/
def Style.default : Style where
  decimalSeparator := ['.']
  thousandSeparator := [',']
  millions := ['M']
  billions := ['B']
  trillions := ['T']
  forcePlusSign := false

/-- The boundaries of `groups(string:size:)`, counted from the end of the text. -/
def groupBoundaries (count size : ℕ) : List ℕ :=
  (List.range ((count + size - 1) / size)).map (· * size) ++ [count]

/-- `groups(string:size:)`. -/
def groups (text : List Char) (size : ℕ) : List (List Char) :=
  if text.length ≤ size then [text]
  else Digits.pieces text (groupBoundaries text.length size)

variable (kit : BigIntKit) (behavior : RoundingBehavior) (style : Style)

/-- The digits of a number, filled up with zeros in front of the point. -/
def numberString (number : BigDecimal) : List Char :=
  let digits := Nat.toDigits 10 number.value.natAbs
  List.replicate (number.precision + 1 - digits.length) '0' ++ digits

/-- The digits behind the point. -/
def fractional (number : BigDecimal) : List Char := (numberString number).rtake number.precision

/-- The digits in front of the point. -/
def integer (number : BigDecimal) : List Char :=
  (numberString number).take ((numberString number).length - (fractional number).length)

/-- The number with the kept digits that is larger by one unit, if digits that are not zero are
left out and the formatter rounds up. -/
def roundedUp (kept remainder : List Char) : Trapping (Option ℤ) :=
  let zeroRemainder := List.replicate remainder.length '0'
  if behavior = .roundUp ∧ remainder ≠ [] ∧ remainder ≠ zeroRemainder then do
    let number ← Trapping.unwrap (kit.parse (kept ++ zeroRemainder))
    let roundUpUnit ← Trapping.unwrap (kit.parse ('1' :: zeroRemainder))
    return some (number + roundUpUnit)
  else return none

/-- The sign in front of a magnitude. -/
def sign (isNegative : Bool) (magnitude : List Char) : List Char :=
  if magnitude = ['0'] then []
  else if isNegative then ['-']
  else if style.forcePlusSign then ['+']
  else []

/-- Sign, magnitude and literal. -/
def finished (isNegative : Bool) (integer fractional literal : List Char) : List Char :=
  let fractional := removingTrailingZeroes fractional
  let integerGroupped := Separated.joined style.thousandSeparator (groups integer 3)
  let magnitude := if fractional = [] then integerGroupped
    else integerGroupped ++ style.decimalSeparator ++ fractional
  sign style isNegative magnitude ++ magnitude ++ literal

/-- The text for numbers that are too large. -/
def overflow (isNegative : Bool) : List Char :=
  if isNegative then "< -999".toList ++ style.trillions
  else "> ".toList ++ (if style.forcePlusSign then ['+'] else []) ++ "999".toList ++ style.trillions

/-- One pass ends with the text, or formats another number of the same precision. -/
inductive Pass
  | done (text : List Char)
  | again (newNumber : ℤ)
  deriving DecidableEq, Repr

/-- A number that is shown with its own integer part. -/
def unabbreviated (number : BigDecimal) : Trapping Pass := do
  let fractionalDigitCount := min (8 - (integer number).length) 5
  let cutoffFractional := (fractional number).take fractionalDigitCount
  let remainder :=
    (fractional number).rtake ((fractional number).length - cutoffFractional.length)
  match ← roundedUp kit behavior (integer number ++ cutoffFractional) remainder with
  | some newNumber => return .again newNumber
  | none => return .done (finished style (number.value < 0) (integer number)
      (removingTrailingZeroes cutoffFractional) [])

/-- A number that is shown in units of a power of ten. -/
def abbreviated (degree : ℕ) (literal : List Char) (number : BigDecimal) : Trapping Pass := do
  let cutoffFractional := ((integer number).rtake degree).take 3
  let newInteger := (integer number).take ((integer number).length - degree)
  let remainder := (integer number).rtake (degree - 3) ++ fractional number
  match ← roundedUp kit behavior (newInteger ++ cutoffFractional) remainder with
  | some newNumber => return .again newNumber
  | none => return .done (finished style (number.value < 0) newInteger cutoffFractional literal)

/-- One pass of `string(from:…)`. -/
def pass (shortFormat : Bool) (number : BigDecimal) : Trapping Pass :=
  if shortFormat then
    if (integer number).length ≤ 8 then unabbreviated kit behavior style number
    else if (integer number).length = 9 then abbreviated kit behavior style 6 style.millions number
    else if (integer number).length < 13 then abbreviated kit behavior style 9 style.billions number
    else if (integer number).length < 16 then abbreviated kit behavior style 12 style.trillions number
    else return .done (overflow style (number.value < 0))
  else return .done (finished style (number.value < 0) (integer number) (fractional number) [])

/-- `string(from:decimalSeparator:thousandSeparator:literals:forcePlusSign:shortFormat:)`, with at
most so many passes. -/
def string (shortFormat : Bool) : ℕ → BigDecimal → Trapping (Option (List Char))
  | 0, _ => return none
  | passes + 1, number => do
    match ← pass kit behavior style shortFormat number with
    | .done text => return some text
    | .again newNumber => string shortFormat passes ⟨newNumber, number.precision⟩

end TokenFormatter

end SafeWallet
