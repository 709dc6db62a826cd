/-
# The input for amounts

`TokenInput` is a text field with three rules. A new text is checked as it is, but only its first
characters are kept in the field. When editing ends the text of the field is read, if all rules
succeeded, and replaced with the full format of what was read.
-/

import SafeWallet.Formatting.TokenFormatter

namespace SafeWallet

/-- `RuleStatus`. -/
inductive RuleStatus
  | error
  | success
  | inactive
  deriving DecidableEq, Repr

/-- What the input takes from the locale and from the localized strings. -/
structure Locale where
  decimalSeparator : Option (List Char)
  amountMillions : List Char
  amountBillions : List Char
  amountTrillions : List Char
  deriving DecidableEq, Repr

namespace TokenBounds

/-- `TokenBounds.maxTokenValue`. -/
def maxTokenValue : ℤ := 2 ^ 256 - 1

/-- `TokenBounds.minTokenValue`. -/
def minTokenValue : ℤ := 0

/-- `TokenBounds.maxDigitsCount`. -/
def maxDigitsCount : ℕ := (Nat.toDigits 10 maxTokenValue.natAbs).length

/-- `TokenBounds.isWithinBounds(value:)`. -/
def isWithinBounds (value : ℤ) : Bool := minTokenValue ≤ value ∧ value ≤ maxTokenValue

end TokenBounds

/-- The characters of a text in which nothing combines. A carriage return and a line feed are one
of them. -/
def characters : List Char → List (List Char)
  | [] => []
  | '\r' :: '\n' :: rest => ['\r', '\n'] :: characters rest
  | c :: rest => [c] :: characters rest

/-- `TokenInput`, with the text of its field and the status of each rule. -/
structure TokenInput where
  decimals : ℕ
  value : ℤ
  locale : Locale
  text : List Char
  statuses : List RuleStatus
  deriving DecidableEq, Repr

namespace TokenInput

open TokenFormatter

variable (kit : BigIntKit)

/-! ## The rules -/

/-- `valueIsANumber`. -/
def valueIsANumber (decimals : ℕ) (value : List Char) : Bool :=
  (number kit value decimals).isSome

/-- `valueIsNotTooBig`. -/
def valueIsNotTooBig (decimals : ℕ) (value : List Char) : Bool :=
  match number kit value decimals with
  | none => true
  | some number => TokenBounds.isWithinBounds number.value

/-- `notExcededAmountOfFractionalDigits`. -/
def notExcededAmountOfFractionalDigits (decimals : ℕ) (value : List Char) : Bool :=
  match number kit value decimals with
  | none => true
  | some _ =>
    match value.splitOnP (· ∈ decimalSeparators) with
    | [_, fraction] => (characters (removingTrailingZeroes fraction)).length ≤ decimals
    | _ => true

/-- `addDefaultValidationsRules`. -/
def rules (decimals : ℕ) : List (List Char → Bool) :=
  [valueIsNotTooBig kit decimals, notExcededAmountOfFractionalDigits kit decimals,
    valueIsANumber kit decimals]

/-- All rules accept a text. -/
def Accepts (decimals : ℕ) (text : List Char) : Prop :=
  ∀ rule ∈ rules kit decimals, rule text = true

instance (decimals : ℕ) (text : List Char) : Decidable (Accepts kit decimals text) :=
  decidable_of_iff ((rules kit decimals).all (· text) = true) List.all_eq_true

/-! ## The text -/

/-- `isValid`. -/
def isValid (input : TokenInput) : Bool := input.statuses.all (· = .success)

/-- `RuleLabel.validate(_:)`. -/
def validate (text : List Char) (rule : List Char → Bool) : RuleStatus :=
  if (rule text) = true then .success else .error

/-- `validateRules(for:)`. -/
def validateRules (input : TokenInput) (text : List Char) : TokenInput :=
  if text = [] then
    { input with statuses := (rules kit input.decimals).map fun _ => .inactive }
  else { input with statuses := (rules kit input.decimals).map (validate text) }

/-- `safeUserInput`. -/
def safeUserInput (text : List Char) : List Char :=
  ((characters text).take TokenBounds.maxDigitsCount).flatten

/-- A new text for the field. -/
def setText (input : TokenInput) (text : List Char) : TokenInput :=
  validateRules kit { input with text := safeUserInput text } text

/-- `stringValue`. -/
def stringValue (input : TokenInput) : Trapping (Option (List Char)) :=
  string kit .cutoff
    { decimalSeparator := input.locale.decimalSeparator.getD ['.']
      thousandSeparator := []
      millions := input.locale.amountMillions
      billions := input.locale.amountBillions
      trillions := input.locale.amountTrillions
      forcePlusSign := false } false 1 ⟨input.value, input.decimals⟩

/-- `textFieldDidEndEditing`. -/
def textFieldDidEndEditing (input : TokenInput) : Trapping (Option TokenInput) :=
  if input.isValid ∧ input.text ≠ [] then do
    let value := ((number kit input.text input.decimals).map (·.value)).getD 0
    let input := { input with value }
    let text ← stringValue kit input
    return text.map fun text => { input with text }
  else return some { input with value := 0 }

end TokenInput

end SafeWallet
