/-
# Integers as decimal text

`String(_:)` writes an integer in base ten with a minus sign in front of a negative one;
the readers accept a sign of either kind and at least one digit.
-/

import Mathlib.Data.Int.Notation
import Mathlib.Tactic.Common

namespace SafeWallet

namespace Decimal

/-- `String(_:)` of an integer. -/
def text : ℤ → List Char
  | .ofNat n => Nat.toDigits 10 n
  | .negSucc n => '-' :: Nat.toDigits 10 (n + 1)

/-- The number that a text of digits denotes. -/
def natural (digits : List Char) : Option ℕ :=
  if digits ≠ [] ∧ digits.all Char.isDigit then some (Nat.ofDigitChars 10 digits 0) else none

/-- The number that digits with an optional sign denote. -/
def integer : List Char → Option ℤ
  | '-' :: digits => (natural digits).map fun n => -(n : ℤ)
  | '+' :: digits => (natural digits).map fun n => (n : ℤ)
  | digits => (natural digits).map fun n => (n : ℤ)

theorem natural_toDigits (n : ℕ) : natural (Nat.toDigits 10 n) = some n := by
  have hdigits : (Nat.toDigits 10 n).all Char.isDigit = true :=
    List.all_eq_true.mpr fun c hc => Nat.isDigit_of_mem_toDigits (by decide) (by decide) hc
  rw [natural, if_pos ⟨Nat.toDigits_ne_nil, hdigits⟩, Nat.ofDigitChars_ten_toDigits]

/-- What is written is read back. -/
theorem integer_text (value : ℤ) : integer (text value) = some value := by
  cases value with
  | negSucc n =>
      rw [text, integer, natural_toDigits]
      rfl
  | ofNat n =>
      -- The first character is a digit, so neither sign is met.
      have hhead : ∀ c ∈ Nat.toDigits 10 n, c.isDigit :=
        fun c hc => Nat.isDigit_of_mem_toDigits (by decide) (by decide) hc
      have hvalue := natural_toDigits n
      rw [text]
      unfold integer
      split
      · rename_i heq
        exact absurd (hhead '-' (by rw [heq]; exact List.mem_cons_self)) (by decide)
      · rename_i heq
        exact absurd (hhead '+' (by rw [heq]; exact List.mem_cons_self)) (by decide)
      · rw [hvalue]
        rfl

end Decimal

end SafeWallet
