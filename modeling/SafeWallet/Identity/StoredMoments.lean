/-
# Moments in a database

A moment is a `Double` number of seconds since a reference date. The columns of the dates are
declared as texts, so the database writes a number that is bound to one of them with fifteen
digits, and what is read back is the number of this text. The columns of durations are declared
as numbers and keep them.

How the database finds the digits is not modelled; it is only known that what is read back
is near. With the rounding of a sum, a duration after a stored moment is a little off. The
numbers are finite, and the bounds of their exponents are left out.
-/

import SafeWallet.Base.Rounding

namespace SafeWallet

/-- A duration, or a moment by the seconds since the reference date. -/
abbrev TimeInterval := Double

/-- A column of texts in which moments are kept. -/
structure TextColumn where
  /-- What is read back of a moment that was bound. -/
  stored : TimeInterval → TimeInterval
  near : ∀ time, |(stored time).value - time.value| ≤ 1 / 10 ^ 14 * |time.value|

namespace TextColumn

/-- How far a duration after a stored moment can be from the exact one. -/
def slack (time duration : TimeInterval) : ℚ := 2 / 10 ^ 14 * (|time.value| + |duration.value|)

theorem abs_stored_add_sub_le (column : TextColumn) (time duration : TimeInterval) :
    |(column.stored time + duration).value - (time.value + duration.value)| ≤
      slack time duration := by
  have hstored := column.near time
  have hsum := DigitFormat.Number.abs_value_add_sub_le (column.stored time) duration
  have hprecision : binary64.precision = 1 / 2 ^ 53 := by norm_num [DigitFormat.precision, binary64]
  have hsize : |(column.stored time).value| ≤ (1 + 1 / 10 ^ 14) * |time.value| := by
    have hle := abs_sub_abs_le_abs_sub (column.stored time).value time.value
    linarith
  have hterms := abs_add_le (column.stored time).value duration.value
  have htriangle := abs_sub_le (column.stored time + duration).value
    ((column.stored time).value + duration.value) (time.value + duration.value)
  have hshift : (column.stored time).value + duration.value - (time.value + duration.value) =
      (column.stored time).value - time.value := by ring
  rw [hprecision] at hsum
  rw [hshift] at htriangle
  have htime := abs_nonneg time.value
  have hduration := abs_nonneg duration.value
  rw [slack]
  linarith

end TextColumn

/-- Fifteen decimal digits. -/
def fifteenDigits : DigitFormat := ⟨10, 15, .halfUp, by decide, by decide⟩

/-- The column whose texts are the moments rounded to fifteen digits. -/
def TextColumn.printed : TextColumn where
  stored time := .ofRat binary64 (fifteenDigits.round time.value)
  near time := by
    have hprinted := fifteenDigits.abs_round_sub_le time.value
    have hread := binary64.abs_round_sub_le (fifteenDigits.round time.value)
    have hten : fifteenDigits.precision = 1 / (2 * 10 ^ 14) := by
      norm_num [DigitFormat.precision, fifteenDigits]
    have htwo : binary64.precision = 1 / 2 ^ 53 := by norm_num [DigitFormat.precision, binary64]
    have hsize := abs_sub_abs_le_abs_sub (fifteenDigits.round time.value) time.value
    have htriangle := abs_sub_le (binary64.round (fifteenDigits.round time.value))
      (fifteenDigits.round time.value) time.value
    have htime := abs_nonneg time.value
    rw [hten] at hprinted
    rw [htwo] at hread
    change |binary64.round (fifteenDigits.round time.value) - time.value| ≤ _
    linarith

end SafeWallet
