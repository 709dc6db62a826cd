/-
# The full format is read back

In full format a number is written with all its digits. Without signs, and with groups that are
separated by spaces or not at all, the text is an unsigned literal, and its fraction fits the
precision.
-/

import SafeWallet.Formatting.Literals
import SafeWallet.Formatting.Magnitude

namespace SafeWallet

open Digits

namespace TokenFormatter

/-- The point is a separator that is read, and groups are separated by a space or not at all. -/
structure Style.Readable (style : Style) : Prop where
  point : ∃ sep ∈ decimalSeparators, style.decimalSeparator = [sep]
  groups : style.thousandSeparator = [' '] ∨ style.thousandSeparator = []
  unsigned : style.forcePlusSign = false

variable {kit : BigIntKit} {behavior : RoundingBehavior} {style : Style} {number : BigDecimal}
  {integer fraction : List Char}

theorem sign_of_nonneg (hplus : style.forcePlusSign = false) (magnitude : List Char) :
    sign style false magnitude = [] := by
  rw [sign, hplus]
  split <;> rfl

theorem filter_allDigits {digits : List Char} (h : AllDigits digits) :
    digits.filter (· ≠ ' ') = digits := by
  rw [List.filter_eq_self]
  intro c hc
  rw [decide_eq_true_eq]
  rintro rfl
  exact absurd (h _ hc) (by decide)

/-- What is written without a sign is a literal. -/
theorem literal_finished (hstyle : style.Readable) (hinteger : AllDigits integer)
    (hfraction : AllDigits fraction) :
    Literal (finished style false integer fraction []) integer
      (removingTrailingZeroes fraction) := by
  obtain ⟨⟨sep, hsep, hpoint⟩, hgroups, hplus⟩ := hstyle
  have hempty : style.thousandSeparator.filter (· ≠ ' ') = [] := by
    obtain hspace | hnothing := hgroups
    · rw [hspace]
      rfl
    · rw [hnothing]
      rfl
  have hjoined : (Separated.joined style.thousandSeparator (groups integer 3)).filter (· ≠ ' ') =
      integer := by
    rw [filter_joined hempty, flatten_groups (by decide), filter_allDigits hinteger]
  have hdigits : AllDigits (removingTrailingZeroes fraction) :=
    hfraction.sublist (List.rdropWhile_prefix _ fraction).sublist
  rw [finished, sign_of_nonneg hplus, List.nil_append, List.append_nil]
  split
  case isTrue hnone =>
      have hwhole : Literal _ _ [] := .whole (by rwa [hjoined])
      rwa [hjoined, ← hnone] at hwhole
  case isFalse =>
      refine .point hsep ?_ hinteger hdigits
      have hkept : [sep].filter (· ≠ ' ') = [sep] := by
        have hall : decimalSeparators.all (· ≠ ' ') = true := by decide
        simpa using List.all_eq_true.mp hall sep hsep
      rw [hpoint, List.filter_append, List.filter_append, hjoined, hkept, filter_allDigits hdigits,
        List.append_assoc, List.singleton_append]

/-- The text in full format. -/
theorem string_full (passes : ℕ) (number : BigDecimal) :
    string kit behavior style false (passes + 1) number = .ok (some (finished style
      (number.value < 0) (TokenFormatter.integer number) (fractional number) [])) := rfl

/-- Leaving out the zeros at the end of the fraction does not change what is read. -/
theorem value_scaled (number : BigDecimal) :
    value (TokenFormatter.integer number) * 10 ^ number.precision +
        value (removingTrailingZeroes (fractional number)) *
          10 ^ (number.precision - (removingTrailingZeroes (fractional number)).length) =
      number.value.natAbs := by
  have hzeros := value_eq_value_rdropWhile (fractional number)
  rw [length_fractional] at hzeros
  rw [removingTrailingZeroes, ← hzeros, ← length_fractional number, ← value_append,
    value_integer_append_fractional]

/-- What is written in full format is read back. -/
theorem number_finished (hstyle : style.Readable) (hvalue : 0 ≤ number.value) :
    TokenFormatter.number kit (finished style (number.value < 0) (TokenFormatter.integer number)
      (fractional number) []) number.precision = some number := by
  have hpositive : decide (number.value < 0) = false := decide_eq_false (not_lt.mpr hvalue)
  have hliteral := literal_finished hstyle (allDigits_integer number) (allDigits_fractional number)
  have hfits : (removingTrailingZeroes (fractional number)).length ≤ number.precision := by
    rw [← length_fractional number]
    exact (List.rdropWhile_prefix _ _).length_le
  have htwice : removingTrailingZeroes (removingTrailingZeroes (fractional number)) =
      removingTrailingZeroes (fractional number) := List.rdropWhile_idempotent _ _
  have hscaled := value_scaled number
  zify at hscaled
  rw [hpositive, hliteral.number_eq_some, htwice, unit, if_pos hfits, hscaled, abs_of_nonneg hvalue]

/-- A number that is not negative is read back from its full format. -/
theorem fullFormat_roundTrip (hvalue : 0 ≤ number.value) (hpoint : style.decimalSeparator = ['.'])
    (hgroups : style.thousandSeparator = [' '] ∨ style.thousandSeparator = [])
    (hplus : style.forcePlusSign = false) (passes : ℕ) :
    ∃ text, string kit behavior style false (passes + 1) number = .ok (some text) ∧
      TokenFormatter.number kit text number.precision = some number :=
  ⟨_, string_full passes number,
    number_finished ⟨⟨'.', by decide, hpoint⟩, hgroups, hplus⟩ hvalue⟩

/-- An amount smaller than one. -/
theorem oneTenThousandth_roundTrip :
    ∃ text, string decimalKit .cutoff ⟨['.'], [' '], ['M'], ['B'], ['T'], false⟩ false 1 ⟨1000, 7⟩ =
        .ok (some text) ∧
      TokenFormatter.number decimalKit text 7 = some ⟨1000, 7⟩ :=
  @fullFormat_roundTrip decimalKit .cutoff ⟨['.'], [' '], ['M'], ['B'], ['T'], false⟩ ⟨1000, 7⟩
    (by decide) rfl (.inl rfl) rfl 0

end TokenFormatter

end SafeWallet
