/-
# Unsigned literals

An unsigned literal is digits with at most one separator, and spaces anywhere. It is read as the
number it denotes if the precision has room for its fraction. If not, the whole fraction is lost
and not only the digits that do not fit. A minus in front is read as part of the integer part and
so does not reach the fraction, and a sign is accepted wherever a part starts.
-/

import SafeWallet.Formatting.NumberParsing

namespace SafeWallet

open Digits

namespace TokenFormatter

/-- Digits, with or without a separator and more digits, and spaces. -/
inductive Literal : List Char → List Char → List Char → Prop
  | whole {text : List Char} (h : AllDigits (text.filter (· ≠ ' '))) :
      Literal text (text.filter (· ≠ ' ')) []
  | point {text integer fraction : List Char} {sep : Char} (hsep : sep ∈ decimalSeparators)
      (htext : text.filter (· ≠ ' ') = integer ++ sep :: fraction) (hinteger : AllDigits integer)
      (hfraction : AllDigits fraction) : Literal text integer fraction

variable {kit : BigIntKit} {text integer fraction : List Char} {precision : ℕ}

namespace Literal

theorem allDigits_integer (h : Literal text integer fraction) : AllDigits integer := by
  cases h with
  | whole hdigits => exact hdigits
  | point _ _ hinteger _ => exact hinteger

theorem allDigits_fraction (h : Literal text integer fraction) : AllDigits fraction := by
  cases h with
  | whole => exact allDigits_nil
  | point _ _ _ hfraction => exact hfraction

/-- Without its spaces a literal has digits and at most one separator. -/
theorem digit_or_separator (h : Literal text integer fraction) :
    ∀ c ∈ text.filter (· ≠ ' '), c.isDigit = true ∨ c ∈ decimalSeparators := by
  intro c hc
  cases h with
  | whole hdigits => exact .inl (hdigits c hc)
  | point hsep htext hinteger hfraction =>
      rw [htext, List.mem_append, List.mem_cons] at hc
      obtain hc | rfl | hc := hc
      · exact .inl (hinteger c hc)
      · exact .inr hsep
      · exact .inl (hfraction c hc)

theorem spaceless_eq (h : Literal text integer fraction) :
    spaceless text = text.filter (· ≠ ' ') := by
  apply spaceless_eq_filter
  intro c hc
  obtain hdigit | hsep := h.digit_or_separator c hc
  · exact not_white_of_isDigit hdigit
  · exact not_white_of_separator hsep

/-- The parts of a literal are its digits. -/
theorem parts (h : Literal text integer fraction) :
    integerPart (spaceless text) = integer ∧ fractionPart (spaceless text) = fraction := by
  rw [h.spaceless_eq]
  cases h with
  | whole hdigits =>
      have hplain := fun c hc => not_separator_of_isDigit (hdigits c hc)
      exact ⟨integerPart_of_unseparated hplain, fractionPart_of_unseparated hplain⟩
  | point hsep htext hinteger hfraction =>
      have hplain := fun c hc => not_separator_of_isDigit (hfraction c hc)
      rw [htext, integerPart_append hsep hplain, fractionPart_append hsep hplain,
        List.filter_eq_self.mpr]
      · exact ⟨rfl, rfl⟩
      · intro c hc
        simpa using not_separator_of_isDigit (hinteger c hc)

/-- Every literal is read, but digits beyond the precision count nothing. -/
theorem number_eq_some (h : Literal text integer fraction) :
    number kit text precision = some ⟨value integer * 10 ^ precision +
      value (removingTrailingZeroes fraction) *
        unit precision (removingTrailingZeroes fraction).length, precision⟩ := by
  obtain ⟨hinteger, hfraction⟩ := h.parts
  have hdigits : AllDigits (removingTrailingZeroes fraction) :=
    h.allDigits_fraction.sublist (List.rdropWhile_prefix _ fraction).sublist
  rw [number_eq_some_iff, hinteger, hfraction]
  exact ⟨_, _, .plain h.allDigits_integer, .plain hdigits, rfl⟩

end Literal

/-! ## Truncation -/

/-- A literal is read as its value with so many digits behind the point. -/
def Truncates (kit : BigIntKit) (text integer fraction : List Char) (precision : ℕ) : Prop :=
  number kit text precision = some ⟨⌊decimal integer fraction * 10 ^ precision⌋, precision⟩

theorem truncates_iff_value (h : Literal text integer fraction) :
    Truncates kit text integer fraction precision ↔
      (value integer * 10 ^ precision + value (removingTrailingZeroes fraction) *
        unit precision (removingTrailingZeroes fraction).length : ℤ) =
          ⌊decimal integer fraction * 10 ^ precision⌋ := by
  rw [Truncates, h.number_eq_some, Option.some.injEq, BigDecimal.mk.injEq]
  simp only [and_true]

theorem truncates_of_fits (h : Literal text integer fraction)
    (hfits : (removingTrailingZeroes fraction).length ≤ precision) :
    Truncates kit text integer fraction precision := by
  rw [truncates_iff_value h, ← decimal_rdropWhile, unit, if_pos hfits]
  have hdecimal := @decimal_mul_of_le integer _ _ hfits
  rw [removingTrailingZeroes] at hdecimal ⊢
  rw [hdecimal, Int.floor_natCast]
  push_cast
  rfl

/-- Of a fraction that does not fit nothing is left. -/
theorem truncates_iff_of_lt (h : Literal text integer fraction)
    (hlong : precision < (removingTrailingZeroes fraction).length) :
    Truncates kit text integer fraction precision ↔ ∀ c ∈ fraction.take precision, c = '0' := by
  have hfront : removingTrailingZeroes fraction <+: fraction := List.rdropWhile_prefix _ fraction
  have hdigits : AllDigits (removingTrailingZeroes fraction) :=
    h.allDigits_fraction.sublist hfront.sublist
  have htake : (removingTrailingZeroes fraction).take precision = fraction.take precision := by
    obtain ⟨zeros, hzeros⟩ := hfront
    have hkept := @List.take_append_of_le_length _ _ zeros _ hlong.le
    rw [hzeros] at hkept
    exact hkept.symm
  have hfloor := @floor_decimal_mul integer _ _ hdigits hlong.le
  rw [htake, removingTrailingZeroes, decimal_rdropWhile] at hfloor
  rw [truncates_iff_value h, unit, if_neg (by omega), hfloor, ← value_eq_zero_iff
    (h.allDigits_fraction.sublist (List.take_sublist _ _))]
  omega

/-- Exactly the fractions that fit, up to zeros at the end, and those that start with zeros up to
the precision are read as they should be. -/
theorem truncates_iff (h : Literal text integer fraction) :
    Truncates kit text integer fraction precision ↔
      (removingTrailingZeroes fraction).length ≤ precision ∨
        ∀ c ∈ fraction.take precision, c = '0' := by
  by_cases hfits : (removingTrailingZeroes fraction).length ≤ precision
  · simp only [hfits, true_or, iff_true]
    exact truncates_of_fits h hfits
  · simp only [hfits, false_or]
    exact truncates_iff_of_lt h (Nat.lt_of_not_le hfits)

/-- A fraction that fits. -/
theorem oneAndAHalf_truncates :
    Truncates decimalKit "1.5".toList ['1'] ['5'] 3 :=
  (truncates_iff (.point (by decide : '.' ∈ decimalSeparators) (by decide) (by decide)
    (by decide))).mpr (.inl (by decide))

/-- Of four digits behind the point none is left when there is room for three. -/
theorem fourDigits_not_truncates :
    ¬ Truncates decimalKit "0.1234".toList ['0'] "1234".toList 3 := by
  have hliteral : Literal "0.1234".toList ['0'] "1234".toList :=
    .point (by decide : '.' ∈ decimalSeparators) (by decide) (by decide) (by decide)
  rw [truncates_iff_of_lt hliteral (by decide)]
  intro hzeros
  exact absurd (hzeros '1' (by decide)) (by decide)

/-! ## Signs -/

/-- The number with the other sign. -/
def negated (number : BigDecimal) : BigDecimal := ⟨-number.value, number.precision⟩

/-- A minus in front of a literal that fits negates it. -/
def NegatesLiterals (kit : BigIntKit) (text : List Char) (precision : ℕ) : Prop :=
  ∀ unsigned integer fraction, text = '-' :: unsigned → Literal unsigned integer fraction →
    fraction.length ≤ precision →
      number kit text precision = (number kit unsigned precision).map negated

/-- A sign behind the first character. -/
def HasInnerSign (text : List Char) : Prop := ∃ c ∈ (spaceless text).tail, c = '+' ∨ c = '-'

/-- Both rules for signs. -/
structure HandlesSigns (kit : BigIntKit) (text : List Char) (precision : ℕ) : Prop where
  negates : NegatesLiterals kit text precision
  rejects : HasInnerSign text → number kit text precision = none

/-- The minus is read with the integer part. -/
theorem number_minus_eq_some (h : Literal text integer fraction) :
    number kit ('-' :: text) precision = some ⟨-(value integer : ℤ) * 10 ^ precision +
      value (removingTrailingZeroes fraction) *
        unit precision (removingTrailingZeroes fraction).length, precision⟩ := by
  have hfilter : ('-' :: text).filter (· ≠ ' ') = '-' :: text.filter (· ≠ ' ') := rfl
  have hspaceless : spaceless ('-' :: text) = '-' :: spaceless text := by
    rw [h.spaceless_eq, ← hfilter]
    apply spaceless_eq_filter
    intro c hc
    rw [hfilter] at hc
    obtain rfl | hc := List.mem_cons.mp hc
    · decide
    · obtain hdigit | hsep := h.digit_or_separator c hc
      · exact not_white_of_isDigit hdigit
      · exact not_white_of_separator hsep
  have hparts := parts_cons (by decide : '-' ∉ decimalSeparators) (spaceless text)
  have hdigits : AllDigits (removingTrailingZeroes fraction) :=
    h.allDigits_fraction.sublist (List.rdropWhile_prefix _ fraction).sublist
  rw [number_eq_some_iff, hspaceless, hparts.1, hparts.2, h.parts.1, h.parts.2]
  exact ⟨_, _, .minus h.allDigits_integer, .plain hdigits, rfl⟩

/-- Only the integer part changes its sign. -/
theorem negates_iff (h : Literal text integer fraction) (hfits : fraction.length ≤ precision) :
    number kit ('-' :: text) precision = (number kit text precision).map negated ↔
      ∀ c ∈ fraction, c = '0' := by
  have hshort : (removingTrailingZeroes fraction).length ≤ precision :=
    (List.rdropWhile_prefix _ fraction).length_le.trans hfits
  have hpow : (0 : ℤ) < 10 ^ (precision - (removingTrailingZeroes fraction).length) := by positivity
  have hvalue : value (removingTrailingZeroes fraction) = 0 ↔ value fraction = 0 := by
    rw [value_eq_value_rdropWhile fraction, ← removingTrailingZeroes]
    simp
  rw [number_minus_eq_some h, h.number_eq_some, Option.map_some, Option.some.injEq, negated,
    BigDecimal.mk.injEq, unit, if_pos hshort, ← value_eq_zero_iff h.allDigits_fraction, ← hvalue]
  constructor
  · rintro ⟨hequal, -⟩
    have hdouble : (value (removingTrailingZeroes fraction) : ℤ) *
        10 ^ (precision - (removingTrailingZeroes fraction).length) = 0 := by
      linarith
    rcases mul_eq_zero.mp hdouble with hzero | hzero
    · exact_mod_cast hzero
    · omega
  · intro hzero
    simp [hzero]

/-- Signs are read as they should be exactly if the fraction of a negated literal is zero, and the
parts of a text with another sign are not both signed digits. -/
theorem handlesSigns_iff :
    HandlesSigns kit text precision ↔
      (∀ unsigned integer fraction, text = '-' :: unsigned → Literal unsigned integer fraction →
        fraction.length ≤ precision → ∀ c ∈ fraction, c = '0') ∧
      (HasInnerSign text →
        ¬(IsSigned (integerPart (spaceless text)) ∧ IsSigned (fractionPart (spaceless text)))) := by
  constructor
  · rintro ⟨hnegates, hrejects⟩
    constructor
    · rintro unsigned integer fraction rfl hliteral hfits
      exact (negates_iff hliteral hfits).mp (hnegates _ _ _ rfl hliteral hfits)
    · intro hinner
      rw [← @number_isSome_iff kit text precision, hrejects hinner]
      exact Bool.false_ne_true
  · rintro ⟨hzeros, hparts⟩
    constructor
    · rintro unsigned integer fraction rfl hliteral hfits
      exact (negates_iff hliteral hfits).mpr (hzeros _ _ _ rfl hliteral hfits)
    · intro hinner
      have := hparts hinner
      rwa [← @number_isSome_iff kit text precision, Option.not_isSome_iff_eq_none] at this

/-- The fraction of a negated literal counts as positive, and a sign behind the point is read. -/
theorem minusOneHalf_not_handlesSigns :
    ¬ HandlesSigns decimalKit "-0.5".toList 3 ∧ ¬ HandlesSigns decimalKit "1.-5".toList 3 := by
  constructor
  · intro h
    have hliteral : Literal "0.5".toList ['0'] ['5'] :=
      .point (by decide : '.' ∈ decimalSeparators) (by decide) (by decide) (by decide)
    have hfraction := (negates_iff hliteral (by decide)).mp
      (h.negates _ _ _ rfl hliteral (by decide))
    exact absurd (hfraction '5' (by decide)) (by decide)
  · intro h
    have hnone := h.rejects ⟨'-', by decide, .inr rfl⟩
    exact absurd hnone (by decide)

end TokenFormatter

end SafeWallet
