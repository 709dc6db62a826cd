/-
# The short format

The short format shows a number with so many digits as its magnitude allows, and from a hundred
millions on in millions, billions or trillions. A number that is rounded up is formatted anew, and
the second pass is the last one: it either has the same magnitude and no more digits than are
shown, or it is a power of ten. The new number is built from the digits, though, and so a negative
number that is rounded up is written without its sign.
-/

import SafeWallet.Formatting.Passes
import SafeWallet.Formatting.Rounding

namespace SafeWallet

open Digits Rounding

namespace TokenFormatter

/-! ## What should be written -/

/-- How many digits behind the point are shown of a magnitude, or how many in front of it are
not. -/
def shownDigits (x : ℚ) : ℤ :=
  if x < 10 ^ 3 then 5
  else if x < 10 ^ 4 then 4
  else if x < 10 ^ 5 then 3
  else if x < 10 ^ 6 then 2
  else if x < 10 ^ 7 then 1
  else if x < 10 ^ 8 then 0
  else if x < 10 ^ 9 then -3
  else if x < 10 ^ 12 then -6
  else -9

/-- A magnitude rounded to the digits that are shown. -/
def rounded (behavior : RoundingBehavior) (x : ℚ) : ℚ :=
  match behavior with
  | .cutoff => ⌊x * 10 ^ shownDigits x⌋ / 10 ^ shownDigits x
  | .roundUp => ⌈x * 10 ^ shownDigits x⌉ / 10 ^ shownDigits x

/-- The magnitude of a number. -/
def magnitude (number : BigDecimal) : ℚ := number.value.natAbs / 10 ^ number.precision

/-- Groups of digits, with or without a point and more digits, that denote a number. -/
inductive MagnitudeText (style : Style) : List Char → ℚ → Prop
  | whole {first : List Char} {others : List (List Char)} (hfirst : first ≠ [])
      (hdigits : AllDigits (first :: others).flatten) :
      MagnitudeText style (Separated.joined style.thousandSeparator (first :: others))
        (value (first :: others).flatten)
  | point {first fraction : List Char} {others : List (List Char)} (hfirst : first ≠ [])
      (hdigits : AllDigits (first :: others).flatten) (hfraction : AllDigits fraction) :
      MagnitudeText style (Separated.joined style.thousandSeparator (first :: others) ++
        style.decimalSeparator ++ fraction) (decimal (first :: others).flatten fraction)

/-- The sign of a number, but none for zero. -/
def signText (style : Style) (isNegative : Bool) (x : ℚ) : List Char :=
  if x = 0 then []
  else if isNegative then ['-']
  else if style.forcePlusSign then ['+']
  else []

/-- A text in short format denotes a sign and a magnitude. -/
inductive ShortText (style : Style) (isNegative : Bool) (x : ℚ) : List Char → Prop
  | plain {text : List Char} (hx : x < 10 ^ 8) (htext : MagnitudeText style text x) :
      ShortText style isNegative x (signText style isNegative x ++ text)
  | millions {text : List Char} (hlow : 10 ^ 8 ≤ x) (hhigh : x < 10 ^ 9)
      (htext : MagnitudeText style text (x / 10 ^ 6)) :
      ShortText style isNegative x (signText style isNegative x ++ text ++ style.millions)
  | billions {text : List Char} (hlow : 10 ^ 9 ≤ x) (hhigh : x < 10 ^ 12)
      (htext : MagnitudeText style text (x / 10 ^ 9)) :
      ShortText style isNegative x (signText style isNegative x ++ text ++ style.billions)
  | trillions {text : List Char} (hlow : 10 ^ 12 ≤ x) (hhigh : x < 10 ^ 15)
      (htext : MagnitudeText style text (x / 10 ^ 12)) :
      ShortText style isNegative x (signText style isNegative x ++ text ++ style.trillions)
  | overflow (hlow : 10 ^ 15 ≤ x) : ShortText style isNegative x (overflow style isNegative)

/-- After at most two passes a text is written that denotes the rounded magnitude with the sign of
the number. -/
def RoundsCorrectly (kit : BigIntKit) (behavior : RoundingBehavior) (style : Style)
    (number : BigDecimal) : Prop :=
  ∃ text, (∀ passes, string kit behavior style true (passes + 2) number = .ok (some text)) ∧
    ShortText style (number.value < 0) (rounded behavior (magnitude number)) text

variable {kit : BigIntKit} {behavior : RoundingBehavior} {style : Style} {number : BigDecimal}
  {digits fraction literal text : List Char} {isNegative : Bool} {x : ℚ}

/-! ## The text of a magnitude -/

theorem length_le_joined (separator : List Char) (parts : List (List Char)) :
    parts.flatten.length ≤ (Separated.joined separator parts).length := by
  induction parts with
  | nil => exact Nat.le_refl 0
  | cons first rest ih =>
      cases rest with
      | nil => simp [Separated.joined]
      | cons second others =>
          rw [Separated.joined, List.length_append, List.length_append, List.flatten_cons,
            List.length_append]
          omega

theorem sign_eq (h : text = ['0'] ↔ x = 0) :
    sign style isNegative text = signText style isNegative x := by
  simp only [sign, signText, h]

/-- A text of one character is not grouped. -/
theorem joined_groups_eq_zero_iff (separator : List Char) (hne : digits ≠ []) :
    Separated.joined separator (groups digits 3) = ['0'] ↔ digits = ['0'] := by
  constructor
  · intro h
    have hle := length_le_joined separator (groups digits 3)
    rw [flatten_groups (by decide), h] at hle
    rw [groups, if_pos (hle.trans (by decide))] at h
    exact h
  · rintro rfl
    rfl

/-- Digits with a fraction that has other digits than zeros. -/
theorem finished_of_fraction (hne : digits ≠ []) (hdigits : AllDigits digits)
    (hfraction : AllDigits fraction) (hkept : removingTrailingZeroes fraction ≠ []) :
    ∃ text, finished style isNegative digits fraction literal =
        signText style isNegative (decimal digits fraction) ++ text ++ literal ∧
      MagnitudeText style text (decimal digits fraction) := by
  obtain ⟨first, others, hgroups, hfirst⟩ := groups_eq_cons (by decide : 0 < 3) hne
  have hflatten : (first :: others).flatten = digits := by
    rw [← hgroups, flatten_groups (by decide)]
  have hdecimal : decimal digits (removingTrailingZeroes fraction) = decimal digits fraction :=
    decimal_rdropWhile digits fraction
  have hlong : Separated.joined style.thousandSeparator (groups digits 3) ++
      style.decimalSeparator ++ removingTrailingZeroes fraction ≠ ['0'] := by
    intro h
    have hle := length_le_joined style.thousandSeparator (groups digits 3)
    have hlength := congrArg List.length h
    have hpos := List.length_pos_of_ne_nil hne
    have hpos' := List.length_pos_of_ne_nil hkept
    rw [flatten_groups (by decide)] at hle
    rw [List.length_append, List.length_append, List.length_singleton] at hlength
    omega
  have hpositive : decimal digits fraction ≠ 0 := by
    rw [← hdecimal, decimal]
    have hmod := value_rdropWhile_mod hfraction hkept
    have hvalue : 0 < value (removingTrailingZeroes fraction) := by
      rw [Nat.pos_iff_ne_zero]
      intro hzero
      rw [← removingTrailingZeroes, hzero] at hmod
      exact hmod rfl
    positivity
  refine ⟨Separated.joined style.thousandSeparator (first :: others) ++ style.decimalSeparator ++
    removingTrailingZeroes fraction, ?_, ?_⟩
  · rw [finished, if_neg hkept, sign_eq (iff_of_false hlong hpositive), hgroups]
  · rw [← hdecimal, ← hflatten]
    exact .point hfirst (hflatten ▸ hdigits)
      (hfraction.sublist (List.rdropWhile_prefix _ fraction).sublist)

/-- Digits with a fraction of zeros. -/
theorem finished_of_zeros (hne : digits ≠ []) (hdigits : AllDigits digits)
    (hzero : value digits = 0 → digits = ['0']) (hkept : removingTrailingZeroes fraction = []) :
    ∃ text, finished style isNegative digits fraction literal =
        signText style isNegative (decimal digits fraction) ++ text ++ literal ∧
      MagnitudeText style text (decimal digits fraction) := by
  obtain ⟨first, others, hgroups, hfirst⟩ := groups_eq_cons (by decide : 0 < 3) hne
  have hflatten : (first :: others).flatten = digits := by
    rw [← hgroups, flatten_groups (by decide)]
  have hdecimal : decimal digits fraction = value digits := by
    rw [← decimal_rdropWhile, ← removingTrailingZeroes, hkept, decimal]
    simp
  have hiff : Separated.joined style.thousandSeparator (groups digits 3) = ['0'] ↔
      decimal digits fraction = 0 := by
    rw [joined_groups_eq_zero_iff _ hne, hdecimal, Nat.cast_eq_zero]
    constructor
    · rintro rfl
      rfl
    · exact hzero
  refine ⟨Separated.joined style.thousandSeparator (first :: others), ?_, ?_⟩
  · rw [finished, if_pos hkept, sign_eq hiff, hgroups]
  · rw [hdecimal, ← hflatten]
    exact .whole hfirst (hflatten ▸ hdigits)

/-- What is written for digits denotes them. -/
theorem finished_eq (hne : digits ≠ []) (hdigits : AllDigits digits) (hfraction : AllDigits fraction)
    (hzero : value digits = 0 → digits = ['0']) :
    ∃ text, finished style isNegative digits fraction literal =
        signText style isNegative (decimal digits fraction) ++ text ++ literal ∧
      MagnitudeText style text (decimal digits fraction) := by
  by_cases hkept : removingTrailingZeroes fraction = []
  · exact finished_of_zeros hne hdigits hzero hkept
  · exact finished_of_fraction hne hdigits hfraction hkept

/-! ## Bounds -/

theorem magnitude_lt_iff {k : ℕ} (hk : 0 < k) :
    magnitude number < 10 ^ k ↔ (integer number).length ≤ k := by
  rw [length_integer_le_iff hk, magnitude, div_lt_iff₀ (by positivity)]
  norm_cast

/-- The digits that are shown, from the number of digits in front of the point. -/
def shownFor (count : ℕ) : ℤ :=
  if count ≤ 8 then min (8 - count) 5
  else if count = 9 then -3
  else if count ≤ 12 then -6
  else -9

theorem shownDigits_eq (number : BigDecimal) :
    shownDigits (magnitude number) = shownFor (integer number).length := by
  have hpos : 0 < (integer number).length := List.length_pos_of_ne_nil (integer_ne_nil number)
  rw [shownDigits, shownFor]
  simp only [magnitude_lt_iff (by decide : 0 < 3), magnitude_lt_iff (by decide : 0 < 4),
    magnitude_lt_iff (by decide : 0 < 5), magnitude_lt_iff (by decide : 0 < 6),
    magnitude_lt_iff (by decide : 0 < 7), magnitude_lt_iff (by decide : 0 < 8),
    magnitude_lt_iff (by decide : 0 < 9), magnitude_lt_iff (by decide : 0 < 12)]
  split_ifs <;> omega

/-- How many digits of a number are not shown. -/
def hiddenDigits (number : BigDecimal) : ℕ :=
  omitted number.precision (shownDigits (magnitude number))

/-- The smallest multiple of which the short format shows the number. -/
def step (number : BigDecimal) : ℕ := 10 ^ hiddenDigits number

theorem step_pos (number : BigDecimal) : 0 < step number := by
  rw [step]
  positivity

/-- A number rounded down is below the same powers of ten. -/
theorem down_lt_pow_iff {k : ℕ} (hk : 0 < k) (hshown : -(k : ℤ) ≤ shownFor (integer number).length) :
    (down (step number) number.value.natAbs / 10 ^ number.precision : ℚ) < 10 ^ k ↔
      (integer number).length ≤ k := by
  have hdvd : step number ∣ 10 ^ k * 10 ^ number.precision := by
    rw [step, ← pow_add]
    apply pow_dvd_pow
    rw [hiddenDigits, shownDigits_eq, omitted]
    omega
  rw [length_integer_le_iff hk, ← down_lt_iff (step_pos number) hdvd,
    div_lt_iff₀ (by positivity)]
  norm_cast

/-! ## The text of a pass -/

variable {remainder : List Char} {degree : ℕ}

/-- The digits that are kept denote the number rounded down, in units of a power of ten. -/
theorem decimal_cut
    (hcut : (digits ++ fraction) ++ remainder = integer number ++ fractional number)
    (hlength : fraction.length + remainder.length = degree + number.precision) :
    decimal digits fraction = down (10 ^ remainder.length) number.value.natAbs /
      10 ^ number.precision / 10 ^ degree := by
  obtain ⟨-, -, hkept, -⟩ := value_cut hcut
  have hpow : (10 : ℚ) ^ degree * 10 ^ number.precision =
      10 ^ fraction.length * 10 ^ remainder.length := by
    rw [← pow_add, ← pow_add, hlength]
  rw [decimal_eq, hkept, down]
  push_cast
  rw [div_div, div_eq_div_iff (by positivity) (by positivity), mul_comm (10 ^ number.precision),
    hpow]
  ring

theorem hiddenDigits_of_le (hsmall : (integer number).length ≤ 8) :
    hiddenDigits number = number.precision - keptDigits number := by
  rw [hiddenDigits, shownDigits_eq, shownFor, if_pos hsmall, omitted, keptDigits]
  omega

/-- A number below a hundred millions is written with its own integer part. -/
theorem shortText_unabbreviated (hsmall : (integer number).length ≤ 8) :
    ShortText style isNegative (down (step number) number.value.natAbs / 10 ^ number.precision)
      (finished style isNegative (integer number)
        (removingTrailingZeroes ((fractional number).take (keptDigits number))) []) := by
  obtain ⟨hcut, hlength⟩ := unabbreviated_cut number
  have hzero : value (integer number) = 0 → integer number = ['0'] := by
    rw [integer_eq, value_toDigits]
    intro hvalue
    rw [hvalue, Nat.toDigits_zero]
  have hdigits : AllDigits ((fractional number).take (keptDigits number)) :=
    (allDigits_fractional number).sublist (List.take_sublist _ _)
  obtain ⟨text, hfinished, htext⟩ := @finished_eq style _ _ [] isNegative (integer_ne_nil number)
    (allDigits_integer number) (hdigits.sublist (List.rdropWhile_prefix (· = '0') _).sublist) hzero
  have hsum : ((fractional number).take (keptDigits number)).length +
      ((fractional number).drop (keptDigits number)).length = 0 + number.precision := by
    rw [hlength, List.length_take, length_fractional]
    omega
  have hdecimal := decimal_cut hcut hsum
  rw [hlength, ← hiddenDigits_of_le hsmall, ← step, pow_zero, div_one] at hdecimal
  rw [decimal_rdropWhile, hdecimal] at hfinished htext
  rw [removingTrailingZeroes, hfinished, List.append_nil]
  exact .plain ((down_lt_pow_iff (by decide) (by
    rw [shownFor, if_pos hsmall]
    omega)).mpr hsmall) htext

theorem signText_div (isNegative : Bool) (x : ℚ) (degree : ℕ) :
    signText style isNegative (x / 10 ^ degree) = signText style isNegative x := by
  have hzero : x / 10 ^ degree = 0 ↔ x = 0 := by
    rw [div_eq_zero_iff]
    simp
  simp only [signText, hzero]

/-- In units of a smaller power of ten a number has an integer part. -/
theorem value_take_integer_pos (hdegree : 0 < degree) (hlong : degree < (integer number).length) :
    0 < value ((integer number).take ((integer number).length - degree)) := by
  have hdrop : ((integer number).drop ((integer number).length - degree)).length = degree := by
    rw [List.length_drop]
    omega
  have hlarge : ¬ number.value.natAbs < 10 ^ degree * 10 ^ number.precision := by
    rw [← length_integer_le_iff hdegree]
    omega
  rw [value_take (allDigits_integer number), hdrop, integer_eq, value_toDigits, Nat.div_pos_iff,
    Nat.le_div_iff_mul_le (by positivity)]
  exact ⟨by positivity, by omega⟩

/-- The text of a larger number in units of a power of ten. -/
theorem abbreviated_spec (hdegree : 3 ≤ degree) (hlong : degree < (integer number).length)
    (hshown : shownFor (integer number).length = 3 - degree) :
    ∃ text, abbreviated kit behavior style degree literal number =
        .ok (passResult behavior number.value.natAbs (hiddenDigits number)
          (signText style (number.value < 0)
            (down (step number) number.value.natAbs / 10 ^ number.precision) ++ text ++ literal)) ∧
      MagnitudeText style text
        (down (step number) number.value.natAbs / 10 ^ number.precision / 10 ^ degree) := by
  obtain ⟨hcut, hlength⟩ := abbreviated_cut hdegree hlong.le
  have hhidden : hiddenDigits number = degree - 3 + number.precision := by
    rw [hiddenDigits, shownDigits_eq, hshown, omitted]
    omega
  have hpositive := value_take_integer_pos (by omega) hlong
  have hne : (integer number).take ((integer number).length - degree) ≠ [] := by
    intro hnil
    rw [hnil, value_nil] at hpositive
    omega
  have hfraction : List.Sublist (((integer number).rtake degree).take 3) (integer number) :=
    (List.take_sublist _ _).trans (List.drop_sublist _ _)
  have hsum : (((integer number).rtake degree).take 3).length +
      ((integer number).rtake (degree - 3) ++ fractional number).length =
        degree + number.precision := by
    rw [hlength, List.length_take, List.rtake, List.length_drop]
    omega
  obtain ⟨text, hfinished, htext⟩ := @finished_eq style _ _ literal (number.value < 0) hne
    ((allDigits_integer number).sublist (List.take_sublist _ _))
    ((allDigits_integer number).sublist hfraction) fun hzero => absurd hzero hpositive.ne'
  have hdecimal := decimal_cut hcut hsum
  rw [hlength, ← hhidden, ← step] at hdecimal
  rw [hdecimal] at hfinished htext
  rw [signText_div] at hfinished
  refine ⟨text, ?_, htext⟩
  rw [abbreviated_eq hdegree hlong.le, hfinished, hhidden]

/-- A number rounded down is between the same powers of ten. -/
theorem down_bounds {low high : ℕ} (hpos : 0 < low) (hlow : low < (integer number).length)
    (hhigh : (integer number).length ≤ high)
    (hshown : -(low : ℤ) ≤ shownFor (integer number).length) :
    (10 ^ low ≤ (down (step number) number.value.natAbs / 10 ^ number.precision : ℚ)) ∧
      (down (step number) number.value.natAbs / 10 ^ number.precision : ℚ) < 10 ^ high := by
  rw [← not_lt, down_lt_pow_iff hpos hshown, down_lt_pow_iff (by omega) (by omega)]
  omega

/-- The text that a pass writes, if it writes one. -/
theorem pass_eq (hsmall : (integer number).length ≤ 15) :
    ∃ text, pass kit behavior style true number =
        .ok (passResult behavior number.value.natAbs (hiddenDigits number) text) ∧
      ShortText style (number.value < 0)
        (down (step number) number.value.natAbs / 10 ^ number.precision) text := by
  rw [pass, if_pos rfl]
  by_cases h8 : (integer number).length ≤ 8
  · rw [if_pos h8, unabbreviated_eq, ← hiddenDigits_of_le h8]
    exact ⟨_, rfl, shortText_unabbreviated h8⟩
  rw [if_neg h8]
  by_cases h9 : (integer number).length = 9
  · have hshown : shownFor (integer number).length = 3 - (6 : ℕ) := by
      rw [shownFor, if_neg h8, if_pos h9]
      rfl
    obtain ⟨text, habbreviated, htext⟩ := abbreviated_spec (by decide) (by omega) hshown
    obtain ⟨hlow, hhigh⟩ := @down_bounds number 8 9 (by decide) (by omega) (by omega) (by omega)
    rw [if_pos h9, habbreviated]
    exact ⟨_, rfl, .millions hlow hhigh htext⟩
  rw [if_neg h9]
  by_cases h13 : (integer number).length < 13
  · have hshown : shownFor (integer number).length = 3 - (9 : ℕ) := by
      rw [shownFor, if_neg h8, if_neg h9, if_pos (by omega)]
      rfl
    obtain ⟨text, habbreviated, htext⟩ := abbreviated_spec (by decide) (by omega) hshown
    obtain ⟨hlow, hhigh⟩ := @down_bounds number 9 12 (by decide) (by omega) (by omega) (by omega)
    rw [if_pos h13, habbreviated]
    exact ⟨_, rfl, .billions hlow hhigh htext⟩
  · have hshown : shownFor (integer number).length = 3 - (12 : ℕ) := by
      rw [shownFor, if_neg h8, if_neg h9, if_neg (by omega)]
      rfl
    obtain ⟨text, habbreviated, htext⟩ := abbreviated_spec (by decide) (by omega) hshown
    obtain ⟨hlow, hhigh⟩ := @down_bounds number 12 15 (by decide) (by omega) hsmall (by omega)
    rw [if_neg h13, if_pos (by omega), habbreviated]
    exact ⟨_, rfl, .trillions hlow hhigh htext⟩

/-! ## Whole runs -/

theorem pass_overflow (hlarge : 15 < (integer number).length) :
    pass kit behavior style true number = .ok (.done (overflow style (number.value < 0))) := by
  rw [pass, if_pos rfl, if_neg (by omega), if_neg (by omega), if_neg (by omega),
    if_neg (by omega)]
  rfl

/-- A pass that does not round up ends with the text of the number rounded down. -/
theorem string_of_done (h : behavior = .cutoff ∨ number.value.natAbs % step number = 0 ∨
    15 < (integer number).length) :
    ∃ text, (∀ passes, string kit behavior style true (passes + 1) number = .ok (some text)) ∧
      ShortText style (number.value < 0)
        (down (step number) number.value.natAbs / 10 ^ number.precision) text := by
  rcases Nat.lt_or_ge 15 (integer number).length with hlarge | hsmall
  · refine ⟨overflow style (number.value < 0), fun passes => ?_, .overflow ?_⟩
    · rw [string, pass_overflow hlarge]
      rfl
    · have hshown : shownFor (integer number).length = -9 := by
        rw [shownFor, if_neg (by omega), if_neg (by omega), if_neg (by omega)]
      rw [← not_lt, down_lt_pow_iff (by decide) (by omega)]
      omega
  · obtain ⟨text, hpass, htext⟩ := @pass_eq kit behavior style number hsmall
    have hdone : passResult behavior number.value.natAbs (hiddenDigits number) text =
        .done text := by
      rw [passResult, if_neg]
      rintro ⟨hround, hmod⟩
      obtain hcutoff | hexact | hlarge := h
      · rw [hround] at hcutoff
        cases hcutoff
      · exact hmod hexact
      · omega
    refine ⟨text, fun passes => ?_, htext⟩
    rw [string, hpass, hdone]
    rfl

/-- The number with the magnitude rounded up. -/
def roundedNumber (number : BigDecimal) : BigDecimal :=
  ⟨(up (step number) number.value.natAbs : ℕ), number.precision⟩

/-- A pass that rounds up formats the rounded number. -/
theorem string_of_again (hround : behavior = .roundUp)
    (hmod : number.value.natAbs % step number ≠ 0) (hsmall : (integer number).length ≤ 15)
    (passes : ℕ) : string kit behavior style true (passes + 1) number =
      string kit behavior style true passes (roundedNumber number) := by
  obtain ⟨text, hpass, -⟩ := @pass_eq kit behavior style number hsmall
  have hagain : passResult behavior number.value.natAbs (hiddenDigits number) text =
      .again (up (step number) number.value.natAbs : ℕ) := by
    rw [passResult, if_pos ⟨hround, hmod⟩, up, if_neg hmod, step]
  rw [string, hpass, hagain]
  rfl

theorem hiddenDigits_eq (number : BigDecimal) :
    hiddenDigits number = (number.precision - shownFor (integer number).length).toNat := by
  rw [hiddenDigits, shownDigits_eq, omitted]

/-- Rounding up keeps the digits in front of the point or gives the next power of ten. -/
theorem roundedNumber_cases (number : BigDecimal) :
    (integer (roundedNumber number)).length = (integer number).length ∨
      (integer (roundedNumber number)).length = (integer number).length + 1 ∧
        up (step number) number.value.natAbs =
          10 ^ (integer number).length * 10 ^ number.precision := by
  have hpos : 0 < (integer number).length := List.length_pos_of_ne_nil (integer_ne_nil number)
  have hlength : ∀ k, 0 < k → ((integer (roundedNumber number)).length ≤ k ↔
      up (step number) number.value.natAbs < 10 ^ k * 10 ^ number.precision) :=
    fun k hk => @length_integer_le_iff (roundedNumber number) k hk
  have hdvd : step number ∣ 10 ^ (integer number).length * 10 ^ number.precision := by
    rw [step, ← pow_add]
    apply pow_dvd_pow
    rw [hiddenDigits_eq, shownFor]
    split_ifs <;> omega
  have hle := up_le (step_pos number) hdvd ((length_integer_le_iff hpos).mp le_rfl).le
  have hgrows : (integer number).length ≤ (integer (roundedNumber number)).length := by
    have hpos' : 0 < (integer (roundedNumber number)).length :=
      List.length_pos_of_ne_nil (integer_ne_nil _)
    rw [length_integer_le_iff hpos']
    exact (le_up (step_pos number) _).trans_lt ((hlength _ hpos').mp le_rfl)
  rcases hle.lt_or_eq with hlt | heq
  · left
    have hsame := (hlength _ hpos).mpr hlt
    omega
  · right
    refine ⟨?_, heq⟩
    have hlarger : ¬ (integer (roundedNumber number)).length ≤ (integer number).length := by
      rw [hlength _ hpos, heq]
      exact Nat.lt_irrefl _
    have hnext : (integer (roundedNumber number)).length ≤ (integer number).length + 1 := by
      rw [hlength _ (Nat.succ_pos _), heq, pow_succ]
      have : 0 < 10 ^ (integer number).length * 10 ^ number.precision := by positivity
      rw [Nat.mul_right_comm]
      omega
    omega

/-- The rounded number has no more digits than are shown of it. -/
theorem roundedNumber_exact (number : BigDecimal) :
    (roundedNumber number).value.natAbs % step (roundedNumber number) = 0 := by
  have hpos : 0 < (integer number).length := List.length_pos_of_ne_nil (integer_ne_nil number)
  have hvalue : (roundedNumber number).value.natAbs = up (step number) number.value.natAbs := rfl
  have hstep : step (roundedNumber number) =
      10 ^ (number.precision - shownFor (integer (roundedNumber number)).length).toNat := by
    rw [step, hiddenDigits_eq]
    rfl
  rw [hvalue, hstep]
  obtain hsame | ⟨hnext, hpower⟩ := roundedNumber_cases number
  · rw [hsame, ← hiddenDigits_eq, ← step]
    exact up_mod_eq_zero _ _
  · rw [hpower, hnext, ← pow_add]
    apply Nat.mod_eq_zero_of_dvd
    apply pow_dvd_pow
    rw [shownFor]
    split_ifs <;> omega

theorem rounded_cutoff (number : BigDecimal) : rounded .cutoff (magnitude number) =
    down (step number) number.value.natAbs / 10 ^ number.precision :=
  floor_mul_zpow _ _ _

theorem rounded_roundUp (number : BigDecimal) : rounded .roundUp (magnitude number) =
    up (step number) number.value.natAbs / 10 ^ number.precision :=
  ceil_mul_zpow _ _ _

/-- More digits than are shown. -/
def HasMoreDigits (x : ℚ) : Prop := (⌊x * 10 ^ shownDigits x⌋ : ℚ) ≠ x * 10 ^ shownDigits x

theorem hasMoreDigits_iff (number : BigDecimal) :
    HasMoreDigits (magnitude number) ↔ number.value.natAbs % step number ≠ 0 :=
  (floor_eq_iff _ _ _).not

/-- A number that is rounded up is written without its sign. -/
theorem string_of_roundUp (hround : behavior = .roundUp)
    (hmod : number.value.natAbs % step number ≠ 0) (hsmall : (integer number).length ≤ 15) :
    ∃ text, (∀ passes, string kit behavior style true (passes + 2) number = .ok (some text)) ∧
      ShortText style false
        (up (step number) number.value.natAbs / 10 ^ number.precision) text := by
  have hexact := roundedNumber_exact number
  have hnonneg : ¬ (roundedNumber number).value < 0 := not_lt.mpr (Int.natCast_nonneg _)
  obtain ⟨text, hstring, htext⟩ :=
    @string_of_done kit behavior style (roundedNumber number) (.inr (.inl hexact))
  refine ⟨text, fun passes => ?_, ?_⟩
  · rw [string_of_again hround hmod hsmall, hstring]
  · rw [down_of_mod_eq_zero hexact, decide_eq_false hnonneg] at htext
    exact htext

/-! ## The sign -/

theorem joined_head (separator : List Char) {first : List Char} (hfirst : first ≠ [])
    (others : List (List Char)) :
    ∃ c rest, Separated.joined separator (first :: others) = c :: rest ∧ c ∈ first := by
  obtain ⟨c, rest, rfl⟩ := List.exists_cons_of_ne_nil hfirst
  cases others with
  | nil => exact ⟨c, rest, rfl, List.mem_cons_self⟩
  | cons second others => exact ⟨c, _, rfl, List.mem_cons_self⟩

/-- A magnitude starts with a digit. -/
theorem MagnitudeText.head (h : MagnitudeText style text x) :
    ∃ c rest, text = c :: rest ∧ c.isDigit = true := by
  cases h with
  | @whole first others hfirst hdigits =>
      obtain ⟨c, rest, heq, hc⟩ := joined_head style.thousandSeparator hfirst others
      rw [List.flatten_cons, allDigits_append] at hdigits
      exact ⟨c, rest, heq, hdigits.1 c hc⟩
  | @point first fraction others hfirst hdigits hfraction =>
      obtain ⟨c, rest, heq, hc⟩ := joined_head style.thousandSeparator hfirst others
      rw [List.flatten_cons, allDigits_append] at hdigits
      refine ⟨c, rest ++ style.decimalSeparator ++ fraction, ?_, hdigits.1 c hc⟩
      rw [heq]
      rfl

theorem signText_true_append (hx : 0 < x) (text : List Char) :
    signText style true x ++ text = '-' :: text := by
  rw [signText, if_neg hx.ne', if_pos rfl]
  rfl

/-- A positive magnitude without a minus. -/
theorem MagnitudeText.signed_head {y : ℚ} (h : MagnitudeText style text y) (hx : 0 < x) :
    ∃ c rest, signText style false x ++ text = c :: rest ∧ (c.isDigit = true ∨ c = '+') := by
  obtain ⟨c, rest, rfl, hc⟩ := h.head
  rw [signText, if_neg hx.ne', if_neg Bool.false_ne_true]
  split
  · exact ⟨'+', c :: rest, rfl, .inr rfl⟩
  · exact ⟨c, rest, rfl, .inl hc⟩

theorem ShortText.head_false (hx : 0 < x) (h : ShortText style false x text) :
    ∃ c rest, text = c :: rest ∧ (c.isDigit = true ∨ c = '+' ∨ c = '>') := by
  have hsigned : ∀ {text' literal' : List Char} {y : ℚ}, MagnitudeText style text' y →
      ∃ c rest, signText style false x ++ text' ++ literal' = c :: rest ∧
        (c.isDigit = true ∨ c = '+' ∨ c = '>') := by
    intro text' literal' y htext
    obtain ⟨c, rest, heq, hc⟩ := htext.signed_head hx
    refine ⟨c, rest ++ literal', by rw [heq]; rfl, ?_⟩
    obtain hdigit | hplus := hc
    · exact .inl hdigit
    · exact .inr (.inl hplus)
  cases h with
  | plain _ htext =>
      rw [← List.append_nil (signText style false x ++ _)]
      exact hsigned htext
  | millions _ _ htext => exact hsigned htext
  | billions _ _ htext => exact hsigned htext
  | trillions _ _ htext => exact hsigned htext
  | overflow => exact ⟨'>', _, rfl, .inr (.inr rfl)⟩

theorem ShortText.head_true (hx : 0 < x) (h : ShortText style true x text) :
    ∃ c rest, text = c :: rest ∧ (c = '-' ∨ c = '<') := by
  cases h with
  | plain _ htext =>
      rw [signText_true_append hx]
      exact ⟨'-', _, rfl, .inl rfl⟩
  | millions _ _ htext =>
      rw [signText_true_append hx]
      exact ⟨'-', _, rfl, .inl rfl⟩
  | billions _ _ htext =>
      rw [signText_true_append hx]
      exact ⟨'-', _, rfl, .inl rfl⟩
  | trillions _ _ htext =>
      rw [signText_true_append hx]
      exact ⟨'-', _, rfl, .inl rfl⟩
  | overflow => exact ⟨'<', _, rfl, .inr rfl⟩

/-- A text does not denote a positive number with both signs. -/
theorem ShortText.sign_unique (hx : 0 < x) (h : ShortText style false x text) :
    ¬ ShortText style true x text := by
  intro h'
  obtain ⟨c, rest, rfl, hc⟩ := h.head_false hx
  obtain ⟨c', rest', heq, hc'⟩ := h'.head_true hx
  obtain rfl := (List.cons.inj heq).1
  obtain rfl | rfl := hc' <;> revert hc <;> decide

/-! ## Correct rounding -/

theorem roundsCorrectly_of_overflow (hlarge : 15 < (integer number).length) :
    RoundsCorrectly kit behavior style number := by
  have hshown : shownFor (integer number).length = -9 := by
    rw [shownFor, if_neg (by omega), if_neg (by omega), if_neg (by omega)]
  have hdown : (10 : ℚ) ^ 15 ≤
      down (step number) number.value.natAbs / 10 ^ number.precision := by
    rw [← not_lt, down_lt_pow_iff (by decide) (by omega)]
    omega
  refine ⟨overflow style (number.value < 0), fun passes => ?_, .overflow ?_⟩
  · rw [string, pass_overflow hlarge]
    rfl
  · cases behavior with
    | cutoff =>
        rw [rounded_cutoff]
        exact hdown
    | roundUp =>
        rw [rounded_roundUp]
        refine hdown.trans ?_
        gcongr
        exact (down_le _ _).trans (le_up (step_pos number) _)

/-- Without rounding up the text denotes the rounded number. -/
theorem roundsCorrectly_of_done
    (h : behavior = .cutoff ∨ number.value.natAbs % step number = 0) :
    RoundsCorrectly kit behavior style number := by
  have hrounded : rounded behavior (magnitude number) =
      down (step number) number.value.natAbs / 10 ^ number.precision := by
    cases behavior with
    | cutoff => exact rounded_cutoff number
    | roundUp =>
        obtain hcutoff | hexact := h
        · cases hcutoff
        · rw [rounded_roundUp, up_of_mod_eq_zero hexact, down_of_mod_eq_zero hexact]
  obtain ⟨text, hstring, htext⟩ := @string_of_done kit behavior style number (by tauto)
  exact ⟨text, fun passes => hstring (passes + 1), hrounded ▸ htext⟩

/-- Rounding up is only wrong for negative numbers. -/
theorem roundsCorrectly_of_roundUp (hmod : number.value.natAbs % step number ≠ 0)
    (hsmall : (integer number).length ≤ 15) :
    RoundsCorrectly kit .roundUp style number ↔ ¬ number.value < 0 := by
  obtain ⟨text, hstring, htext⟩ := @string_of_roundUp kit .roundUp style number rfl hmod hsmall
  rw [← rounded_roundUp] at htext
  constructor
  · rintro ⟨text', hstring', htext'⟩ hnegative
    have hsame := hstring 0
    rw [hstring' 0, Except.ok.injEq, Option.some.injEq] at hsame
    subst hsame
    have hpositive : 0 < rounded .roundUp (magnitude number) := by
      have hup := le_up (step_pos number) number.value.natAbs
      have hne : number.value.natAbs ≠ 0 := by
        intro hzero
        rw [hzero, Nat.zero_mod] at hmod
        exact hmod rfl
      have hpos : 0 < up (step number) number.value.natAbs := by omega
      rw [rounded_roundUp]
      positivity
    rw [decide_eq_true hnegative] at htext'
    exact htext.sign_unique hpositive htext'
  · intro hnonneg
    rw [← decide_eq_false hnonneg] at htext
    exact ⟨text, hstring, htext⟩

/-- Exactly a negative number that is rounded up is not written as it should be: it loses its
sign. -/
theorem roundsCorrectly_iff :
    RoundsCorrectly kit behavior style number ↔
      ¬ (behavior = .roundUp ∧ number.value < 0 ∧ magnitude number < 10 ^ 15 ∧
        HasMoreDigits (magnitude number)) := by
  rw [magnitude_lt_iff (by decide), hasMoreDigits_iff]
  rcases Nat.lt_or_ge 15 (integer number).length with hlarge | hsmall
  · refine iff_of_true (roundsCorrectly_of_overflow hlarge) ?_
    rintro ⟨-, -, hsmall, -⟩
    omega
  by_cases hmod : number.value.natAbs % step number = 0
  · refine iff_of_true (roundsCorrectly_of_done (.inr hmod)) ?_
    rintro ⟨-, -, -, hne⟩
    exact hne hmod
  cases behavior with
  | cutoff =>
      refine iff_of_true (roundsCorrectly_of_done (.inl rfl)) ?_
      rintro ⟨hround, -⟩
      cases hround
  | roundUp =>
      rw [roundsCorrectly_of_roundUp hmod hsmall]
      constructor
      · exact fun hnonneg hall => hnonneg hall.2.1
      · exact fun hnot hnegative => hnot ⟨rfl, hnegative, hsmall, hmod⟩

/-- A small negative number is rounded up to a positive one. -/
theorem negative_not_roundsCorrectly :
    ¬ RoundsCorrectly decimalKit .roundUp Style.default ⟨-101, 7⟩ := by
  have hmod : (⟨-101, 7⟩ : BigDecimal).value.natAbs % step ⟨-101, 7⟩ ≠ 0 := by
    rw [step, hiddenDigits_eq]
    decide
  rw [roundsCorrectly_of_roundUp hmod (by decide)]
  decide

end TokenFormatter

end SafeWallet
