/-
# Rounding to digits

A number that does not fit the digits of a format is rounded: scaled so that the digits
stand before the point, rounded to an integer by the rule of the format, and scaled back.
The exponent is not bounded. Binary and decimal formats differ in the base, the number of
digits and the rule only.

What is needed of rounding is that it keeps the order, that it is near, and that it leaves
alone what fits. The numbers of a format are added by rounding their sum.
-/

import Mathlib.Data.Int.Log
import Mathlib.Data.Rat.Floor
import Mathlib.Tactic.Linarith
import Mathlib.Tactic.Positivity
import Mathlib.Tactic.FieldSimp
import Mathlib.Tactic.Ring

namespace SafeWallet

/-! ## To integers -/

/-- A rule by which numbers are rounded to integers. -/
structure IntegerRounding where
  round : ℚ → ℤ
  monotone : ∀ x y : ℚ, x ≤ y → round x ≤ round y
  near : ∀ x : ℚ, |(round x : ℚ) - x| ≤ 1 / 2

namespace IntegerRounding

theorem round_intCast (rule : IntegerRounding) (n : ℤ) : rule.round n = n := by
  have hnear := rule.near n
  rw [← Int.cast_sub, ← Int.cast_abs] at hnear
  have hlt : ((|rule.round n - n| : ℤ) : ℚ) < ((1 : ℤ) : ℚ) := by
    push_cast at hnear ⊢
    linarith
  have habs := Int.cast_lt.mp hlt
  rw [Int.abs_lt_one_iff, sub_eq_zero] at habs
  exact habs

theorem le_round (rule : IntegerRounding) {n : ℤ} {x : ℚ} (h : n ≤ x) : n ≤ rule.round x := by
  have hle := rule.monotone _ _ h
  rwa [rule.round_intCast] at hle

theorem round_le (rule : IntegerRounding) {n : ℤ} {x : ℚ} (h : x ≤ n) : rule.round x ≤ n := by
  have hle := rule.monotone _ _ h
  rwa [rule.round_intCast] at hle

/-- Halves are rounded up. -/
def halfUp : IntegerRounding where
  round x := ⌊x + 1 / 2⌋
  monotone x y h := Int.floor_mono (by linarith)
  near x := by
    have hle := Int.floor_le (x + 1 / 2)
    have hlt := Int.lt_floor_add_one (x + 1 / 2)
    rw [abs_le]
    constructor <;> linarith

/-- Halves are rounded to the even neighbour. -/
def halfEven : IntegerRounding where
  round x :=
    if Int.fract x < 1 / 2 ∨ Int.fract x = 1 / 2 ∧ Even ⌊x⌋ then ⌊x⌋ else ⌊x⌋ + 1
  monotone x y h := by
    rcases (Int.floor_mono h).lt_or_eq with hlt | heq
    · have hnext : ⌊x⌋ + 1 ≤ ⌊y⌋ := hlt
      split <;> split <;> omega
    · have hfract : Int.fract x ≤ Int.fract y := by
        rw [Int.fract, Int.fract, heq]
        linarith
      rw [heq]
      split
      · split <;> omega
      · rename_i hx
        rw [if_neg]
        rintro (hy | ⟨hy, heven⟩)
        · exact hx (.inl (hfract.trans_lt hy))
        · rcases hfract.lt_or_eq with hlt | hsame
          · exact hx (.inl (hy ▸ hlt))
          · exact hx (.inr ⟨hsame.trans hy, heven⟩)
  near x := by
    have hnonneg := Int.fract_nonneg x
    have hlt := Int.fract_lt_one x
    have hx := Int.floor_add_fract x
    rw [abs_le]
    split
    · rename_i h
      have hhalf : Int.fract x ≤ 1 / 2 := h.elim le_of_lt fun h => h.1.le
      constructor <;> linarith
    · rename_i h
      have hhalf : 1 / 2 ≤ Int.fract x := not_lt.mp fun hlt => h (.inl hlt)
      push_cast
      constructor <;> linarith

end IntegerRounding

/-! ## To digits -/

/-- A format for numbers: how many digits in which base, and how to round to them. -/
structure DigitFormat where
  base : ℕ
  digits : ℕ
  rule : IntegerRounding
  one_lt_base : 1 < base
  digits_pos : 0 < digits

namespace DigitFormat

variable (format : DigitFormat)

/-- The weight of the last digit of a positive number. -/
def unit (x : ℚ) : ℚ := (format.base : ℚ) ^ (Int.log format.base x + 1 - format.digits)

/-- A number that is not negative, rounded. -/
def roundAbs (x : ℚ) : ℚ := format.rule.round (x / format.unit x) * format.unit x

/-- A number rounded to the digits of the format. -/
def round (x : ℚ) : ℚ := if x < 0 then -format.roundAbs (-x) else format.roundAbs x

/-- A number that has the digits. -/
def Fits (x : ℚ) : Prop :=
  ∃ m e : ℤ, |m| < (format.base : ℤ) ^ format.digits ∧ x = m * (format.base : ℚ) ^ e

/-- How far rounding goes, relative to the number. -/
def precision : ℚ := 1 / (2 * (format.base : ℚ) ^ (format.digits - 1))

variable {format} {x y : ℚ}

theorem base_pos : (0 : ℚ) < format.base := by
  exact_mod_cast Nat.zero_lt_of_lt format.one_lt_base

theorem base_ne_zero : (format.base : ℚ) ≠ 0 := base_pos.ne'

theorem one_le_base : (1 : ℚ) ≤ format.base := by
  exact_mod_cast format.one_lt_base.le

theorem unit_pos : 0 < format.unit x := zpow_pos base_pos _

/-- The digits before the point, scaled back. -/
theorem pow_mul_unit (k : ℕ) (x : ℚ) : (format.base : ℚ) ^ k * format.unit x =
    (format.base : ℚ) ^ (Int.log format.base x + 1 - format.digits + k) := by
  rw [unit, ← zpow_natCast, ← zpow_add₀ base_ne_zero]
  congr 1
  ring

theorem pow_log_eq (x : ℚ) : (format.base : ℚ) ^ (format.digits - 1) * format.unit x =
    (format.base : ℚ) ^ Int.log format.base x := by
  have hdigits := format.digits_pos
  rw [pow_mul_unit]
  congr 1
  omega

theorem pow_log_succ_eq (x : ℚ) : (format.base : ℚ) ^ format.digits * format.unit x =
    (format.base : ℚ) ^ (Int.log format.base x + 1) := by
  rw [pow_mul_unit]
  congr 1
  omega

/-- Between two powers of the base numbers are rounded to numbers between these. -/
theorem roundAbs_mem (h : 0 < x) :
    (format.base : ℚ) ^ Int.log format.base x ≤ format.roundAbs x ∧
      format.roundAbs x ≤ (format.base : ℚ) ^ (Int.log format.base x + 1) := by
  have hlow := Int.zpow_log_le_self format.one_lt_base h
  have hhigh := Int.lt_zpow_succ_log_self format.one_lt_base x
  rw [← pow_log_eq] at hlow ⊢
  rw [← pow_log_succ_eq] at hhigh ⊢
  have hpos : 0 < format.unit x := unit_pos
  constructor
  · refine mul_le_mul_of_nonneg_right ?_ hpos.le
    have hle := format.rule.le_round (n := (format.base : ℤ) ^ (format.digits - 1))
      (x := x / format.unit x) (by rw [le_div_iff₀ hpos]; exact_mod_cast hlow)
    exact_mod_cast hle
  · refine mul_le_mul_of_nonneg_right ?_ hpos.le
    have hle := format.rule.round_le (n := (format.base : ℤ) ^ format.digits)
      (x := x / format.unit x) (by rw [div_le_iff₀ hpos]; exact_mod_cast hhigh.le)
    exact_mod_cast hle

theorem roundAbs_zero : format.roundAbs 0 = 0 := by
  have hzero := format.rule.round_intCast 0
  rw [Int.cast_zero] at hzero
  rw [roundAbs, zero_div, hzero]
  simp

theorem roundAbs_nonneg (h : 0 ≤ x) : 0 ≤ format.roundAbs x := by
  rcases h.lt_or_eq with hpos | rfl
  · exact (zpow_pos base_pos _).le.trans (roundAbs_mem hpos).1
  · exact roundAbs_zero.ge

theorem round_of_nonneg (h : 0 ≤ x) : format.round x = format.roundAbs x := by
  rw [round, if_neg h.not_gt]

/-! ### Order -/

theorem roundAbs_mono (hx : 0 ≤ x) (h : x ≤ y) : format.roundAbs x ≤ format.roundAbs y := by
  rcases hx.lt_or_eq with hpos | rfl
  · have hy := hpos.trans_le h
    rcases (Int.log_mono_right (b := format.base) hpos h).lt_or_eq with hlt | heq
    · calc format.roundAbs x ≤ (format.base : ℚ) ^ (Int.log format.base x + 1) :=
          (roundAbs_mem hpos).2
        _ ≤ (format.base : ℚ) ^ Int.log format.base y := zpow_le_zpow_right₀ one_le_base hlt
        _ ≤ format.roundAbs y := (roundAbs_mem hy).1
    · have hunit : format.unit x = format.unit y := by rw [unit, unit, heq]
      rw [roundAbs, roundAbs, hunit]
      refine mul_le_mul_of_nonneg_right ?_ unit_pos.le
      exact_mod_cast format.rule.monotone _ _ (div_le_div_of_nonneg_right h unit_pos.le)
  · rw [roundAbs_zero]
    exact roundAbs_nonneg h

theorem round_mono (format : DigitFormat) : Monotone format.round := by
  intro x y h
  rcases le_or_gt 0 x with hx | hx
  · rw [round_of_nonneg hx, round_of_nonneg (hx.trans h)]
    exact roundAbs_mono hx h
  · rcases le_or_gt 0 y with hy | hy
    · rw [round_of_nonneg hy, round, if_pos hx]
      exact (neg_nonpos.mpr (roundAbs_nonneg (by linarith))).trans (roundAbs_nonneg hy)
    · rw [round, if_pos hx, round, if_pos hy]
      exact neg_le_neg (roundAbs_mono (by linarith) (by linarith))

/-! ### Distance -/

theorem abs_roundAbs_sub_le (h : 0 ≤ x) :
    |format.roundAbs x - x| ≤ format.precision * x := by
  rcases h.lt_or_eq with hpos | rfl
  · have hunit : 0 < format.unit x := unit_pos
    have hlow := Int.zpow_log_le_self format.one_lt_base hpos
    rw [← pow_log_eq] at hlow
    have hnear := format.rule.near (x / format.unit x)
    have hscaled : format.roundAbs x - x =
        (format.rule.round (x / format.unit x) - x / format.unit x) * format.unit x := by
      rw [roundAbs, sub_mul, div_mul_cancel₀ x hunit.ne']
    have hpow : (0 : ℚ) < (format.base : ℚ) ^ (format.digits - 1) := pow_pos base_pos _
    calc |format.roundAbs x - x| ≤ 1 / 2 * format.unit x := by
          rw [hscaled, abs_mul, abs_of_pos hunit]
          exact mul_le_mul_of_nonneg_right hnear hunit.le
      _ ≤ format.precision * x := by
          rw [precision, div_mul_eq_mul_div, div_mul_eq_mul_div, one_mul, one_mul,
            div_le_div_iff₀ two_pos (by positivity)]
          nlinarith
  · rw [roundAbs_zero]
    simp

/-- Rounding is near. -/
theorem abs_round_sub_le (format : DigitFormat) (x : ℚ) :
    |format.round x - x| ≤ format.precision * |x| := by
  rcases le_or_gt 0 x with h | h
  · rw [round_of_nonneg h, abs_of_nonneg h]
    exact abs_roundAbs_sub_le h
  · have hnear := @abs_roundAbs_sub_le format (-x) (by linarith)
    have hsame : -format.roundAbs (-x) - x = -(format.roundAbs (-x) - -x) := by ring
    rwa [abs_of_neg h, round, if_pos h, hsame, abs_neg]

/-! ### Numbers that fit -/

theorem Fits.neg (h : format.Fits x) : format.Fits (-x) := by
  obtain ⟨m, e, hm, rfl⟩ := h
  exact ⟨-m, e, by rwa [abs_neg], by push_cast; ring⟩

theorem fits_roundAbs (h : 0 ≤ x) : format.Fits (format.roundAbs x) := by
  rcases h.lt_or_eq with hpos | rfl
  · have hhigh := (@roundAbs_mem format x hpos).2
    have hnonneg := @roundAbs_nonneg format x h
    rw [← pow_log_succ_eq, roundAbs] at hhigh
    rw [roundAbs] at hnonneg
    have hle : format.rule.round (x / format.unit x) ≤ (format.base : ℤ) ^ format.digits := by
      exact_mod_cast le_of_mul_le_mul_right hhigh unit_pos
    have hsign : 0 ≤ format.rule.round (x / format.unit x) := by
      exact_mod_cast nonneg_of_mul_nonneg_left hnonneg unit_pos
    rcases hle.lt_or_eq with hlt | heq
    · exact ⟨_, _, by rwa [abs_of_nonneg hsign], rfl⟩
    · -- the next power of the base has the digit one
      refine ⟨1, Int.log format.base x + 1, ?_, ?_⟩
      · rw [abs_one]
        exact one_lt_pow₀ (by exact_mod_cast format.one_lt_base) format.digits_pos.ne'
      · rw [roundAbs, heq, Int.cast_one, one_mul, ← pow_log_succ_eq]
        push_cast
        rfl
  · have hbase : (0 : ℤ) < format.base := by exact_mod_cast Nat.zero_lt_of_lt format.one_lt_base
    exact ⟨0, 0, by simpa using pow_pos hbase format.digits, by rw [roundAbs_zero]; simp⟩

theorem fits_round (format : DigitFormat) (x : ℚ) : format.Fits (format.round x) := by
  rcases le_or_gt 0 x with h | h
  · rw [round_of_nonneg h]
    exact fits_roundAbs h
  · rw [round, if_pos h]
    exact (fits_roundAbs (by linarith)).neg

theorem Fits.roundAbs_eq (h : format.Fits x) (hpos : 0 < x) : format.roundAbs x = x := by
  obtain ⟨m, e, hm, heq⟩ := h
  have hpow : (0 : ℚ) < (format.base : ℚ) ^ e := zpow_pos base_pos e
  have hlow := Int.zpow_log_le_self format.one_lt_base hpos
  have hbound : x < (format.base : ℚ) ^ (format.digits + e) := by
    have hlt : (m : ℚ) < (format.base : ℚ) ^ format.digits := by
      exact_mod_cast (le_abs_self m).trans_lt hm
    rw [zpow_add₀ base_ne_zero, zpow_natCast, heq]
    exact mul_lt_mul_of_pos_right hlt hpow
  have hexponent : Int.log format.base x < format.digits + e :=
    (zpow_lt_zpow_iff_right₀ (by exact_mod_cast format.one_lt_base)).mp (hlow.trans_lt hbound)
  obtain ⟨k, hk⟩ := Int.eq_ofNat_of_zero_le
    (show 0 ≤ e - (Int.log format.base x + 1 - format.digits) by omega)
  have hscaled : x / format.unit x = ((m * (format.base : ℤ) ^ k : ℤ) : ℚ) := by
    have hsum : e = k + (Int.log format.base x + 1 - format.digits) := by omega
    rw [div_eq_iff unit_pos.ne', unit]
    push_cast
    rw [mul_assoc, ← zpow_natCast, ← zpow_add₀ base_ne_zero, ← hsum]
    exact heq
  rw [roundAbs, hscaled, format.rule.round_intCast, ← hscaled, div_mul_cancel₀ x unit_pos.ne']

/-- What has the digits is not changed. -/
theorem Fits.round_eq (h : format.Fits x) : format.round x = x := by
  rcases lt_trichotomy x 0 with hneg | rfl | hpos
  · rw [round, if_pos hneg, h.neg.roundAbs_eq (by linarith), neg_neg]
  · rw [round_of_nonneg le_rfl, roundAbs_zero]
  · rw [round_of_nonneg hpos.le, h.roundAbs_eq hpos]

theorem round_round (format : DigitFormat) (x : ℚ) :
    format.round (format.round x) = format.round x := (format.fits_round x).round_eq

/-! ## Numbers of a format -/

/-- A number that has the digits of a format. -/
structure Number (format : DigitFormat) where
  value : ℚ
  round_value : format.round value = value
  deriving DecidableEq

namespace Number

/-- The nearest number of a format. -/
def ofRat (format : DigitFormat) (x : ℚ) : Number format := ⟨format.round x, format.round_round x⟩

theorem value_injective : Function.Injective (value : Number format → ℚ) := by
  rintro ⟨x, hx⟩ ⟨y, hy⟩ rfl
  rfl

instance : LinearOrder (Number format) := LinearOrder.lift' value value_injective

instance : Add (Number format) := ⟨fun a b => ofRat format (a.value + b.value)⟩

instance (n : ℕ) : OfNat (Number format) n := ⟨ofRat format n⟩

instance : Repr (Number format) := ⟨fun a precedence => reprPrec a.value precedence⟩

variable {a b : Number format}

theorem le_iff : a ≤ b ↔ a.value ≤ b.value := Iff.rfl

theorem value_add : (a + b).value = format.round (a.value + b.value) := rfl

theorem value_zero : (0 : Number format).value = 0 := by
  rw [show (0 : Number format).value = format.round ((0 : ℕ) : ℚ) from rfl, Nat.cast_zero,
    round_of_nonneg le_rfl, roundAbs_zero]

/-- Adding what is not negative does not go back. -/
theorem le_add_of_nonneg (h : 0 ≤ b) : a ≤ a + b := by
  rw [le_iff, value_zero] at h
  rw [le_iff, value_add]
  calc a.value = format.round a.value := a.round_value.symm
    _ ≤ format.round (a.value + b.value) := format.round_mono (by linarith)

/-- A sum is near the exact one. -/
theorem abs_value_add_sub_le (a b : Number format) :
    |(a + b).value - (a.value + b.value)| ≤ format.precision * |a.value + b.value| :=
  format.abs_round_sub_le _

end Number

end DigitFormat

/-- The format of a `Double`. -/
def binary64 : DigitFormat := ⟨2, 53, .halfEven, by decide, by decide⟩

/-- A finite `Double`. -/
abbrev Double := binary64.Number

end SafeWallet
