/-
# Rounding to multiples

A number is rounded down to a multiple of a unit, or up to the next one. A bound that is itself a
multiple is not crossed by rounding down, and at most reached by rounding up. For powers of ten
this is the rounding of a decimal to so many digits, before or behind the point.
-/

import Mathlib.Algebra.Order.Field.Power
import Mathlib.Data.Rat.Floor
import Mathlib.Tactic.FieldSimp
import Mathlib.Tactic.Linarith
import Mathlib.Tactic.Ring

namespace SafeWallet

namespace Rounding

/-- The largest multiple that is not above a number. -/
def down (unit n : ℕ) : ℕ := n / unit * unit

/-- The smallest multiple that is not below a number. -/
def up (unit n : ℕ) : ℕ := if n % unit = 0 then n else (n / unit + 1) * unit

variable {unit n bound : ℕ}

theorem down_le (unit n : ℕ) : down unit n ≤ n := Nat.div_mul_le_self n unit

theorem down_of_mod_eq_zero (h : n % unit = 0) : down unit n = n :=
  Nat.div_mul_cancel (Nat.dvd_of_mod_eq_zero h)

theorem up_of_mod_eq_zero (h : n % unit = 0) : up unit n = n := if_pos h

theorem le_up (hunit : 0 < unit) (n : ℕ) : n ≤ up unit n := by
  rw [up]
  split
  case isTrue => exact Nat.le_refl n
  case isFalse =>
      have hsplit := Nat.div_add_mod' n unit
      have hlt := Nat.mod_lt n hunit
      rw [Nat.add_one_mul]
      omega

theorem up_mod_eq_zero (unit n : ℕ) : up unit n % unit = 0 := by
  rw [up]
  split
  case isTrue h => exact h
  case isFalse => exact Nat.mul_mod_left _ _

/-- A multiple is not crossed by rounding down. -/
theorem down_lt_iff (hunit : 0 < unit) (hbound : unit ∣ bound) : down unit n < bound ↔ n < bound := by
  obtain ⟨k, rfl⟩ := hbound
  rw [down, Nat.mul_comm unit k, Nat.mul_lt_mul_right hunit, Nat.div_lt_iff_lt_mul hunit]

/-- A multiple is at most reached by rounding up. -/
theorem up_le (hunit : 0 < unit) (hbound : unit ∣ bound) (h : n ≤ bound) : up unit n ≤ bound := by
  obtain ⟨k, rfl⟩ := hbound
  rw [up]
  split
  case isTrue => exact h
  case isFalse hmod =>
      have hne : n ≠ unit * k := by
        rintro rfl
        exact hmod (Nat.mul_mod_right _ _)
      have hlt : n / unit < k := by
        rw [Nat.div_lt_iff_lt_mul hunit, Nat.mul_comm]
        omega
      rw [Nat.mul_comm unit k]
      exact Nat.mul_le_mul_right unit hlt

/-! ## Decimals -/

theorem floor_div (unit n : ℕ) : ⌊(n / unit : ℚ)⌋ * (unit : ℤ) = down unit n := by
  rw [Rat.floor_natCast_div_natCast, down]
  push_cast
  rfl

theorem ceil_div (hunit : 0 < unit) (n : ℕ) : ⌈(n / unit : ℚ)⌉ * (unit : ℤ) = up unit n := by
  have hpos : (0 : ℚ) < unit := by exact_mod_cast hunit
  have hsplit := Nat.div_add_mod' n unit
  rw [up]
  split
  case isTrue hmod =>
      rw [hmod, Nat.add_zero] at hsplit
      have hquotient : (n / unit : ℚ) = ((n / unit : ℕ) : ℚ) := by
        rw [div_eq_iff hpos.ne']
        exact_mod_cast hsplit.symm
      rw [hquotient, Int.ceil_natCast]
      exact_mod_cast hsplit
  case isFalse hmod =>
      have hceil : ⌈(n / unit : ℚ)⌉ = (n / unit : ℕ) + 1 := by
        rw [Int.ceil_eq_iff, lt_div_iff₀ hpos, div_le_iff₀ hpos]
        push_cast
        constructor
        · have hlt : n / unit * unit < n := by omega
          rw [add_sub_cancel_right]
          exact_mod_cast hlt
        · have hlt := Nat.mod_lt n hunit
          have hle : n ≤ (n / unit + 1) * unit := by
            rw [Nat.add_one_mul]
            omega
          exact_mod_cast hle
      rw [hceil]
      push_cast
      rfl

/-- The digits left out, when so many are shown of a decimal. They are behind the point if the
number of digits is positive, and in front of it otherwise. -/
def omitted (precision : ℕ) (digits : ℤ) : ℕ := (precision - digits).toNat

variable {precision : ℕ} {digits : ℤ}

theorem zpow_mul_omitted (h : digits ≤ precision) :
    (10 : ℚ) ^ digits * ((10 ^ omitted precision digits : ℕ) : ℚ) = 10 ^ precision := by
  have hexponent : digits + (omitted precision digits : ℤ) = precision := by
    rw [omitted]
    omega
  push_cast
  rw [← zpow_natCast, ← zpow_natCast, ← zpow_add₀ (by norm_num), hexponent]

/-- With all its digits a decimal is a whole number. -/
theorem mul_zpow_of_lt (h : (precision : ℤ) < digits) (n : ℕ) :
    (n / 10 ^ precision : ℚ) * 10 ^ digits =
      ((n * 10 ^ (digits - precision).toNat : ℕ) : ℚ) := by
  have hexponent : digits = (precision : ℤ) + ((digits - precision).toNat : ℤ) := by omega
  nth_rewrite 1 [hexponent]
  rw [zpow_add₀ (by norm_num), zpow_natCast, zpow_natCast]
  push_cast
  field_simp

theorem mul_zpow_of_le (h : digits ≤ precision) (n : ℕ) :
    (n / 10 ^ precision : ℚ) * 10 ^ digits = n / ((10 ^ omitted precision digits : ℕ) : ℚ) := by
  have hpow : ((10 ^ omitted precision digits : ℕ) : ℚ) ≠ 0 := by positivity
  rw [← zpow_mul_omitted h]
  field_simp

theorem div_zpow_eq (h : digits ≤ precision) {units : ℤ} {rounded : ℕ}
    (hunits : units * ((10 ^ omitted precision digits : ℕ) : ℤ) = rounded) :
    (units / 10 ^ digits : ℚ) = rounded / 10 ^ precision := by
  have hpow : ((10 ^ omitted precision digits : ℕ) : ℚ) ≠ 0 := by positivity
  have hrounded : (rounded : ℚ) = units * ((10 ^ omitted precision digits : ℕ) : ℚ) := by
    exact_mod_cast hunits.symm
  rw [← zpow_mul_omitted h, hrounded]
  field_simp

theorem omitted_of_lt (h : (precision : ℤ) < digits) : omitted precision digits = 0 := by
  rw [omitted]
  omega

/-- A decimal cut off behind so many digits. -/
theorem floor_mul_zpow (n precision : ℕ) (digits : ℤ) :
    (⌊(n / 10 ^ precision : ℚ) * 10 ^ digits⌋ / 10 ^ digits : ℚ) =
      down (10 ^ omitted precision digits) n / 10 ^ precision := by
  have hpow : (10 : ℚ) ^ digits ≠ 0 := by positivity
  rcases le_or_gt digits precision with hle | hlt
  · apply div_zpow_eq hle
    rw [mul_zpow_of_le hle]
    exact floor_div _ n
  · have hdown : down (10 ^ omitted precision digits) n = n := by
      rw [omitted_of_lt hlt, pow_zero, down_of_mod_eq_zero (Nat.mod_one n)]
    rw [mul_zpow_of_lt hlt, Int.floor_natCast, Int.cast_natCast, ← mul_zpow_of_lt hlt,
      mul_div_cancel_right₀ _ hpow, hdown]

/-- A decimal rounded up behind so many digits. -/
theorem ceil_mul_zpow (n precision : ℕ) (digits : ℤ) :
    (⌈(n / 10 ^ precision : ℚ) * 10 ^ digits⌉ / 10 ^ digits : ℚ) =
      up (10 ^ omitted precision digits) n / 10 ^ precision := by
  have hpow : (10 : ℚ) ^ digits ≠ 0 := by positivity
  rcases le_or_gt digits precision with hle | hlt
  · apply div_zpow_eq hle
    rw [mul_zpow_of_le hle]
    exact ceil_div (by positivity) n
  · have hup : up (10 ^ omitted precision digits) n = n := by
      rw [omitted_of_lt hlt, pow_zero, up_of_mod_eq_zero (Nat.mod_one n)]
    rw [mul_zpow_of_lt hlt, Int.ceil_natCast, Int.cast_natCast, ← mul_zpow_of_lt hlt,
      mul_div_cancel_right₀ _ hpow, hup]

theorem down_eq_iff : down unit n = n ↔ n % unit = 0 := by
  constructor
  · intro h
    rw [← h]
    exact Nat.mul_mod_left _ _
  · exact down_of_mod_eq_zero

/-- A decimal that has no more digits than are shown. -/
theorem floor_eq_iff (n precision : ℕ) (digits : ℤ) :
    (⌊(n / 10 ^ precision : ℚ) * 10 ^ digits⌋ : ℚ) = n / 10 ^ precision * 10 ^ digits ↔
      n % 10 ^ omitted precision digits = 0 := by
  have hpow : (10 : ℚ) ^ digits ≠ 0 := by positivity
  have hpow' : (10 : ℚ) ^ precision ≠ 0 := by positivity
  rw [← div_eq_iff hpow, floor_mul_zpow, div_left_inj' hpow', Nat.cast_inj, down_eq_iff]

end Rounding

end SafeWallet
