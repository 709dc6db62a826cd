/-
# One pass of the short format

A pass cuts the digits of the magnitude in two. The kept digits are a quotient by a power of ten
and the others the remainder, whatever the format. So a pass either writes the kept digits or asks
for the next multiple of that power.
-/

import SafeWallet.Formatting.Magnitude
import SafeWallet.Formatting.NumberParsing

namespace SafeWallet

open Digits

namespace TokenFormatter

variable {kit : BigIntKit} {behavior : RoundingBehavior} {style : Style} {number : BigDecimal}
  {kept remainder : List Char} {degree : ℕ} {literal : List Char}

/-! ## Rounding up -/

theorem parse_allDigits (kit : BigIntKit) {digits : List Char} (h : AllDigits digits) :
    kit.parse digits = some (value digits : ℤ) :=
  (kit.parse_iff _ _).mpr (.plain h)

/-- The next number with the kept digits and zeros. -/
theorem roundedUp_eq (hkept : AllDigits kept) (hremainder : AllDigits remainder) :
    roundedUp kit behavior kept remainder =
      .ok (if behavior = .roundUp ∧ value remainder ≠ 0 then
        some (((value kept + 1) * 10 ^ remainder.length : ℕ) : ℤ) else none) := by
  have hzeros : AllDigits (List.replicate remainder.length '0') := allDigits_replicate_zero
  have hneeds : (remainder ≠ [] ∧ remainder ≠ List.replicate remainder.length '0') ↔
      value remainder ≠ 0 := by
    rw [Ne, Ne, eq_replicate_iff hremainder]
    constructor
    · exact fun h => h.2
    · intro hvalue
      refine ⟨?_, hvalue⟩
      rintro rfl
      exact hvalue value_nil
  rw [roundedUp]
  by_cases hround : behavior = .roundUp ∧ value remainder ≠ 0
  · rw [if_pos ⟨hround.1, hneeds.mpr hround.2⟩, if_pos hround,
      parse_allDigits kit (allDigits_append.mpr ⟨hkept, hzeros⟩),
      parse_allDigits kit (allDigits_cons.mpr ⟨rfl, hzeros⟩)]
    have hone : value ('1' :: List.replicate remainder.length '0') = 10 ^ remainder.length := by
      have hsplit := value_append ['1'] (List.replicate remainder.length '0')
      rw [value_replicate_zero, List.length_replicate, List.singleton_append] at hsplit
      rw [hsplit, value_singleton]
      simp
    simp only [Trapping.unwrap_some, Trapping.ok_bind, Trapping.pure_eq_ok, hone, value_append,
      value_replicate_zero, List.length_replicate]
    push_cast
    ring_nf
  · rw [if_neg hround, if_neg fun h => hround ⟨h.1, hneeds.mp h.2⟩]
    rfl

/-- What is kept and what is left out of a magnitude are its quotient and its remainder. -/
theorem value_cut (h : kept ++ remainder = integer number ++ fractional number) :
    AllDigits kept ∧ AllDigits remainder ∧
      value kept = number.value.natAbs / 10 ^ remainder.length ∧
      value remainder = number.value.natAbs % 10 ^ remainder.length := by
  have hdigits : AllDigits (kept ++ remainder) := by
    rw [h, allDigits_append]
    exact ⟨allDigits_integer number, allDigits_fractional number⟩
  have hvalue : value (kept ++ remainder) = number.value.natAbs := by
    rw [h, value_integer_append_fractional]
  obtain ⟨hkept, hremainder⟩ := allDigits_append.mp hdigits
  have hlt := value_lt hremainder
  rw [value_append, Nat.mul_comm] at hvalue
  refine ⟨hkept, hremainder, ?_, ?_⟩
  · rw [← hvalue, Nat.mul_add_div (by positivity), Nat.div_eq_of_lt hlt, Nat.add_zero]
  · rw [← hvalue, Nat.mul_add_mod, Nat.mod_eq_of_lt hlt]

/-- The result of a pass that leaves out so many digits and would write the text. -/
def passResult (behavior : RoundingBehavior) (magnitude omitted : ℕ) (text : List Char) : Pass :=
  if behavior = .roundUp ∧ magnitude % 10 ^ omitted ≠ 0 then
    .again (((magnitude / 10 ^ omitted + 1) * 10 ^ omitted : ℕ) : ℤ)
  else .done text

theorem pass_of_cut (h : kept ++ remainder = integer number ++ fractional number)
    (text : List Char) :
    (do
      match ← roundedUp kit behavior kept remainder with
      | some newNumber => return .again newNumber
      | none => return .done text : Trapping Pass) =
      .ok (passResult behavior number.value.natAbs remainder.length text) := by
  obtain ⟨hkept, hremainder, hquotient, hrest⟩ := value_cut h
  rw [roundedUp_eq hkept hremainder, hquotient, hrest, passResult]
  split <;> rfl

/-- How many digits behind the point are kept. -/
def keptDigits (number : BigDecimal) : ℕ := min (8 - (integer number).length) 5

theorem unabbreviated_cut (number : BigDecimal) :
    (integer number ++ (fractional number).take (keptDigits number)) ++
        (fractional number).drop (keptDigits number) = integer number ++ fractional number ∧
      ((fractional number).drop (keptDigits number)).length =
        number.precision - keptDigits number := by
  rw [List.append_assoc, List.take_append_drop, List.length_drop, length_fractional]
  exact ⟨rfl, rfl⟩

theorem unabbreviated_eq (number : BigDecimal) : unabbreviated kit behavior style number =
    .ok (passResult behavior number.value.natAbs (number.precision - keptDigits number)
      (finished style (number.value < 0) (integer number)
        (removingTrailingZeroes ((fractional number).take (keptDigits number))) [])) := by
  have hremainder : (fractional number).rtake ((fractional number).length -
      ((fractional number).take (keptDigits number)).length) =
        (fractional number).drop (keptDigits number) := by
    rw [List.rtake, List.length_take]
    rcases Nat.le_total (keptDigits number) (fractional number).length with hle | hle
    · rw [Nat.min_eq_left hle, Nat.sub_sub_self hle]
    · rw [Nat.min_eq_right hle, Nat.sub_self, Nat.sub_zero, List.drop_length,
        List.drop_of_length_le hle]
  obtain ⟨hcut, hlength⟩ := unabbreviated_cut number
  rw [← hlength, ← pass_of_cut hcut, ← hremainder]
  rfl

theorem abbreviated_cut (hdegree : 3 ≤ degree) (hlong : degree ≤ (integer number).length) :
    ((integer number).take ((integer number).length - degree) ++
        ((integer number).rtake degree).take 3) ++
          ((integer number).rtake (degree - 3) ++ fractional number) =
        integer number ++ fractional number ∧
      ((integer number).rtake (degree - 3) ++ fractional number).length =
        degree - 3 + number.precision := by
  have hfront : (integer number).rtake (degree - 3) = ((integer number).rtake degree).drop 3 := by
    rw [List.rtake, List.rtake, List.drop_drop]
    congr 1
    omega
  constructor
  · rw [hfront, ← List.append_assoc, List.append_assoc (List.take _ _), List.take_append_drop,
      List.rtake, List.take_append_drop]
  · rw [List.length_append, length_fractional, List.rtake, List.length_drop]
    omega

theorem abbreviated_eq (hdegree : 3 ≤ degree) (hlong : degree ≤ (integer number).length) :
    abbreviated kit behavior style degree literal number =
      .ok (passResult behavior number.value.natAbs (degree - 3 + number.precision)
        (finished style (number.value < 0)
          ((integer number).take ((integer number).length - degree))
          (((integer number).rtake degree).take 3) literal)) := by
  obtain ⟨hcut, hlength⟩ := abbreviated_cut hdegree hlong
  rw [← hlength, ← pass_of_cut hcut]
  rfl

end TokenFormatter

end SafeWallet
