/-
# The digits of an amount

The digits of an amount are those of its quotient by a power of ten, and as many digits for the
remainder as the precision asks for. Grouping the integer part keeps its digits.
-/

import SafeWallet.Formatting.TokenFormatter

namespace SafeWallet

open Digits

namespace TokenFormatter

variable {number : BigDecimal} {text separator : List Char} {size count : ℕ}

/-! ## The two parts of the digits -/

theorem numberString_eq (number : BigDecimal) : numberString number =
    Nat.toDigits 10 (number.value.natAbs / 10 ^ number.precision) ++
      fixed number.precision (number.value.natAbs % 10 ^ number.precision) :=
  padded_eq number.value.natAbs number.precision

theorem fractional_eq (number : BigDecimal) : fractional number =
    fixed number.precision (number.value.natAbs % 10 ^ number.precision) := by
  rw [fractional, numberString_eq, List.rtake_eq_reverse_take_reverse]
  simp

theorem integer_eq (number : BigDecimal) :
    integer number = Nat.toDigits 10 (number.value.natAbs / 10 ^ number.precision) := by
  rw [integer, fractional_eq, numberString_eq, length_fixed, List.length_append, length_fixed,
    Nat.add_sub_cancel, List.take_left]

@[simp]
theorem length_fractional (number : BigDecimal) :
    (fractional number).length = number.precision := by
  rw [fractional_eq, length_fixed]

theorem allDigits_fractional (number : BigDecimal) : AllDigits (fractional number) := by
  rw [fractional_eq]
  exact allDigits_fixed _ _

theorem allDigits_integer (number : BigDecimal) : AllDigits (integer number) := by
  rw [integer_eq]
  exact allDigits_toDigits _

/-- Together the two parts are the magnitude of the amount. -/
theorem value_integer_append_fractional (number : BigDecimal) :
    value (integer number ++ fractional number) = number.value.natAbs := by
  rw [value_append, length_fractional, integer_eq, fractional_eq, value_toDigits, value_fixed,
    Nat.mod_mod, Nat.div_add_mod']

/-- The number of digits in front of the point. -/
theorem length_integer_le_iff {k : ℕ} (hk : 0 < k) : (integer number).length ≤ k ↔
    number.value.natAbs < 10 ^ k * 10 ^ number.precision := by
  rw [integer_eq, Nat.length_toDigits_le_iff (by decide) hk, Nat.div_lt_iff_lt_mul (by positivity)]

theorem integer_ne_nil (number : BigDecimal) : integer number ≠ [] := by
  rw [integer_eq, ← List.length_pos_iff]
  exact Nat.length_toDigits_pos

/-! ## Groups -/

/-- A boundary but the last is smaller than the number of characters. -/
theorem boundary_lt (hsize : 0 < size) {i : ℕ} (hi : i < (count + size - 1) / size) :
    i * size < count := by
  have hle : (i + 1) * size ≤ count + size - 1 := (Nat.le_div_iff_mul_le hsize).mp hi
  rw [Nat.add_one_mul] at hle
  omega

theorem groupBoundaries_eq_cons (hsize : 0 < size) (hcount : 0 < count) :
    groupBoundaries count size = 0 :: (groupBoundaries count size).tail := by
  have hpos : 0 < (count + size - 1) / size := Nat.div_pos (by omega) hsize
  obtain ⟨k, hk⟩ := Nat.exists_eq_succ_of_ne_zero hpos.ne'
  rw [groupBoundaries, hk, List.range_succ_eq_map]
  simp

theorem groupBoundaries_sorted (hsize : 0 < size) :
    (groupBoundaries count size).Pairwise (· ≤ ·) := by
  rw [groupBoundaries, List.pairwise_append]
  refine ⟨?_, List.pairwise_singleton _ _, ?_⟩
  · rw [List.pairwise_map]
    exact List.pairwise_lt_range.imp fun hlt => Nat.mul_le_mul_right size hlt.le
  · intro boundary hmem last hlast
    obtain ⟨i, hi, rfl⟩ := List.mem_map.mp hmem
    rw [List.mem_singleton.mp hlast]
    exact (boundary_lt hsize (List.mem_range.mp hi)).le

theorem mem_groupBoundaries_le (hsize : 0 < size) :
    ∀ boundary ∈ groupBoundaries count size, boundary ≤ count := by
  intro boundary hmem
  obtain hmem | hlast := List.mem_append.mp hmem
  · obtain ⟨i, hi, rfl⟩ := List.mem_map.mp hmem
    exact (boundary_lt hsize (List.mem_range.mp hi)).le
  · exact (List.mem_singleton.mp hlast).le

/-- The groups of a text are the text. -/
theorem flatten_groups (hsize : 0 < size) (text : List Char) :
    (groups text size).flatten = text := by
  rw [groups]
  split
  case isTrue => simp
  case isFalse hlong =>
      have hcons := groupBoundaries_eq_cons hsize (by omega : 0 < text.length)
      have hsorted := @groupBoundaries_sorted _ text.length hsize
      have hbound := @mem_groupBoundaries_le _ text.length hsize
      have hlast : ∀ hne, (groupBoundaries text.length size).getLast hne = text.length := by
        intro hne
        exact List.getLast_concat
      rw [hcons] at hsorted hbound hlast ⊢
      rw [flatten_pieces hsorted hbound, hlast]
      simp

/-- The first group of a text is not empty. -/
theorem groups_eq_cons (hsize : 0 < size) (htext : text ≠ []) :
    ∃ first others, groups text size = first :: others ∧ first ≠ [] := by
  rw [groups]
  split
  case isTrue => exact ⟨text, [], rfl, htext⟩
  case isFalse hlong =>
      have hpos : 0 < (text.length + size - 1) / size := Nat.div_pos (by omega) hsize
      obtain ⟨k, hk⟩ := Nat.exists_eq_succ_of_ne_zero hpos.ne'
      have hlast : k * size < text.length := boundary_lt hsize (by omega)
      have hboundaries : groupBoundaries text.length size =
          (List.range k).map (· * size) ++ [k * size, text.length] := by
        rw [groupBoundaries, hk, List.range_succ, List.map_append, List.append_assoc]
        rfl
      rw [hboundaries, pieces_concat]
      refine ⟨_, _, rfl, ?_⟩
      rw [Nat.sub_self, List.drop_zero, ← List.length_pos_iff, List.length_take]
      omega

/-- The separators left out, joined parts are what they were. -/
theorem filter_joined {p : Char → Bool} (hsep : separator.filter p = [])
    (parts : List (List Char)) :
    (Separated.joined separator parts).filter p = parts.flatten.filter p := by
  induction parts with
  | nil => rfl
  | cons first rest ih =>
      cases rest with
      | nil => simp [Separated.joined]
      | cons second others =>
          rw [Separated.joined, List.filter_append, List.filter_append, ih, hsep,
            List.nil_append, ← List.filter_append]
          rfl

end TokenFormatter

end SafeWallet
