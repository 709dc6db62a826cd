/-
# Texts of decimal digits

A text of digits denotes a number whatever zeros stand in front. Cutting such a text in two is
division with remainder by a power of ten, zeros at its end are factors of ten, and the digits of
a number are those of its quotient followed by a fixed number of digits for the remainder.
-/

import Mathlib.Data.List.DropRight
import Mathlib.Data.Rat.Floor
import Mathlib.Tactic.FieldSimp
import Mathlib.Tactic.Linarith
import Mathlib.Tactic.Ring

namespace SafeWallet

namespace Digits

/-- Only decimal digits. -/
def AllDigits (text : List Char) : Prop := ∀ c ∈ text, c.isDigit = true

instance (text : List Char) : Decidable (AllDigits text) :=
  decidable_of_iff (text.all Char.isDigit = true) List.all_eq_true

/-- The number that digits denote. No digits denote zero. -/
def value (digits : List Char) : ℕ := Nat.ofDigitChars 10 digits 0

variable {xs ys : List Char} {c : Char} {n m width : ℕ}

@[simp]
theorem allDigits_nil : AllDigits [] := by
  intro c hc
  cases hc

@[simp]
theorem allDigits_cons : AllDigits (c :: xs) ↔ c.isDigit = true ∧ AllDigits xs := by
  simp [AllDigits]

@[simp]
theorem allDigits_append : AllDigits (xs ++ ys) ↔ AllDigits xs ∧ AllDigits ys := by
  simp [AllDigits, or_imp, forall_and]

theorem AllDigits.sublist (h : AllDigits ys) (hsub : List.Sublist xs ys) : AllDigits xs :=
  fun c hc => h c (hsub.subset hc)

theorem allDigits_replicate_zero : AllDigits (List.replicate n '0') := by
  intro c hc
  rw [List.eq_of_mem_replicate hc]
  rfl

theorem allDigits_toDigits (n : ℕ) : AllDigits (Nat.toDigits 10 n) :=
  fun _ hc => Nat.isDigit_of_mem_toDigits (by decide) (by decide) hc

/-! ## The number -/

@[simp]
theorem value_nil : value [] = 0 := Nat.ofDigitChars_nil

theorem value_append (xs ys : List Char) :
    value (xs ++ ys) = value xs * 10 ^ ys.length + value ys := by
  rw [value, Nat.ofDigitChars_append, Nat.ofDigitChars_eq_ofDigitChars_zero, mul_comm]
  rfl

@[simp]
theorem value_toDigits (n : ℕ) : value (Nat.toDigits 10 n) = n := Nat.ofDigitChars_ten_toDigits

@[simp]
theorem value_replicate_zero (n : ℕ) : value (List.replicate n '0') = 0 := by
  rw [value, Nat.ofDigitChars_replicate_zero, mul_zero]

theorem value_singleton (c : Char) : value [c] = c.toNat - '0'.toNat := by
  rw [value, Nat.ofDigitChars_cons, Nat.ofDigitChars_nil]
  omega

theorem toNat_of_isDigit (h : c.isDigit = true) : '0'.toNat ≤ c.toNat ∧ c.toNat ≤ '9'.toNat := by
  rw [Char.isDigit, Bool.and_eq_true, decide_eq_true_eq, decide_eq_true_eq] at h
  exact h

theorem value_lt (h : AllDigits xs) : value xs < 10 ^ xs.length := by
  induction xs with
  | nil => decide
  | cons c xs ih =>
      obtain ⟨hc, hxs⟩ := allDigits_cons.mp h
      obtain ⟨hlow, hhigh⟩ := toNat_of_isDigit hc
      have hsplit : value (c :: xs) = value [c] * 10 ^ xs.length + value xs := value_append [c] xs
      have hdigit : value [c] ≤ 9 := by
        rw [value_singleton]
        have h9 : '9'.toNat = 57 := rfl
        have h0 : '0'.toNat = 48 := rfl
        omega
      have hle := Nat.mul_le_mul_right (10 ^ xs.length) hdigit
      have hxs := ih hxs
      rw [hsplit, List.length_cons, pow_succ]
      omega

/-- Only zeros denote zero. -/
theorem value_eq_zero_iff (h : AllDigits xs) : value xs = 0 ↔ ∀ c ∈ xs, c = '0' := by
  induction xs with
  | nil => simp
  | cons c xs ih =>
      obtain ⟨hc, hxs⟩ := allDigits_cons.mp h
      obtain ⟨hlow, -⟩ := toNat_of_isDigit hc
      have hsplit : value (c :: xs) = value [c] * 10 ^ xs.length + value xs := value_append [c] xs
      have hpow : 0 < 10 ^ xs.length := by positivity
      have hdigit : value [c] = 0 ↔ c = '0' := by
        rw [value_singleton, ← Char.toNat_inj]
        omega
      rw [hsplit, Nat.add_eq_zero_iff, Nat.mul_eq_zero, ih hxs, hdigit, List.forall_mem_cons]
      constructor
      · rintro ⟨hfirst | hfirst, hrest⟩
        · exact ⟨hfirst, hrest⟩
        · omega
      · exact fun ⟨hfirst, hrest⟩ => ⟨.inl hfirst, hrest⟩

/-- Digits that are not all zeros have a positive value. -/
theorem eq_replicate_iff (h : AllDigits xs) :
    xs = List.replicate xs.length '0' ↔ value xs = 0 := by
  rw [value_eq_zero_iff h, List.eq_replicate_iff]
  simp

/-- The first digits of a text are a quotient. -/
theorem value_take (h : AllDigits xs) (n : ℕ) :
    value (xs.take n) = value xs / 10 ^ (xs.drop n).length := by
  have hsplit : value xs = value (xs.take n) * 10 ^ (xs.drop n).length + value (xs.drop n) := by
    rw [← value_append, List.take_append_drop]
  have hlt : value (xs.drop n) < 10 ^ (xs.drop n).length :=
    value_lt (h.sublist (List.drop_sublist n xs))
  rw [hsplit, Nat.mul_comm, Nat.mul_add_div (by positivity), Nat.div_eq_of_lt hlt, Nat.add_zero]

/-! ## Zeros at the end -/

/-- What is dropped from the end of a text are copies of one character. -/
theorem exists_rdropWhile_append_replicate (xs : List Char) (c : Char) :
    ∃ k, xs = xs.rdropWhile (· = c) ++ List.replicate k c := by
  refine ⟨(xs.rtakeWhile (· = c)).length, ?_⟩
  have hcopies : xs.rtakeWhile (· = c) = List.replicate (xs.rtakeWhile (· = c)).length c := by
    rw [List.eq_replicate_iff]
    exact ⟨rfl, fun d hd => by simpa using List.mem_rtakeWhile_imp hd⟩
  rw [← hcopies, List.rdropWhile_append_rtakeWhile]

theorem rdropWhile_append_replicate (xs : List Char) (k : ℕ) (c : Char) :
    (xs ++ List.replicate k c).rdropWhile (· = c) = xs.rdropWhile (· = c) := by
  rw [List.rdropWhile, List.reverse_append, List.reverse_replicate, List.dropWhile_append_of_pos]
  · rfl
  · intro d hd
    simpa using List.eq_of_mem_replicate hd

/-- Zeros at the end are factors of ten. -/
theorem value_eq_value_rdropWhile (xs : List Char) :
    value xs = value (xs.rdropWhile (· = '0')) *
      10 ^ (xs.length - (xs.rdropWhile (· = '0')).length) := by
  obtain ⟨k, hk⟩ := exists_rdropWhile_append_replicate xs '0'
  have hlength : xs.length - (xs.rdropWhile (· = '0')).length = k := by
    have := congrArg List.length hk
    rw [List.length_append, List.length_replicate] at this
    omega
  rw [hlength]
  nth_rewrite 1 [hk]
  rw [value_append, value_replicate_zero, List.length_replicate, Nat.add_zero]

/-- Without zeros at its end a text of digits is no multiple of ten. -/
theorem value_rdropWhile_mod (h : AllDigits xs) (hne : xs.rdropWhile (· = '0') ≠ []) :
    value (xs.rdropWhile (· = '0')) % 10 ≠ 0 := by
  have hlast := List.rdropWhile_last_not (· = '0') xs hne
  have hdigits := h.sublist (List.rdropWhile_prefix (· = '0') xs).sublist
  have hsplit := List.dropLast_append_getLast hne
  generalize (xs.rdropWhile (· = '0')).getLast hne = c at hlast hsplit
  rw [← hsplit, allDigits_append, allDigits_cons] at hdigits
  obtain ⟨hlow, hhigh⟩ := toNat_of_isDigit hdigits.2.1
  have hne' : c.toNat ≠ '0'.toNat := by
    rw [Ne, Char.toNat_inj]
    simpa using hlast
  have h0 : '0'.toNat = 48 := rfl
  have h9 : '9'.toNat = 57 := rfl
  rw [← hsplit, value_append, value_singleton, List.length_singleton, pow_one]
  omega

/-! ## Digits behind a point -/

/-- The number that digits with a point denote. -/
def decimal (integer fraction : List Char) : ℚ :=
  value integer + value fraction / 10 ^ fraction.length

theorem decimal_eq (integer fraction : List Char) :
    decimal integer fraction = value (integer ++ fraction) / 10 ^ fraction.length := by
  rw [decimal, value_append]
  push_cast
  field_simp

/-- Zeros at the end of the fraction do not matter. -/
theorem decimal_rdropWhile (integer fraction : List Char) :
    decimal integer (fraction.rdropWhile (· = '0')) = decimal integer fraction := by
  have hle : (fraction.rdropWhile (· = '0')).length ≤ fraction.length :=
    (List.rdropWhile_prefix _ fraction).length_le
  have hpow : (10 : ℚ) ^ fraction.length = 10 ^ (fraction.rdropWhile (· = '0')).length *
      10 ^ (fraction.length - (fraction.rdropWhile (· = '0')).length) := by
    rw [← pow_add, Nat.add_sub_cancel' hle]
  rw [decimal, decimal, value_eq_value_rdropWhile fraction, hpow]
  push_cast
  field_simp

/-- With enough places a decimal is a whole number of units of the last one. -/
theorem decimal_mul_of_le {integer fraction : List Char} {precision : ℕ}
    (h : fraction.length ≤ precision) : decimal integer fraction * 10 ^ precision =
      ((value integer * 10 ^ precision +
        value fraction * 10 ^ (precision - fraction.length) : ℕ) : ℚ) := by
  have hpow : (10 : ℚ) ^ precision = 10 ^ (precision - fraction.length) * 10 ^ fraction.length := by
    rw [← pow_add, Nat.sub_add_cancel h]
  rw [decimal]
  push_cast
  rw [add_mul, hpow]
  field_simp

/-- With fewer places the digits that do not fit are left out. -/
theorem floor_decimal_mul {integer fraction : List Char} {precision : ℕ}
    (hfraction : AllDigits fraction) (h : precision ≤ fraction.length) :
    ⌊decimal integer fraction * 10 ^ precision⌋ =
      value integer * 10 ^ precision + value (fraction.take precision) := by
  have hsplit : value fraction = value (fraction.take precision) *
      10 ^ (fraction.length - precision) + value (fraction.drop precision) := by
    rw [← List.length_drop, ← value_append, List.take_append_drop]
  have hrest : value (fraction.drop precision) < 10 ^ (fraction.length - precision) := by
    rw [← List.length_drop]
    exact value_lt (hfraction.sublist (List.drop_sublist _ _))
  have hpow : (10 : ℚ) ^ fraction.length = 10 ^ precision * 10 ^ (fraction.length - precision) := by
    rw [← pow_add, Nat.add_sub_cancel' h]
  have hdecimal : decimal integer fraction * 10 ^ precision =
      ((value integer * 10 ^ precision + value (fraction.take precision) : ℕ) : ℚ) +
        value (fraction.drop precision) / 10 ^ (fraction.length - precision) := by
    rw [decimal, hsplit, hpow]
    push_cast
    field_simp
    ring
  have hlt : (value (fraction.drop precision) : ℚ) / 10 ^ (fraction.length - precision) < 1 := by
    rw [div_lt_one (by positivity)]
    exact_mod_cast hrest
  rw [hdecimal, Int.floor_eq_iff]
  push_cast
  constructor
  · have : (0 : ℚ) ≤ value (fraction.drop precision) / 10 ^ (fraction.length - precision) := by
      positivity
    linarith
  · linarith

/-- A decimal is a whole number of units only if its digits fit, up to zeros at the end. -/
theorem length_le_of_decimal_mul {integer fraction : List Char} {precision : ℕ} {units : ℤ}
    (hfraction : AllDigits fraction) (h : decimal integer fraction * 10 ^ precision = units) :
    (fraction.rdropWhile (· = '0')).length ≤ precision := by
  by_contra hlong
  have hne : fraction.rdropWhile (· = '0') ≠ [] := by
    intro hnil
    rw [hnil] at hlong
    exact hlong (Nat.zero_le _)
  have hmod := value_rdropWhile_mod hfraction hne
  rw [← decimal_rdropWhile, decimal_eq] at h
  generalize fraction.rdropWhile (· = '0') = kept at h hlong hmod
  obtain ⟨more, hmore⟩ : ∃ more, kept.length = precision + (more + 1) :=
    ⟨kept.length - precision - 1, by omega⟩
  rw [hmore, pow_add] at h
  have hscaled : (value (integer ++ kept) : ℚ) = units * 10 ^ (more + 1) := by
    field_simp at h
    rw [h, mul_comm]
  have hvalue : (value (integer ++ kept) : ℤ) = units * 10 ^ (more + 1) := by exact_mod_cast hscaled
  rw [value_append, hmore, ← Nat.add_assoc, pow_succ, pow_succ] at hvalue
  push_cast at hvalue
  have hdvd : (10 : ℤ) ∣ value kept :=
    ⟨units * 10 ^ more - value integer * 10 ^ (precision + more), by linarith⟩
  omega

/-! ## Digits of a quotient and a remainder -/

/-- The last digits of a number, as many as are asked for. -/
def fixed : ℕ → ℕ → List Char
  | 0, _ => []
  | width + 1, n => fixed width (n / 10) ++ [(n % 10).digitChar]

@[simp]
theorem length_fixed (width n : ℕ) : (fixed width n).length = width := by
  induction width generalizing n with
  | zero => rfl
  | succ width ih => rw [fixed, List.length_append, ih, List.length_singleton]

theorem toDigits_mod (n : ℕ) : Nat.toDigits 10 (n % 10) = [(n % 10).digitChar] :=
  Nat.toDigits_of_lt_base (Nat.mod_lt n (by decide))

theorem allDigits_fixed (width n : ℕ) : AllDigits (fixed width n) := by
  induction width generalizing n with
  | zero => exact allDigits_nil
  | succ width ih =>
      rw [fixed, allDigits_append, ← toDigits_mod]
      exact ⟨ih _, allDigits_toDigits _⟩

theorem value_fixed (width n : ℕ) : value (fixed width n) = n % 10 ^ width := by
  induction width generalizing n with
  | zero => simp [fixed, Nat.mod_one]
  | succ width ih =>
      rw [fixed, value_append, ih, ← toDigits_mod, value_toDigits, toDigits_mod,
        List.length_singleton, pow_one, pow_succ']
      have := Nat.mod_mul (x := n) (a := 10) (b := 10 ^ width)
      omega

theorem fixed_zero (width : ℕ) : fixed width 0 = List.replicate width '0' := by
  induction width with
  | zero => rfl
  | succ width ih =>
      rw [fixed, Nat.zero_div, ih, Nat.zero_mod, List.replicate_succ']
      rfl

theorem toDigits_append_fixed (hn : 0 < n) (hm : m < 10 ^ width) :
    Nat.toDigits 10 n ++ fixed width m = Nat.toDigits 10 (n * 10 ^ width + m) := by
  induction width generalizing m with
  | zero =>
      obtain rfl : m = 0 := by simpa using hm
      simp [fixed]
  | succ width ih =>
      have hquotient : m / 10 < 10 ^ width := by
        rw [Nat.div_lt_iff_lt_mul (by decide), ← pow_succ]
        exact hm
      have hpos : 0 < n * 10 ^ width + m / 10 := by positivity
      have hstep := Nat.toDigits_append_toDigits (b := 10) (by decide) hpos
        (Nat.mod_lt m (by decide))
      have hsum : 10 * (n * 10 ^ width + m / 10) + m % 10 = n * 10 ^ (width + 1) + m := by
        have := Nat.div_add_mod m 10
        rw [pow_succ]
        ring_nf at this ⊢
        omega
      rw [fixed, ← List.append_assoc, ih hquotient, ← toDigits_mod, hstep, hsum]

/-- Zeros in front fill up the width. -/
theorem replicate_append_toDigits (hn : n < 10 ^ width) (hwidth : 0 < width) :
    List.replicate (width - (Nat.toDigits 10 n).length) '0' ++ Nat.toDigits 10 n =
      fixed width n := by
  induction width generalizing n with
  | zero => omega
  | succ width ih =>
      by_cases hsmall : n < 10
      · have hdigit : Nat.toDigits 10 n = [n.digitChar] := Nat.toDigits_of_lt_base hsmall
        rw [fixed, Nat.div_eq_of_lt hsmall, fixed_zero, Nat.mod_eq_of_lt hsmall, hdigit]
        rfl
      · have hquotient : n / 10 < 10 ^ width := by
          rw [Nat.div_lt_iff_lt_mul (by decide), ← pow_succ]
          exact hn
        have hpos : 0 < n / 10 := Nat.div_pos (by omega) (by decide)
        have hwidth' : 0 < width := by
          by_contra hzero
          obtain rfl : width = 0 := by omega
          omega
        have hdigits : Nat.toDigits 10 n = Nat.toDigits 10 (n / 10) ++ [(n % 10).digitChar] := by
          rw [← toDigits_mod, Nat.toDigits_append_toDigits (by decide) hpos
            (Nat.mod_lt n (by decide)), Nat.div_add_mod]
        rw [hdigits, fixed, ← ih hquotient hwidth', List.length_append, List.length_singleton,
          Nat.add_sub_add_right, List.append_assoc]

/-- A number with one digit more than it needs starts with a zero. -/
theorem fixed_succ_of_lt (hn : n < 10 ^ width) : fixed (width + 1) n = '0' :: fixed width n := by
  induction width generalizing n with
  | zero =>
      obtain rfl : n = 0 := by simpa using hn
      rfl
  | succ width ih =>
      have hquotient : n / 10 < 10 ^ width := by
        rw [Nat.div_lt_iff_lt_mul (by decide), ← pow_succ]
        exact hn
      rw [fixed, ih hquotient, List.cons_append]
      rfl

/-- Written with as many digits as are cut off and one more, a number is cut into the digits of
its quotient and those of its remainder. -/
theorem padded_eq (n width : ℕ) :
    List.replicate (width + 1 - (Nat.toDigits 10 n).length) '0' ++ Nat.toDigits 10 n =
      Nat.toDigits 10 (n / 10 ^ width) ++ fixed width (n % 10 ^ width) := by
  have hpow : 0 < 10 ^ width := by positivity
  by_cases hsmall : n < 10 ^ width
  · have hlarger : n < 10 ^ (width + 1) := by
      rw [pow_succ]
      omega
    rw [replicate_append_toDigits hlarger (by omega), Nat.div_eq_of_lt hsmall,
      Nat.mod_eq_of_lt hsmall, Nat.toDigits_zero, fixed_succ_of_lt hsmall]
    rfl
  · have hpos : 0 < n / 10 ^ width := Nat.div_pos (by omega) hpow
    have hlength : width < (Nat.toDigits 10 n).length := by
      by_contra hle
      rcases Nat.eq_zero_or_pos width with rfl | hwidth
      · exact hle Nat.length_toDigits_pos
      · exact hsmall ((Nat.length_toDigits_le_iff (by decide) hwidth).mp (by omega))
    have hzeros : width + 1 - (Nat.toDigits 10 n).length = 0 := by omega
    rw [toDigits_append_fixed hpos (Nat.mod_lt n hpow), Nat.div_add_mod', hzeros]
    rfl

/-! ## Pieces from the end -/

/-- The pieces of a text between boundaries that are counted from its end. -/
def pieces (text : List Char) (boundaries : List ℕ) : List (List Char) :=
  (boundaries.zip boundaries.tail).reverse.map fun range =>
    (text.drop (text.length - range.2)).take (range.2 - range.1)

/-- Together the pieces are the text between the first and the last boundary. -/
theorem flatten_pieces {text : List Char} {first : ℕ} {boundaries : List ℕ}
    (hsorted : (first :: boundaries).Pairwise (· ≤ ·))
    (hbound : ∀ boundary ∈ first :: boundaries, boundary ≤ text.length) :
    (pieces text (first :: boundaries)).flatten =
      (text.drop (text.length - (first :: boundaries).getLast (List.cons_ne_nil _ _))).take
        ((first :: boundaries).getLast (List.cons_ne_nil _ _) - first) := by
  induction boundaries generalizing first with
  | nil => simp [pieces]
  | cons second rest ih =>
      obtain ⟨hfirst, hrest⟩ := List.pairwise_cons.mp hsorted
      have hpieces : pieces text (first :: second :: rest) = pieces text (second :: rest) ++
          [(text.drop (text.length - second)).take (second - first)] := by
        simp [pieces]
      have hlast : (second :: rest).getLast (List.cons_ne_nil _ _) ∈ second :: rest :=
        List.getLast_mem _
      have hle : second ≤ (second :: rest).getLast (List.cons_ne_nil _ _) := by
        rcases List.mem_cons.mp hlast with heq | hmem
        · exact heq.ge
        · exact (List.pairwise_cons.mp hrest).1 _ hmem
      have htext := hbound _ (List.mem_cons_of_mem _ hlast)
      have hsecond := hfirst second List.mem_cons_self
      rw [hpieces, List.flatten_append, ih hrest fun b hb => hbound b (List.mem_cons_of_mem _ hb),
        List.getLast_cons (List.cons_ne_nil _ _)]
      generalize (second :: rest).getLast (List.cons_ne_nil _ _) = last at hle htext
      have hsum : last - first = (last - second) + (second - first) := by omega
      have hdrop : text.length - second = (text.length - last) + (last - second) := by omega
      rw [hsum, List.take_add, List.drop_drop, ← hdrop]
      simp

theorem zip_tail_concat (front : List ℕ) (first last : ℕ) :
    (front ++ [first, last]).zip (front ++ [first, last]).tail =
      (front ++ [first]).zip (front ++ [first]).tail ++ [(first, last)] := by
  induction front with
  | nil => rfl
  | cons boundary front ih =>
      cases front with
      | nil => rfl
      | cons second rest =>
          simp only [List.cons_append, List.tail_cons, List.zip_cons_cons] at ih ⊢
          rw [ih]

/-- The first piece ends at the last boundary. -/
theorem pieces_concat (text : List Char) (front : List ℕ) (first last : ℕ) :
    pieces text (front ++ [first, last]) =
      (text.drop (text.length - last)).take (last - first) :: pieces text (front ++ [first]) := by
  rw [pieces, zip_tail_concat, List.reverse_append, List.map_append]
  rfl

end Digits

end SafeWallet
