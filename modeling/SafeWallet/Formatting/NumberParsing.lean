/-
# Reading amounts

Whatever the text, the formatter reads an integer part and a fractional part, each with a sign of
its own, and scales the fractional part by the digits it has. So digits beyond the precision take
the whole fractional part with them, a minus in front does not reach the fractional part, and a
sign behind the point is read.
-/

import SafeWallet.Formatting.TokenFormatter

namespace SafeWallet

open Digits

/-! ## Signed digits -/

/-- Digits with an optional sign in front. -/
def IsSigned (text : List Char) : Prop := ∃ number, Signed text number

section Signed

variable {text digits : List Char} {number : ℤ}

theorem isDigit_ne_sign {c : Char} (h : c.isDigit = true) : c ≠ '+' ∧ c ≠ '-' := by
  constructor <;> rintro rfl <;> revert h <;> decide

theorem Signed.mem (h : Signed text number) {c : Char} (hc : c ∈ text) :
    c.isDigit = true ∨ c = '+' ∨ c = '-' := by
  cases h with
  | plain hdigits => exact .inl (hdigits c hc)
  | plus hdigits =>
      obtain rfl | hc := List.mem_cons.mp hc
      · exact .inr (.inl rfl)
      · exact .inl (hdigits c hc)
  | minus hdigits =>
      obtain rfl | hc := List.mem_cons.mp hc
      · exact .inr (.inr rfl)
      · exact .inl (hdigits c hc)

/-- The front of signed digits has the sign. -/
theorem isSigned_append {front rest : List Char} (h : Signed (front ++ rest) number) :
    IsSigned front ∨ front = [] := by
  cases front with
  | nil => exact .inr rfl
  | cons c front =>
      left
      rw [List.cons_append] at h
      generalize hdigits : front ++ rest = digits at h
      have hfront : AllDigits digits → AllDigits front := by
        intro hall
        rw [← hdigits, allDigits_append] at hall
        exact hall.1
      cases h with
      | plain hall =>
          obtain ⟨hc, hall⟩ := allDigits_cons.mp hall
          exact ⟨_, .plain (allDigits_cons.mpr ⟨hc, hfront hall⟩)⟩
      | plus hall => exact ⟨_, .plus (hfront hall)⟩
      | minus hall => exact ⟨_, .minus (hfront hall)⟩

/-- Zeros at the end are not signs. -/
theorem isSigned_removingTrailingZeroes :
    IsSigned (removingTrailingZeroes text) ↔ IsSigned text := by
  obtain ⟨k, hk⟩ := exists_rdropWhile_append_replicate text '0'
  have hzeros : AllDigits (List.replicate k '0') := allDigits_replicate_zero
  rw [removingTrailingZeroes]
  generalize text.rdropWhile (· = '0') = stripped at hk
  subst hk
  constructor
  · rintro ⟨_, h | h | h⟩
    · exact ⟨_, .plain (allDigits_append.mpr ⟨h, hzeros⟩)⟩
    · exact ⟨_, .plus (allDigits_append.mpr ⟨h, hzeros⟩)⟩
    · exact ⟨_, .minus (allDigits_append.mpr ⟨h, hzeros⟩)⟩
  · rintro ⟨_, h⟩
    rcases isSigned_append h with hdigits | rfl
    · exact hdigits
    · exact ⟨0, .plain allDigits_nil⟩

end Signed

/-! ## A parser of signed digits -/

/-- The number of digits. -/
def unsignedNumber (digits : List Char) : Option ℤ :=
  if AllDigits digits then some (value digits) else none

/-- The number of digits with an optional sign in front. -/
def signedNumber : List Char → Option ℤ
  | '+' :: digits => unsignedNumber digits
  | '-' :: digits => (unsignedNumber digits).map (-·)
  | digits => unsignedNumber digits

theorem unsignedNumber_eq_some_iff {digits : List Char} {number : ℤ} :
    unsignedNumber digits = some number ↔ AllDigits digits ∧ value digits = number := by
  rw [unsignedNumber, Option.ite_none_right_eq_some, Option.some.injEq]

theorem signedNumber_eq_some_iff (text : List Char) (number : ℤ) :
    signedNumber text = some number ↔ Signed text number := by
  constructor
  · intro h
    unfold signedNumber at h
    split at h
    case h_1 =>
        obtain ⟨hdigits, rfl⟩ := unsignedNumber_eq_some_iff.mp h
        exact .plus hdigits
    case h_2 =>
        obtain ⟨magnitude, hmagnitude, rfl⟩ := Option.map_eq_some_iff.mp h
        obtain ⟨hdigits, rfl⟩ := unsignedNumber_eq_some_iff.mp hmagnitude
        exact .minus hdigits
    case h_3 =>
        obtain ⟨hdigits, rfl⟩ := unsignedNumber_eq_some_iff.mp h
        exact .plain hdigits
  · intro h
    cases h with
    | plain hdigits =>
        unfold signedNumber
        split
        case h_1 => exact absurd rfl (isDigit_ne_sign (allDigits_cons.mp hdigits).1).1
        case h_2 => exact absurd rfl (isDigit_ne_sign (allDigits_cons.mp hdigits).1).2
        case h_3 => exact unsignedNumber_eq_some_iff.mpr ⟨hdigits, rfl⟩
    | plus hdigits => exact unsignedNumber_eq_some_iff.mpr ⟨hdigits, rfl⟩
    | minus hdigits =>
        exact Option.map_eq_some_iff.mpr ⟨_, unsignedNumber_eq_some_iff.mpr ⟨hdigits, rfl⟩, rfl⟩

/-- The parser together with the power of integers. -/
def decimalKit : BigIntKit where
  parse := signedNumber
  parse_iff := signedNumber_eq_some_iff
  power base exponent :=
    if 0 ≤ exponent then base ^ exponent.toNat else if base = 1 then 1 else 0
  power_natCast base exponent := by simp
  power_neg base exponent hbase hexponent := by
    rw [if_neg (by omega), if_neg (by omega)]

/-! ## The two parts -/

namespace TokenFormatter

/-- What stands behind the last separator. -/
def fractionPart (text : List Char) : List Char :=
  if text.any (· ∈ decimalSeparators) then text.rtakeWhile (· ∉ decimalSeparators) else []

/-- What stands in front of the last separator, or the whole text, without separators. -/
def integerPart (text : List Char) : List Char :=
  (text.take (text.length - (fractionPart text).length)).filter (· ∉ decimalSeparators)

variable {text integer fraction before : List Char} {sep : Char}

/-- A text has no separator or a last one. -/
theorem separated_cases (text : List Char) :
    (∀ c ∈ text, c ∉ decimalSeparators) ∨ ∃ before sep fraction,
      text = before ++ sep :: fraction ∧ sep ∈ decimalSeparators ∧
        ∀ c ∈ fraction, c ∉ decimalSeparators := by
  induction text with
  | nil =>
      left
      intro c hc
      cases hc
  | cons c rest ih =>
      obtain hrest | ⟨before, sep, fraction, rfl, hsep, hfraction⟩ := ih
      · by_cases hc : c ∈ decimalSeparators
        · exact .inr ⟨[], c, rest, rfl, hc, hrest⟩
        · exact .inl (List.forall_mem_cons.mpr ⟨hc, hrest⟩)
      · exact .inr ⟨c :: before, sep, fraction, rfl, hsep, hfraction⟩

theorem fractionPart_of_unseparated (h : ∀ c ∈ text, c ∉ decimalSeparators) :
    fractionPart text = [] := by
  rw [fractionPart, if_neg]
  rw [List.any_eq_true]
  rintro ⟨c, hc, hsep⟩
  exact h c hc (of_decide_eq_true hsep)

theorem integerPart_of_unseparated (h : ∀ c ∈ text, c ∉ decimalSeparators) :
    integerPart text = text := by
  rw [integerPart, fractionPart_of_unseparated h, List.length_nil, Nat.sub_zero, List.take_length,
    List.filter_eq_self]
  simpa using h

theorem fractionPart_append (hsep : sep ∈ decimalSeparators)
    (h : ∀ c ∈ fraction, c ∉ decimalSeparators) :
    fractionPart (before ++ sep :: fraction) = fraction := by
  have hany : (before ++ sep :: fraction).any (· ∈ decimalSeparators) = true :=
    List.any_eq_true.mpr ⟨sep, by simp, decide_eq_true hsep⟩
  rw [fractionPart, if_pos hany, List.rtakeWhile, List.reverse_append,
    List.reverse_cons, List.append_assoc, List.singleton_append, List.takeWhile_append_of_pos,
    List.takeWhile_cons_of_neg, List.append_nil, List.reverse_reverse]
  · simpa using hsep
  · simpa using h

theorem integerPart_append (hsep : sep ∈ decimalSeparators)
    (h : ∀ c ∈ fraction, c ∉ decimalSeparators) :
    integerPart (before ++ sep :: fraction) = before.filter (· ∉ decimalSeparators) := by
  have hlength : (before ++ sep :: fraction).length - fraction.length = before.length + 1 := by
    simp
    omega
  rw [integerPart, fractionPart_append hsep h, hlength, List.take_length_add_append,
    List.take_succ_cons, List.take_zero, List.filter_append]
  simp [hsep]

/-- The first character stands in front of the last separator, if it is not the separator. -/
theorem parts_cons {c : Char} (hc : c ∉ decimalSeparators) (text : List Char) :
    integerPart (c :: text) = c :: integerPart text ∧
      fractionPart (c :: text) = fractionPart text := by
  obtain hplain | ⟨before, sep, fraction, rfl, hsep, hfraction⟩ := separated_cases text
  · have hcons : ∀ d ∈ c :: text, d ∉ decimalSeparators :=
      List.forall_mem_cons.mpr ⟨hc, hplain⟩
    rw [integerPart_of_unseparated hcons, fractionPart_of_unseparated hcons,
      integerPart_of_unseparated hplain, fractionPart_of_unseparated hplain]
    exact ⟨rfl, rfl⟩
  · rw [← List.cons_append, integerPart_append hsep hfraction, fractionPart_append hsep hfraction,
      integerPart_append hsep hfraction, fractionPart_append hsep hfraction,
      List.filter_cons_of_pos (by simpa using hc)]
    exact ⟨rfl, rfl⟩

/-- The components together are the text without separators. -/
theorem flatten_splitOnP (p : Char → Bool) (text : List Char) :
    (text.splitOnP p).flatten = text.filter (!p ·) := by
  induction text with
  | nil => rfl
  | cons c rest ih =>
      rw [List.splitOnP_cons_eq_if_modifyHead, List.filter_cons, ← ih]
      obtain ⟨first, others, hsplit⟩ := List.exists_cons_of_ne_nil (List.splitOnP_ne_nil p rest)
      cases hc : p c <;> simp [hsplit]

/-- How many units of the last place one unit behind so many digits has: none beyond the
precision. -/
def unit (precision digits : ℕ) : ℤ := if digits ≤ precision then 10 ^ (precision - digits) else 0

theorem power_sub (kit : BigIntKit) (precision digits : ℕ) :
    kit.power 10 (precision - digits) = unit precision digits := by
  rw [unit]
  split
  case isTrue hle => rw [← Nat.cast_sub hle, kit.power_natCast]
  case isFalse hlt => exact kit.power_neg 10 _ (by decide) (by omega)

/-- The value that two signed numbers make. -/
theorem assembled_eq_some_iff {kit : BigIntKit} {precision : ℕ} {result : BigDecimal} :
    assembled kit integer fraction precision = some result ↔
      ∃ integerNumber fractionalNumber, Signed integer integerNumber ∧
        Signed (removingTrailingZeroes fraction) fractionalNumber ∧
        result = ⟨integerNumber * 10 ^ precision +
          fractionalNumber * unit precision (removingTrailingZeroes fraction).length, precision⟩ := by
  simp only [assembled, Option.bind_eq_bind, Option.bind_eq_some_iff, kit.parse_iff,
    kit.power_natCast, power_sub, Option.pure_def, Option.some.injEq]
  constructor
  · rintro ⟨integerNumber, hinteger, fractionalNumber, hfractional, rfl⟩
    exact ⟨integerNumber, fractionalNumber, hinteger, hfractional, rfl⟩
  · rintro ⟨integerNumber, fractionalNumber, hinteger, hfractional, rfl⟩
    exact ⟨integerNumber, hinteger, fractionalNumber, hfractional, rfl⟩

/-- A fraction of zeros is no fraction. -/
theorem assembled_zero (kit : BigIntKit) (integer : List Char) (precision : ℕ) :
    assembled kit integer ['0'] precision = assembled kit integer [] precision := rfl

/-- Whatever the text, its two parts are read. -/
theorem number_eq (kit : BigIntKit) (input : List Char) (precision : ℕ) :
    number kit input precision = assembled kit (integerPart (spaceless input))
      (fractionPart (spaceless input)) precision := by
  rw [number]
  generalize spaceless input = text
  split
  case isTrue hzero =>
      subst hzero
      have hdigit : ∀ c ∈ ['0'], c ∉ decimalSeparators := by
        rw [List.forall_mem_singleton]
        decide
      rw [integerPart_of_unseparated hdigit, fractionPart_of_unseparated hdigit, eq_comm,
        assembled_eq_some_iff]
      exact ⟨0, 0, .plain (by decide), .plain allDigits_nil, by simp⟩
  case isFalse =>
      obtain hplain | ⟨before, sep, fraction, rfl, hsep, hfraction⟩ := separated_cases text
      · rw [List.splitOnP_eq_singleton (by simpa using hplain), integerPart_of_unseparated hplain,
          fractionPart_of_unseparated hplain]
        exact assembled_zero kit text precision
      · have hsplit : (before ++ sep :: fraction).splitOnP (· ∈ decimalSeparators) =
            before.splitOnP (· ∈ decimalSeparators) ++ [fraction] := by
          have hlast : fraction.splitOnP (· ∈ decimalSeparators) = [fraction] :=
            List.splitOnP_eq_singleton (by simpa using hfraction)
          rw [List.splitOnP_append_cons _ _ (by simpa using hsep), hlast]
        have hflatten := flatten_splitOnP (· ∈ decimalSeparators) before
        obtain ⟨first, others, hbefore⟩ := List.exists_cons_of_ne_nil
          (List.splitOnP_ne_nil (· ∈ decimalSeparators) before)
        have hparts : assembled kit (before.filter (· ∉ decimalSeparators)) fraction precision =
            assembled kit (first :: others ++ [fraction]).dropLast.flatten
              ((first :: others ++ [fraction]).getLast?.getD []) precision := by
          rw [List.dropLast_concat, List.getLast?_concat, ← hbefore, hflatten, Option.getD_some]
          simp
        rw [hsplit, hbefore, integerPart_append hsep hfraction, fractionPart_append hsep hfraction,
          hparts]
        cases others with
        | nil => rfl
        | cons second rest => rfl

variable {kit : BigIntKit} {input : List Char} {precision : ℕ} {result : BigDecimal}

theorem number_eq_some_iff :
    number kit input precision = some result ↔
      ∃ integerNumber fractionalNumber, Signed (integerPart (spaceless input)) integerNumber ∧
        Signed (removingTrailingZeroes (fractionPart (spaceless input))) fractionalNumber ∧
        result = ⟨integerNumber * 10 ^ precision + fractionalNumber *
          unit precision (removingTrailingZeroes (fractionPart (spaceless input))).length,
            precision⟩ := by
  rw [number_eq, assembled_eq_some_iff]

/-- A text is a number if both of its parts are, each with a sign of its own. -/
theorem number_isSome_iff : (number kit input precision).isSome = true ↔
    IsSigned (integerPart (spaceless input)) ∧ IsSigned (fractionPart (spaceless input)) := by
  have hzeros := @isSigned_removingTrailingZeroes (fractionPart (spaceless input))
  rw [Option.isSome_iff_exists, ← hzeros]
  constructor
  · rintro ⟨result, h⟩
    obtain ⟨integerNumber, fractionalNumber, hinteger, hfraction, -⟩ := number_eq_some_iff.mp h
    exact ⟨⟨integerNumber, hinteger⟩, ⟨fractionalNumber, hfraction⟩⟩
  · rintro ⟨⟨integerNumber, hinteger⟩, ⟨fractionalNumber, hfraction⟩⟩
    exact ⟨_, number_eq_some_iff.mpr ⟨integerNumber, fractionalNumber, hinteger, hfraction, rfl⟩⟩

/-! ## Spaces -/

theorem not_separator_of_isDigit {c : Char} (h : c.isDigit = true) : c ∉ decimalSeparators := by
  intro hsep
  have hall : decimalSeparators.all (!·.isDigit) = true := by decide
  have hc := List.all_eq_true.mp hall c hsep
  rw [h] at hc
  cases hc

theorem not_white_of_isDigit {c : Char} (h : c.isDigit = true) :
    isWhitespaceOrNewline c = false := by
  obtain ⟨hlow, hhigh⟩ := toNat_of_isDigit h
  have h0 : '0'.toNat = 48 := rfl
  have h9 : '9'.toNat = 57 := rfl
  simp [isWhitespaceOrNewline]
  omega

theorem not_white_of_separator {c : Char} (h : c ∈ decimalSeparators) :
    isWhitespaceOrNewline c = false := by
  have hall : decimalSeparators.all (!isWhitespaceOrNewline ·) = true := by decide
  simpa using List.all_eq_true.mp hall c h

theorem filter_dropWhile {p q : Char → Bool} {text : List Char}
    (h : ∀ c ∈ text, p c = true → q c = false) : (text.dropWhile p).filter q = text.filter q := by
  induction text with
  | nil => rfl
  | cons c rest ih =>
      obtain ⟨hc, hrest⟩ := List.forall_mem_cons.mp h
      by_cases hp : p c = true
      · rw [List.dropWhile_cons_of_pos hp, ih hrest, List.filter_cons_of_neg (by simp [hc hp])]
      · rw [List.dropWhile_cons_of_neg hp]

/-- White space that is left out anyway may stand at the ends. -/
theorem filter_trimmed {q : Char → Bool} {text : List Char}
    (h : ∀ c ∈ text, isWhitespaceOrNewline c = true → q c = false) :
    (trimmed text).filter q = text.filter q := by
  have hend : ∀ c ∈ (text.dropWhile isWhitespaceOrNewline).reverse,
      isWhitespaceOrNewline c = true → q c = false := by
    intro c hc
    exact h c ((List.dropWhile_sublist _).subset (List.mem_reverse.mp hc))
  rw [trimmed, List.rdropWhile, List.filter_reverse, filter_dropWhile hend, List.filter_reverse,
    List.reverse_reverse, filter_dropWhile h]

/-- Without other white space nothing but the spaces is left out. -/
theorem spaceless_eq_filter {text : List Char}
    (h : ∀ c ∈ text.filter (· ≠ ' '), isWhitespaceOrNewline c = false) :
    spaceless text = text.filter (· ≠ ' ') := by
  apply filter_trimmed
  intro c hc hwhite
  by_contra hne
  have hkept := h c (List.mem_filter.mpr ⟨hc, by simpa using hne⟩)
  rw [hwhite] at hkept
  cases hkept

end TokenFormatter

end SafeWallet
