/-
# Texts that denote amounts

White space at the ends and spaces aside, a text for an amount has digits and separators and may
have a sign in front. Its last separator is the decimal point. Text that is added at the end never
makes the amount smaller: digits add to it, and a new separator turns the fraction into an integer.
-/

import SafeWallet.Formatting.NumberParsing

namespace SafeWallet

open Digits

namespace TokenFormatter

/-- Digits and separators. -/
def Plain (text : List Char) : Prop := ∀ c ∈ text, c.isDigit = true ∨ c ∈ decimalSeparators

/-- The amount of digits and separators. -/
def amount (text : List Char) : ℚ := decimal (integerPart text) (fractionPart text)

/-- The number that a text denotes. -/
inductive Denotes : List Char → ℚ → Prop
  | plain {text rest : List Char} (htext : spaceless text = rest) (h : Plain rest) :
      Denotes text (amount rest)
  | plus {text rest : List Char} (htext : spaceless text = '+' :: rest) (h : Plain rest) :
      Denotes text (amount rest)
  | minus {text rest : List Char} (htext : spaceless text = '-' :: rest) (h : Plain rest) :
      Denotes text (-amount rest)

variable {kit : BigIntKit} {text rest front : List Char} {precision : ℕ} {c : Char}

/-! ## Digits and separators -/

theorem Plain.of_append (h : Plain (front ++ rest)) : Plain front ∧ Plain rest :=
  List.forall_mem_append.mp h

theorem Plain.integerPart (h : Plain text) : AllDigits (integerPart text) := by
  intro c hc
  rw [TokenFormatter.integerPart, List.mem_filter, decide_eq_true_eq] at hc
  obtain hdigit | hsep := h c (List.mem_of_mem_take hc.1)
  · exact hdigit
  · exact absurd hsep hc.2

theorem Plain.fractionPart (h : Plain text) : AllDigits (fractionPart text) := by
  intro c hc
  obtain hplain | ⟨before, sep, fraction, rfl, hsep, hfraction⟩ := separated_cases text
  · rw [fractionPart_of_unseparated hplain] at hc
    cases hc
  · rw [fractionPart_append hsep hfraction] at hc
    obtain hdigit | hseparator := h c (by simp [hc])
    · exact hdigit
    · exact absurd hseparator (hfraction c hc)

theorem amount_nonneg (text : List Char) : 0 ≤ amount text := by
  rw [amount, decimal]
  positivity

theorem amount_eq_zero (h : 0 ≤ -amount text) : amount text = 0 := by
  have hnonneg := amount_nonneg text
  linarith

/-- All characters but the separators are in one of the parts. -/
theorem mem_parts (hc : c ∈ text) :
    c ∈ decimalSeparators ∨ c ∈ integerPart text ∨ c ∈ fractionPart text := by
  by_cases hsep : c ∈ decimalSeparators
  · exact .inl hsep
  · right
    obtain hplain | ⟨before, sep, fraction, rfl, hsep', hfraction⟩ := separated_cases text
    · left
      rwa [integerPart_of_unseparated hplain]
    · rw [integerPart_append hsep' hfraction, fractionPart_append hsep' hfraction]
      rw [List.mem_append, List.mem_cons] at hc
      obtain hc | rfl | hc := hc
      · exact .inl (List.mem_filter.mpr ⟨hc, by simpa using hsep⟩)
      · exact absurd hsep' hsep
      · exact .inr hc

/-! ## The number of a text -/

theorem not_plain_sign {sign : Char} (hsign : sign = '+' ∨ sign = '-') :
    ¬ Plain (sign :: rest) := by
  intro h
  obtain hdigit | hsep := h sign List.mem_cons_self
  · obtain rfl | rfl := hsign
    · exact (isDigit_ne_sign hdigit).1 rfl
    · exact (isDigit_ne_sign hdigit).2 rfl
  · revert hsep
    obtain rfl | rfl := hsign <;> decide

/-- A text denotes at most one number. -/
theorem Denotes.unique {a b : ℚ} (ha : Denotes text a) (hb : Denotes text b) : a = b := by
  cases ha with
  | plain htext hplain =>
      subst htext
      cases hb with
      | plain htext' _ => rw [htext']
      | plus htext' _ => exact absurd (htext' ▸ hplain) (not_plain_sign (.inl rfl))
      | minus htext' _ => exact absurd (htext' ▸ hplain) (not_plain_sign (.inr rfl))
  | plus htext hplain =>
      cases hb with
      | plain htext' hplain' =>
          exact absurd (htext ▸ htext' ▸ hplain') (not_plain_sign (.inl rfl))
      | plus htext' _ => rw [List.cons_injective (htext.symm.trans htext')]
      | minus htext' _ => exact absurd (List.cons.inj (htext.symm.trans htext')).1 (by decide)
  | minus htext hplain =>
      cases hb with
      | plain htext' hplain' =>
          exact absurd (htext ▸ htext' ▸ hplain') (not_plain_sign (.inr rfl))
      | plus htext' _ => exact absurd (List.cons.inj (htext.symm.trans htext')).1 (by decide)
      | minus htext' _ => rw [List.cons_injective (htext.symm.trans htext')]

/-! ## More text -/

/-- A separator at the end makes the fraction a part of the integer. -/
theorem amount_le_concat_separator (hc : c ∈ decimalSeparators) :
    amount text ≤ amount (text ++ [c]) := by
  have hnone : ∀ d ∈ ([] : List Char), d ∉ decimalSeparators := by
    intro d hd
    cases hd
  have hnew : amount (text ++ [c]) = value (text.filter (· ∉ decimalSeparators)) := by
    rw [amount, integerPart_append hc hnone, fractionPart_append hc hnone, decimal]
    simp
  rw [hnew, amount]
  obtain hplain | ⟨before, sep, fraction, rfl, hsep, hfraction⟩ := separated_cases text
  · rw [integerPart_of_unseparated hplain, fractionPart_of_unseparated hplain, decimal,
      List.filter_eq_self.mpr (by simpa using hplain)]
    simp
  · have hdigits : (before ++ sep :: fraction).filter (· ∉ decimalSeparators) =
        before.filter (· ∉ decimalSeparators) ++ fraction := by
      have hkept : fraction.filter (· ∉ decimalSeparators) = fraction :=
        List.filter_eq_self.mpr (by simpa using hfraction)
      rw [List.filter_append, List.filter_cons_of_neg (by simpa using hsep), hkept]
    rw [integerPart_append hsep hfraction, fractionPart_append hsep hfraction, decimal_eq, hdigits]
    apply div_le_self (by positivity)
    exact one_le_pow₀ (by norm_num)

/-- A digit at the end of the integer part or of the fraction only adds to the amount. -/
theorem amount_le_concat_digit (hc : c.isDigit = true) : amount text ≤ amount (text ++ [c]) := by
  have hdigit := not_separator_of_isDigit hc
  rw [amount, amount]
  obtain hplain | ⟨before, sep, fraction, rfl, hsep, hfraction⟩ := separated_cases text
  · have hnew : ∀ d ∈ text ++ [c], d ∉ decimalSeparators := by
      rw [List.forall_mem_append, List.forall_mem_singleton]
      exact ⟨hplain, hdigit⟩
    rw [integerPart_of_unseparated hplain, fractionPart_of_unseparated hplain,
      integerPart_of_unseparated hnew, fractionPart_of_unseparated hnew, decimal, decimal,
      value_append, List.length_singleton, pow_one]
    push_cast
    have htext : (0 : ℚ) ≤ value text := by positivity
    have hlast : (0 : ℚ) ≤ value [c] := by positivity
    linarith
  · have hnew : ∀ d ∈ fraction ++ [c], d ∉ decimalSeparators := by
      rw [List.forall_mem_append, List.forall_mem_singleton]
      exact ⟨hfraction, hdigit⟩
    rw [List.append_assoc, List.cons_append, integerPart_append hsep hfraction,
      fractionPart_append hsep hfraction, integerPart_append hsep hnew,
      fractionPart_append hsep hnew, decimal, decimal, value_append, List.length_append,
      List.length_singleton, pow_one, pow_succ, add_le_add_iff_left,
      div_le_div_iff₀ (by positivity) (by positivity)]
    push_cast
    have hlast : (0 : ℚ) ≤ value [c] * 10 ^ fraction.length := by positivity
    linarith

/-- Text that is added at the end does not make the amount smaller. -/
theorem amount_le_append (h : Plain rest) (front : List Char) :
    amount front ≤ amount (front ++ rest) := by
  induction rest generalizing front with
  | nil => rw [List.append_nil]
  | cons c rest ih =>
      obtain ⟨hc, hrest⟩ := List.forall_mem_cons.mp h
      have hstep : amount front ≤ amount (front ++ [c]) := by
        obtain hdigit | hsep := hc
        · exact amount_le_concat_digit hdigit
        · exact amount_le_concat_separator hsep
      have hlater := ih hrest (front ++ [c])
      rw [List.append_assoc, List.singleton_append] at hlater
      exact hstep.trans hlater

/-! ## The front of a text -/

/-- White space but spaces only stands at the ends. -/
def WellSpaced (text : List Char) : Prop := ∀ c ∈ spaceless text, isWhitespaceOrNewline c = false

/-- The text without white space. -/
def bare (text : List Char) : List Char := text.filter (!isWhitespaceOrNewline ·)

theorem spaceless_eq_bare (h : WellSpaced text) : spaceless text = bare text := by
  have hspaces : bare (spaceless text) = bare (trimmed text) := by
    rw [spaceless, bare, bare, List.filter_filter]
    apply List.filter_congr
    intro c _
    by_cases hspace : c = ' '
    · subst hspace
      rfl
    · simp [hspace]
  have htrimmed : bare (trimmed text) = bare text := by
    apply filter_trimmed
    intro c _ hwhite
    simp [hwhite]
  have hkept : bare (spaceless text) = spaceless text := by
    rw [bare, List.filter_eq_self]
    intro c hc
    simp [h c hc]
  rw [← hkept, hspaces, htrimmed]

theorem rdropWhile_sublist_append (p : Char → Bool) (front rest : List Char) :
    List.Sublist (front.rdropWhile p) ((front ++ rest).rdropWhile p) := by
  rw [List.rdropWhile, List.rdropWhile, List.reverse_sublist, List.reverse_append,
    List.dropWhile_append]
  split
  case isTrue => exact List.Sublist.refl _
  case isFalse =>
      exact (List.dropWhile_sublist _).trans (List.sublist_append_right _ _)

theorem WellSpaced.of_append (h : WellSpaced (front ++ rest)) : WellSpaced front := by
  have htrimmed : List.Sublist (trimmed front) (trimmed (front ++ rest)) := by
    rw [trimmed, trimmed, List.dropWhile_append]
    split
    case isTrue hempty =>
        rw [List.isEmpty_iff.mp hempty]
        exact List.nil_sublist _
    case isFalse => exact rdropWhile_sublist_append _ _ _
  intro c hc
  exact h c ((htrimmed.filter _).subset hc)

/-- What is read of the front is the front of what is read. -/
theorem spaceless_front (h : WellSpaced (front ++ rest)) :
    spaceless (front ++ rest) = spaceless front ++ bare rest := by
  rw [spaceless_eq_bare h, spaceless_eq_bare h.of_append, bare, bare, bare, List.filter_append]

theorem Plain.not_white (h : Plain text) : ∀ c ∈ text, isWhitespaceOrNewline c = false := by
  intro c hc
  obtain hdigit | hsep := h c hc
  · exact not_white_of_isDigit hdigit
  · exact not_white_of_separator hsep

/-! ## What is read -/

/-- The units of the last place that a fraction is read as. -/
def shifted (precision : ℕ) (fraction : List Char) : ℤ :=
  value (removingTrailingZeroes fraction) *
    unit precision (removingTrailingZeroes fraction).length

/-- A fraction that fits is read exactly. -/
theorem amount_mul_of_fits
    (h : (removingTrailingZeroes (fractionPart text)).length ≤ precision) :
    amount text * 10 ^ precision = ((value (integerPart text) * 10 ^ precision +
      shifted precision (fractionPart text) : ℤ) : ℚ) := by
  have hdecimal := @decimal_mul_of_le (integerPart text) _ _ h
  rw [removingTrailingZeroes, decimal_rdropWhile] at hdecimal
  rw [amount, hdecimal, shifted, unit, if_pos h, removingTrailingZeroes]
  push_cast
  rfl

/-- A fraction that does not fit is lost. -/
theorem shifted_of_lt (h : precision < (removingTrailingZeroes (fractionPart text)).length) :
    shifted precision (fractionPart text) = 0 := by
  rw [shifted, unit, if_neg (by omega), mul_zero]

theorem allDigits_removingTrailingZeroes {digits : List Char} (h : AllDigits digits) :
    AllDigits (removingTrailingZeroes digits) :=
  h.sublist (List.rdropWhile_prefix _ digits).sublist

theorem number_plain (htext : spaceless text = rest) (h : Plain rest) :
    number kit text precision = some ⟨value (integerPart rest) * 10 ^ precision +
      shifted precision (fractionPart rest), precision⟩ := by
  rw [number_eq_some_iff, htext]
  exact ⟨_, _, .plain h.integerPart, .plain (allDigits_removingTrailingZeroes h.fractionPart), rfl⟩

theorem number_plus (htext : spaceless text = '+' :: rest) (h : Plain rest) :
    number kit text precision = some ⟨value (integerPart rest) * 10 ^ precision +
      shifted precision (fractionPart rest), precision⟩ := by
  have hparts := parts_cons (by decide : '+' ∉ decimalSeparators) rest
  rw [number_eq_some_iff, htext, hparts.1, hparts.2]
  exact ⟨_, _, .plus h.integerPart, .plain (allDigits_removingTrailingZeroes h.fractionPart), rfl⟩

theorem number_minus (htext : spaceless text = '-' :: rest) (h : Plain rest) :
    number kit text precision = some ⟨-(value (integerPart rest) : ℤ) * 10 ^ precision +
      shifted precision (fractionPart rest), precision⟩ := by
  have hparts := parts_cons (by decide : '-' ∉ decimalSeparators) rest
  rw [number_eq_some_iff, htext, hparts.1, hparts.2]
  exact ⟨_, _, .minus h.integerPart, .plain (allDigits_removingTrailingZeroes h.fractionPart), rfl⟩

/-! ## Amounts that the front of a text is read as -/

/-- If the front is read as the whole amount, the front denotes it: a fraction that is lost would
have been a part of the amount. -/
theorem amount_front_eq (h : Plain (front ++ rest))
    (hread : ((value (integerPart front) * 10 ^ precision +
      shifted precision (fractionPart front) : ℤ) : ℚ) = amount (front ++ rest) * 10 ^ precision) :
    amount front = amount (front ++ rest) := by
  have hpow : (0 : ℚ) < 10 ^ precision := by positivity
  by_cases hfits : (removingTrailingZeroes (fractionPart front)).length ≤ precision
  · rw [← amount_mul_of_fits hfits] at hread
    exact mul_right_cancel₀ hpow.ne' hread
  · exfalso
    have hlong : precision < (removingTrailingZeroes (fractionPart front)).length := by omega
    rw [shifted_of_lt hlong, add_zero] at hread
    push_cast at hread
    have hwhole := mul_right_cancel₀ hpow.ne' hread
    have hle := amount_le_append h.of_append.2 front
    have hfraction : 0 < value (fractionPart front) := by
      rw [Nat.pos_iff_ne_zero, Ne, value_eq_zero_iff h.of_append.1.fractionPart]
      intro hzeros
      have hnone : removingTrailingZeroes (fractionPart front) = [] := by
        rw [removingTrailingZeroes, List.rdropWhile_eq_nil_iff]
        simpa using hzeros
      rw [hnone] at hlong
      exact absurd hlong (Nat.not_lt_zero _)
    have hpositive : (0 : ℚ) < value (fractionPart front) / 10 ^ (fractionPart front).length := by
      positivity
    rw [← hwhole, amount, decimal] at hle
    linarith

/-- The number that is read, or zero. -/
def readValue (kit : BigIntKit) (precision : ℕ) (text : List Char) : ℤ :=
  ((number kit text precision).map (·.value)).getD 0

theorem readValue_eq {result : BigDecimal} (h : number kit text precision = some result) :
    readValue kit precision text = result.value := by
  rw [readValue, h, Option.map_some, Option.getD_some]

theorem amount_nil : amount [] = 0 := by
  simp [amount, decimal, integerPart, fractionPart]

theorem plain_nil : Plain [] := by
  intro c hc
  cases hc

/-- Nothing is read as zero. -/
theorem number_of_spaceless_nil (htext : spaceless text = []) :
    number kit text precision = some ⟨0, precision⟩ := by
  rw [number_plain htext plain_nil]
  simp [shifted, integerPart, fractionPart, removingTrailingZeroes]

theorem denotes_of_spaceless_nil {denoted : ℚ} (htext : spaceless text = [])
    (hread : (readValue kit precision text : ℚ) = denoted * 10 ^ precision) :
    Denotes text denoted := by
  have hpow : (0 : ℚ) < 10 ^ precision := by positivity
  rw [readValue_eq (number_of_spaceless_nil htext), Int.cast_zero, eq_comm, mul_eq_zero] at hread
  obtain hdenoted | hpow' := hread
  · rw [hdenoted, ← amount_nil]
    exact .plain htext plain_nil
  · exact absurd hpow' hpow.ne'

theorem wellSpaced_of_cons (htext : spaceless text = c :: rest)
    (hc : isWhitespaceOrNewline c = false) (h : Plain rest) : WellSpaced text := by
  rw [WellSpaced, htext, List.forall_mem_cons]
  exact ⟨hc, h.not_white⟩

/-- If the front of a text is read as the amount that the text denotes, then it denotes it. -/
theorem Denotes.front_of_read {denoted : ℚ} (h : Denotes (front ++ rest) denoted)
    (hnonneg : 0 ≤ denoted)
    (hread : (readValue kit precision front : ℚ) = denoted * 10 ^ precision) :
    Denotes front denoted := by
  cases h with
  | plain htext hplain =>
      have hwell : WellSpaced (front ++ rest) := by
        rw [WellSpaced, htext]
        exact hplain.not_white
      rw [spaceless_front hwell] at htext
      subst htext
      rw [readValue_eq (number_plain rfl hplain.of_append.1)] at hread
      rw [← amount_front_eq hplain hread]
      exact .plain rfl hplain.of_append.1
  | plus htext hplain =>
      have hwell := wellSpaced_of_cons htext rfl hplain
      rw [spaceless_front hwell, List.append_eq_cons_iff] at htext
      obtain ⟨hnil, -⟩ | ⟨digits, hfront, rfl⟩ := htext
      · exact denotes_of_spaceless_nil hnil hread
      · rw [readValue_eq (number_plus hfront hplain.of_append.1)] at hread
        rw [← amount_front_eq hplain hread]
        exact .plus hfront hplain.of_append.1
  | minus htext hplain =>
      have hwell := wellSpaced_of_cons htext rfl hplain
      rw [spaceless_front hwell, List.append_eq_cons_iff] at htext
      obtain ⟨hnil, -⟩ | ⟨digits, hfront, rfl⟩ := htext
      · exact denotes_of_spaceless_nil hnil hread
      · have hzero : amount digits = amount (digits ++ bare rest) := by
          have hle := amount_le_append hplain.of_append.2 digits
          have hdigits := amount_nonneg digits
          linarith
        rw [← hzero]
        exact .minus hfront hplain.of_append.1

/-- An amount that is zero has a fraction of zeros. -/
theorem parts_of_amount_eq_zero (hzero : amount text = 0) :
    value (integerPart text) = 0 ∧ value (fractionPart text) = 0 := by
  have hinteger : (0 : ℚ) ≤ value (integerPart text) := by positivity
  have hfraction : (0 : ℚ) ≤ value (fractionPart text) / 10 ^ (fractionPart text).length := by
    positivity
  rw [amount, decimal] at hzero
  have hinteger0 : (value (integerPart text) : ℚ) = 0 := by linarith
  have hfraction0 : (value (fractionPart text) : ℚ) / 10 ^ (fractionPart text).length = 0 := by
    linarith
  rw [div_eq_zero_iff] at hfraction0
  refine ⟨by exact_mod_cast hinteger0, ?_⟩
  obtain hvalue | hpow := hfraction0
  · exact_mod_cast hvalue
  · exact absurd hpow (by positivity)

theorem shifted_of_value_eq_zero {fraction : List Char} (h : value fraction = 0) :
    shifted precision fraction = 0 := by
  rw [value_eq_value_rdropWhile, ← removingTrailingZeroes] at h
  have hpow : 0 < 10 ^ (fraction.length - (removingTrailingZeroes fraction).length) := by positivity
  rw [shifted, (Nat.mul_eq_zero.mp h).resolve_right hpow.ne', Nat.cast_zero, zero_mul]

/-- A whole number of units that a text denotes is what is read. -/
theorem Denotes.readValue_eq {denoted : ℚ} {units : ℤ} (h : Denotes text denoted)
    (hnonneg : 0 ≤ denoted) (hunits : denoted * 10 ^ precision = units) :
    readValue kit precision text = units := by
  cases h with
  | plain htext hplain =>
      have hfits := length_le_of_decimal_mul hplain.fractionPart hunits
      rw [amount_mul_of_fits hfits] at hunits
      rw [TokenFormatter.readValue_eq (number_plain htext hplain)]
      exact_mod_cast hunits
  | plus htext hplain =>
      have hfits := length_le_of_decimal_mul hplain.fractionPart hunits
      rw [amount_mul_of_fits hfits] at hunits
      rw [TokenFormatter.readValue_eq (number_plus htext hplain)]
      exact_mod_cast hunits
  | minus htext hplain =>
      have hzero := amount_eq_zero hnonneg
      obtain ⟨hinteger, hfraction⟩ := parts_of_amount_eq_zero hzero
      have hunits0 : units = 0 := by
        rw [hzero, neg_zero, zero_mul] at hunits
        exact_mod_cast hunits.symm
      rw [TokenFormatter.readValue_eq (number_minus htext hplain), hinteger,
        shifted_of_value_eq_zero hfraction, hunits0]
      simp

end TokenFormatter

end SafeWallet
