/-
# Accepted amounts

The rules of the input for amounts accept more than they should. They read the text with the
formatter, so they accept a sign behind a separator and a minus that does not reach the fraction.
The rule for fractional digits only looks at texts with one separator, although the fraction is
what stands behind the last of them. And the rules check the whole text, while the field only
keeps as many characters as the largest amount has digits.
-/

import SafeWallet.Formatting.AmountText
import SafeWallet.Formatting.FullFormat
import SafeWallet.Formatting.TokenInput

namespace SafeWallet

open Digits

namespace TokenInput

open TokenFormatter

variable {kit : BigIntKit} {input : TokenInput} {text : List Char} {decimals : ℕ}

/-! ## The characters that are kept -/

theorem flatten_characters (text : List Char) : (characters text).flatten = text := by
  fun_induction characters text with
  | case1 => rfl
  | case2 rest ih => rw [List.flatten_cons, ih]; rfl
  | case3 c rest _ ih => rw [List.flatten_cons, ih]; rfl

/-- No two characters that are not white space are counted as one. -/
theorem length_bare_le (text : List Char) : (bare text).length ≤ (characters text).length := by
  fun_induction characters text with
  | case1 => exact Nat.le_refl _
  | case2 rest ih =>
      have hbare : bare ('\r' :: '\n' :: rest) = bare rest := rfl
      rw [hbare, List.length_cons]
      omega
  | case3 c rest _ ih =>
      have hle : (bare (c :: rest)).length ≤ (bare rest).length + 1 := by
        rw [bare, bare, List.filter_cons]
        split
        · exact Nat.le_refl _
        · exact Nat.le_succ _
      rw [List.length_cons]
      omega

/-- The rule for fractional digits counts at least the digits that are read. -/
theorem length_fraction_le (fraction : List Char) :
    (removingTrailingZeroes (bare fraction)).length ≤
      (characters (removingTrailingZeroes fraction)).length := by
  obtain ⟨k, hk⟩ := exists_rdropWhile_append_replicate fraction '0'
  rw [← removingTrailingZeroes] at hk
  have hzeros : bare (List.replicate k '0') = List.replicate k '0' := by
    rw [bare, List.filter_eq_self]
    intro c hc
    rw [List.eq_of_mem_replicate hc]
    rfl
  have hbare : bare fraction = bare (removingTrailingZeroes fraction) ++ List.replicate k '0' := by
    rw [← hzeros, bare, bare, bare, ← List.filter_append, ← hk]
  rw [hbare, removingTrailingZeroes, rdropWhile_append_replicate]
  exact (List.rdropWhile_prefix _ _).length_le.trans (length_bare_le _)

theorem safeUserInput_prefix (text : List Char) : safeUserInput text <+: text := by
  refine ⟨((characters text).drop TokenBounds.maxDigitsCount).flatten, ?_⟩
  rw [safeUserInput, ← List.flatten_append, List.take_append_drop, flatten_characters]

theorem safeUserInput_nil : safeUserInput [] = [] := by
  rw [safeUserInput, characters, List.take_nil, List.flatten_nil]

/-- There is room for a character. -/
theorem safeUserInput_ne_nil (h : text ≠ []) : safeUserInput text ≠ [] := by
  have hcount : 0 < TokenBounds.maxDigitsCount := Nat.length_toDigits_pos
  obtain ⟨count, hsucc⟩ := Nat.exists_eq_succ_of_ne_zero hcount.ne'
  rw [safeUserInput, hsucc]
  fun_cases characters text with
  | case1 => exact absurd rfl h
  | case2 rest => exact List.cons_ne_nil _ _
  | case3 c rest => exact List.cons_ne_nil _ _

/-! ## The rules -/

/-- An accepted text is read as an amount within the bounds. -/
theorem Accepts.number (h : Accepts kit decimals text) :
    ∃ units : ℤ, number kit text decimals = some ⟨units, decimals⟩ ∧ 0 ≤ units ∧ units < 2 ^ 256 := by
  have hnumber : valueIsANumber kit decimals text = true := h _ (by simp [rules])
  have hbounds : valueIsNotTooBig kit decimals text = true := h _ (by simp [rules])
  rw [valueIsANumber, Option.isSome_iff_exists] at hnumber
  obtain ⟨result, hresult⟩ := hnumber
  obtain ⟨_, _, _, _, hprecision⟩ := number_eq_some_iff.mp hresult
  rw [valueIsNotTooBig, hresult] at hbounds
  simp only [TokenBounds.isWithinBounds, TokenBounds.minTokenValue,
    TokenBounds.maxTokenValue] at hbounds
  have hbounds := of_decide_eq_true hbounds
  refine ⟨result.value, ?_, hbounds.1, by omega⟩
  rw [hresult, hprecision]

/-- An accepted text has digits, separators, signs and white space at its ends. -/
theorem Accepts.mem (h : Accepts kit decimals text) {c : Char} (hc : c ∈ spaceless text) :
    c.isDigit = true ∨ c ∈ decimalSeparators ∨ c = '+' ∨ c = '-' := by
  obtain ⟨units, hnumber, -⟩ := h.number
  have hsome : (TokenFormatter.number kit text decimals).isSome = true := by
    rw [hnumber]
    rfl
  obtain ⟨⟨_, hinteger⟩, ⟨_, hfraction⟩⟩ := number_isSome_iff.mp hsome
  obtain hsep | hpart | hpart := mem_parts hc
  · exact .inr (.inl hsep)
  · obtain hdigit | hsign := hinteger.mem hpart
    · exact .inl hdigit
    · exact .inr (.inr hsign)
  · obtain hdigit | hsign := hfraction.mem hpart
    · exact .inl hdigit
    · exact .inr (.inr hsign)

theorem Accepts.wellSpaced (h : Accepts kit decimals text) : WellSpaced text := by
  intro c hc
  obtain hdigit | hsep | rfl | rfl := h.mem hc
  · exact not_white_of_isDigit hdigit
  · exact not_white_of_separator hsep
  · rfl
  · rfl

/-- Without a sign behind the first character an accepted text denotes a number. -/
theorem Accepts.shape (h : Accepts kit decimals text) (hinner : ¬ HasInnerSign text) :
    Plain (spaceless text) ∨
      ∃ rest, Plain rest ∧ (spaceless text = '+' :: rest ∨ spaceless text = '-' :: rest) := by
  have hmem := fun c hc => @Accepts.mem kit text decimals h c hc
  rw [HasInnerSign] at hinner
  generalize spaceless text = stripped at hmem hinner
  cases stripped with
  | nil =>
      left
      intro c hc
      cases hc
  | cons first rest =>
      have hrest : Plain rest := by
        intro c hc
        obtain hdigit | hsep | hsign := hmem c (List.mem_cons_of_mem _ hc)
        · exact .inl hdigit
        · exact .inr hsep
        · exact absurd ⟨c, hc, hsign⟩ hinner
      obtain hdigit | hsep | rfl | rfl := hmem first List.mem_cons_self
      · exact .inl (List.forall_mem_cons.mpr ⟨.inl hdigit, hrest⟩)
      · exact .inl (List.forall_mem_cons.mpr ⟨.inr hsep, hrest⟩)
      · exact .inr ⟨rest, hrest, .inl rfl⟩
      · exact .inr ⟨rest, hrest, .inr rfl⟩

/-- With at most one separator the fraction of an accepted text fits. -/
theorem Accepts.fits (h : Accepts kit decimals text)
    (hcount : (text.filter (· ∈ decimalSeparators)).length < 2) :
    (removingTrailingZeroes (fractionPart (spaceless text))).length ≤ decimals := by
  obtain ⟨units, hnumber, -⟩ := h.number
  have hrule : notExcededAmountOfFractionalDigits kit decimals text = true :=
    h _ (by simp [rules])
  rw [notExcededAmountOfFractionalDigits, hnumber] at hrule
  rw [spaceless_eq_bare h.wellSpaced]
  obtain hplain | ⟨before, sep, fraction, rfl, hsep, hfraction⟩ := separated_cases text
  · have hnone : fractionPart (bare text) = [] := by
      apply fractionPart_of_unseparated
      intro c hc
      exact hplain c (List.mem_of_mem_filter hc)
    rw [hnone]
    exact Nat.zero_le _
  · rw [List.filter_append, List.filter_cons_of_pos (by simpa using hsep), List.length_append,
      List.length_cons] at hcount
    have hbefore : ∀ c ∈ before, decide (c ∈ decimalSeparators) = false := by
      intro c hc
      by_contra hmem
      have hkept : c ∈ before.filter (· ∈ decimalSeparators) :=
        List.mem_filter.mpr ⟨hc, by simpa using hmem⟩
      have hpos := List.length_pos_of_mem hkept
      omega
    have hparts : (before ++ sep :: fraction).splitOnP (· ∈ decimalSeparators) =
        [before, fraction] := by
      have hlast : fraction.splitOnP (· ∈ decimalSeparators) = [fraction] :=
        List.splitOnP_eq_singleton (by simpa using hfraction)
      rw [List.splitOnP_append_cons _ _ (by simpa using hsep), hlast,
        List.splitOnP_eq_singleton hbefore]
      rfl
    have hbare : bare (before ++ sep :: fraction) = bare before ++ sep :: bare fraction := by
      have hwhite := not_white_of_separator hsep
      rw [bare, List.filter_append, List.filter_cons_of_pos (by simp [hwhite])]
      rfl
    have hplain : ∀ c ∈ bare fraction, c ∉ decimalSeparators :=
      fun c hc => hfraction c (List.mem_of_mem_filter hc)
    rw [hparts] at hrule
    rw [hbare, fractionPart_append hsep hplain]
    exact (length_fraction_le fraction).trans (of_decide_eq_true hrule)

/-! ## The end of editing -/

/-- When editing of an accepted text ends, what the field kept of it is read, and what is shown is
read as the same amount if it is not negative. -/
theorem Accepts.endEditing (h : Accepts kit input.decimals text)
    (hlocale : ∃ sep ∈ decimalSeparators, input.locale.decimalSeparator.getD ['.'] = [sep]) :
    ∃ final, textFieldDidEndEditing kit (setText kit input text) = .ok (some final) ∧
      final.value = readValue kit input.decimals (safeUserInput text) ∧
      (0 ≤ final.value →
        TokenFormatter.number kit final.text input.decimals =
          some ⟨final.value, input.decimals⟩) := by
  have hread : readValue kit input.decimals [] = 0 :=
    readValue_eq (number_of_spaceless_nil rfl)
  by_cases hnil : text = []
  · subst hnil
    refine ⟨{ setText kit input [] with value := 0 }, rfl, ?_, fun _ => ?_⟩
    · rw [safeUserInput_nil, hread]
    · exact number_of_spaceless_nil rfl
  · have hvalid : (setText kit input text).isValid = true := by
      rw [setText, validateRules, if_neg hnil, isValid, List.all_map, List.all_eq_true]
      intro rule hrule
      rw [Function.comp_apply, validate, if_pos (h rule hrule)]
      rfl
    have htext : (setText kit input text).text = safeUserInput text := by
      rw [setText, validateRules, if_neg hnil]
    have hdecimals : (setText kit input text).decimals = input.decimals := by
      rw [setText, validateRules, if_neg hnil]
    have hlocale' : (setText kit input text).locale = input.locale := by
      rw [setText, validateRules, if_neg hnil]
    generalize setText kit input text = edited at hvalid htext hdecimals hlocale'
    have hne : edited.text ≠ [] := htext ▸ safeUserInput_ne_nil hnil
    rw [textFieldDidEndEditing, if_pos ⟨hvalid, hne⟩]
    refine ⟨_, rfl, ?_, ?_⟩
    · rw [htext, hdecimals]
      rfl
    · intro hnonneg
      rw [← hdecimals]
      rw [← hlocale'] at hlocale
      exact number_finished ⟨hlocale, .inr rfl, rfl⟩ hnonneg

/-! ## Amounts that are not misread -/

/-- The text denotes a number that is not negative, this number is stored within the bounds, and
what is shown then is read as the same. -/
def NeverMisread (kit : BigIntKit) (input : TokenInput) (text : List Char) : Prop :=
  ∃ denoted : ℚ, 0 ≤ denoted ∧ Denotes text denoted ∧
    ∃ final, textFieldDidEndEditing kit (setText kit input text) = .ok (some final) ∧
      (final.value : ℚ) = denoted * 10 ^ input.decimals ∧
      0 ≤ final.value ∧ final.value < 2 ^ 256 ∧
      TokenFormatter.number kit final.text input.decimals = some ⟨final.value, input.decimals⟩

/-- What the rules leave open: signs, the fraction behind one of several separators, and the
characters that are not kept. -/
structure Unambiguous (decimals : ℕ) (text : List Char) : Prop where
  noInnerSign : ¬ HasInnerSign text
  minus : (spaceless text).head? = some '-' → ∀ c ∈ fractionPart (spaceless text), c = '0'
  fits : 2 ≤ (text.filter (· ∈ decimalSeparators)).length →
    (removingTrailingZeroes (fractionPart (spaceless text))).length ≤ decimals
  kept : ∀ denoted, Denotes text denoted → Denotes (safeUserInput text) denoted

/-- An accepted text without those defects denotes an amount within the bounds. -/
theorem Accepts.denotes (h : Accepts kit decimals text) (hclear : Unambiguous decimals text) :
    ∃ denoted : ℚ, 0 ≤ denoted ∧ Denotes text denoted ∧
      ∃ units : ℤ, denoted * 10 ^ decimals = units ∧ 0 ≤ units ∧ units < 2 ^ 256 := by
  obtain ⟨units, hnumber, hbounds⟩ := h.number
  have hfits : (removingTrailingZeroes (fractionPart (spaceless text))).length ≤ decimals := by
    by_cases hcount : (text.filter (· ∈ decimalSeparators)).length < 2
    · exact h.fits hcount
    · exact hclear.fits (by omega)
  obtain hplain | ⟨rest, hplain, htext | htext⟩ := h.shape hclear.noInnerSign
  · refine ⟨amount (spaceless text), amount_nonneg _, .plain rfl hplain, units, ?_, hbounds⟩
    rw [number_plain rfl hplain, Option.some.injEq, BigDecimal.mk.injEq] at hnumber
    rw [amount_mul_of_fits hfits, hnumber.1]
  · rw [htext, (parts_cons (by decide : '+' ∉ decimalSeparators) rest).2] at hfits
    refine ⟨amount rest, amount_nonneg _, .plus htext hplain, units, ?_, hbounds⟩
    rw [number_plus htext hplain, Option.some.injEq, BigDecimal.mk.injEq] at hnumber
    rw [amount_mul_of_fits hfits, hnumber.1]
  · have hzeros := hclear.minus (by rw [htext]; rfl)
    rw [htext, (parts_cons (by decide : '-' ∉ decimalSeparators) rest).2,
      ← value_eq_zero_iff hplain.fractionPart] at hzeros
    rw [number_minus htext hplain, Option.some.injEq, BigDecimal.mk.injEq,
      shifted_of_value_eq_zero hzeros, add_zero] at hnumber
    have hpow : (0 : ℤ) < 10 ^ decimals := by positivity
    have hinteger : Digits.value (integerPart rest) = 0 := by
      have hle : (Digits.value (integerPart rest) : ℤ) * 10 ^ decimals ≤ 0 := by linarith [hnumber.1]
      have hvalue := nonpos_of_mul_nonpos_left hle hpow
      omega
    have hamount : amount rest = 0 := by
      rw [amount, decimal, hinteger, hzeros]
      simp
    have hunits : units = 0 := by
      rw [← hnumber.1, hinteger]
      simp
    refine ⟨-amount rest, by rw [hamount, neg_zero], .minus htext hplain, units, ?_, hbounds⟩
    rw [hamount, hunits]
    simp

/-- A text that denotes a number has no sign behind the first character. -/
theorem noInnerSign_of_denotes {denoted : ℚ} (h : Denotes text denoted) : ¬ HasInnerSign text := by
  have hplain : ∀ rest, Plain rest → ∀ c ∈ rest, ¬ (c = '+' ∨ c = '-') := by
    intro rest hrest c hc hsign
    have hsingle : Plain [c] := by
      rw [Plain, List.forall_mem_singleton]
      exact hrest c hc
    exact not_plain_sign hsign hsingle
  rintro ⟨c, hc, hsign⟩
  cases h with
  | plain htext hrest => exact hplain _ hrest c (List.mem_of_mem_tail (htext ▸ hc)) hsign
  | plus htext hrest =>
      rw [htext, List.tail_cons] at hc
      exact hplain _ hrest c hc hsign
  | minus htext hrest =>
      rw [htext, List.tail_cons] at hc
      exact hplain _ hrest c hc hsign

/-- An amount that is not negative has a zero fraction if there is a minus in front. -/
theorem fraction_of_denotes {denoted : ℚ} (h : Denotes text denoted) (hnonneg : 0 ≤ denoted)
    (hminus : (spaceless text).head? = some '-') :
    ∀ c ∈ fractionPart (spaceless text), c = '0' := by
  cases h with
  | plain htext hplain =>
      subst htext
      obtain ⟨rest, hrest⟩ := List.head?_eq_some_iff.mp hminus
      rw [hrest] at hplain
      exact absurd hplain (not_plain_sign (.inr rfl))
  | plus htext _ =>
      rw [htext, List.head?_cons, Option.some.injEq] at hminus
      exact absurd hminus (by decide)
  | minus htext hplain =>
      have hzero := (parts_of_amount_eq_zero (amount_eq_zero hnonneg)).2
      rw [htext, (parts_cons (by decide : '-' ∉ decimalSeparators) _).2]
      exact (value_eq_zero_iff hplain.fractionPart).mp hzero

/-- A whole number of units has a fraction that fits. -/
theorem fits_of_denotes {denoted : ℚ} {units : ℤ} (h : Denotes text denoted)
    (hnonneg : 0 ≤ denoted) (hunits : denoted * 10 ^ decimals = units) :
    (removingTrailingZeroes (fractionPart (spaceless text))).length ≤ decimals := by
  cases h with
  | plain htext hplain =>
      rw [htext]
      exact length_le_of_decimal_mul hplain.fractionPart hunits
  | plus htext hplain =>
      rw [htext, (parts_cons (by decide : '+' ∉ decimalSeparators) _).2]
      exact length_le_of_decimal_mul hplain.fractionPart hunits
  | minus htext hplain =>
      rw [amount_eq_zero hnonneg, neg_zero, ← amount_eq_zero hnonneg] at hunits
      rw [htext, (parts_cons (by decide : '-' ∉ decimalSeparators) _).2]
      exact length_le_of_decimal_mul hplain.fractionPart hunits

namespace NeverMisread

theorem noInnerSign (h : NeverMisread kit input text) : ¬ HasInnerSign text := by
  obtain ⟨denoted, _, hdenotes, _⟩ := h
  exact noInnerSign_of_denotes hdenotes

theorem minus (h : NeverMisread kit input text) (hminus : (spaceless text).head? = some '-') :
    ∀ c ∈ fractionPart (spaceless text), c = '0' := by
  obtain ⟨denoted, hnonneg, hdenotes, _⟩ := h
  exact fraction_of_denotes hdenotes hnonneg hminus

theorem fits (h : NeverMisread kit input text) :
    (removingTrailingZeroes (fractionPart (spaceless text))).length ≤ input.decimals := by
  obtain ⟨denoted, hnonneg, hdenotes, final, _, hstored, _⟩ := h
  exact fits_of_denotes hdenotes hnonneg hstored.symm

end NeverMisread

/-- Exactly the accepted texts without those defects are not misread. -/
theorem neverMisread_iff (h : Accepts kit input.decimals text)
    (hlocale : ∃ sep ∈ decimalSeparators, input.locale.decimalSeparator.getD ['.'] = [sep]) :
    NeverMisread kit input text ↔ Unambiguous input.decimals text := by
  obtain ⟨final, hend, hvalue, hshown⟩ := h.endEditing hlocale
  obtain ⟨more, hmore⟩ := safeUserInput_prefix text
  constructor
  · intro hnever
    refine ⟨hnever.noInnerSign, hnever.minus, fun _ => hnever.fits, fun other hother => ?_⟩
    obtain ⟨denoted, hnonneg, hdenotes, final', hend', hstored, -⟩ := hnever
    obtain rfl : final = final' := by
      rw [hend, Except.ok.injEq, Option.some.injEq] at hend'
      exact hend'
    rw [hother.unique hdenotes]
    rw [← hmore] at hdenotes
    rw [hvalue] at hstored
    exact hdenotes.front_of_read hnonneg hstored
  · intro hclear
    obtain ⟨denoted, hnonneg, hdenotes, units, hunits, hlow, hhigh⟩ := h.denotes hclear
    have hread : readValue kit input.decimals (safeUserInput text) = units :=
      (hclear.kept denoted hdenotes).readValue_eq hnonneg hunits
    rw [← hvalue] at hread
    subst hread
    exact ⟨denoted, hnonneg, hdenotes, final, hend, hunits.symm, hlow, hhigh, hshown hlow⟩

/-- An input for amounts with three decimals. -/
def threeDecimals : TokenInput where
  decimals := 3
  value := 0
  locale := ⟨none, ['M'], ['B'], ['T']⟩
  text := []
  statuses := []

/-- Grouped thousands with a fraction that fits. -/
theorem grouped_neverMisread :
    NeverMisread decimalKit threeDecimals "1,000.125".toList := by
  have hkept : safeUserInput "1,000.125".toList = "1,000.125".toList := by decide +kernel
  have hplain : (spaceless "1,000.125".toList).tail.all (fun c => !(c = '+' || c = '-')) = true := by
    decide
  refine (neverMisread_iff (by decide +kernel) ⟨'.', by decide, rfl⟩).mpr
    ⟨?_, fun hminus => absurd hminus (by decide), by decide, fun denoted h => ?_⟩
  · rintro ⟨c, hc, hsign⟩
    have hnone := List.all_eq_true.mp hplain c hc
    obtain rfl | rfl := hsign <;> cases hnone
  · rw [hkept]
    exact h

/-- A sign behind the point, a minus in front of a fraction, and too many digits behind the second
separator are all accepted and misread. -/
theorem accepted_misread :
    (Accepts decimalKit 3 "1.-5".toList ∧
      ¬ NeverMisread decimalKit threeDecimals "1.-5".toList) ∧
    (Accepts decimalKit 3 "-0.5".toList ∧
      ¬ NeverMisread decimalKit threeDecimals "-0.5".toList) ∧
    (Accepts decimalKit 3 "1,000.1234".toList ∧
      ¬ NeverMisread decimalKit threeDecimals "1,000.1234".toList) := by
  refine ⟨⟨by decide +kernel, fun h => ?_⟩, ⟨by decide +kernel, fun h => ?_⟩,
    ⟨by decide +kernel, fun h => ?_⟩⟩
  · exact h.noInnerSign ⟨'-', by decide, .inr rfl⟩
  · exact absurd (h.minus (by decide) '5' (by decide)) (by decide)
  · exact absurd h.fits (by decide)

end TokenInput

end SafeWallet
