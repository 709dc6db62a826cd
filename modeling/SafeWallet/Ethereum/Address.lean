/-
# Ethereum addresses as text

The program keeps an address as the text it was given and compares addresses
sometimes as text and sometimes in lower case; the chain only knows the number
the digits denote. For text of the usual form, `0x` and forty digits, comparing
in lower case is comparing on the chain, and comparing the text itself is finer
by the letter case of the digits. Every place where the two comparisons are
mixed shows in this difference.
-/

import SafeWallet.Base.Hex
import SafeWallet.Base.Trapping

namespace SafeWallet

/-- `Address`: the text as it was given. -/
structure Address where
  value : String
  deriving DecidableEq, Repr

namespace Address

/-- The address of twenty zero bytes, which also stands for Ether. -/
def zero : Address := ⟨"0x0000000000000000000000000000000000000000"⟩

/-- `Data(ethHex: value)`. -/
def data (a : Address) : Data := Data.ofEthHex a.value.toList

/-- `BigUInt(Data(ethHex: value))`: the address on the chain. -/
def toUInt (a : Address) : ℕ := Data.toNat a.data

/-- `Address(value.lowercased())`. -/
def normalized (a : Address) : Address := ⟨a.value.toLower⟩

/-- `Address(_: BigUInt)`. The bytes beyond the first twenty are cut off, so a
number of more than twenty bytes loses its low end. -/
def ofUInt (n : ℕ) : Address :=
  ⟨String.ofList ('0' :: 'x' :: Data.toHexString
    (Data.leftPadded 20 (Data.endTruncated 20 (Data.ofEthHex (Nat.toDigits 16 n)))))⟩

/-- `Address(_:)`, which insists on a prefix and on twenty bytes or none. -/
def make (text : String) : Trapping Address := do
  Trapping.require (text.toList.take 2 = ['0', 'x'])
  let data := Data.ofEthHex text.toList
  Trapping.require (data.length = 20 ∨ data = [])
  return ⟨text⟩

/-- The text is `0x` followed by forty hexadecimal digits. -/
def WellFormed (a : Address) : Prop :=
  a.value.toList.take 2 = ['0', 'x'] ∧ (a.value.toList.drop 2).length = 40 ∧
    IsHex (a.value.toList.drop 2)

instance (a : Address) : Decidable a.WellFormed :=
  inferInstanceAs (Decidable (_ ∧ _ ∧ _))

/-- Some digit is a letter, so that the text has more than one letter case. -/
def HasLetters (a : Address) : Prop :=
  ∃ c ∈ a.value.toList.drop 2, c.toUpper ≠ c.toLower

instance (a : Address) : Decidable a.HasLetters :=
  List.decidableBEx (fun c : Char => c.toUpper ≠ c.toLower) (a.value.toList.drop 2)

/-- The same text up to the letter case of the digits. -/
def Respelled (a b : Address) : Prop :=
  a.value.toList.take 2 = b.value.toList.take 2 ∧ a.normalized = b.normalized

instance (a b : Address) : Decidable (a.Respelled b) :=
  inferInstanceAs (Decidable (_ ∧ _))

/-- All digits in upper case. -/
def upper (a : Address) : Address :=
  ⟨String.ofList (a.value.toList.take 2 ++ (a.value.toList.drop 2).map Char.toUpper)⟩

theorem ext_toList {a b : Address} (h : a.value.toList = b.value.toList) : a = b := by
  obtain ⟨x⟩ := a
  obtain ⟨y⟩ := b
  exact congrArg Address.mk (String.toList_injective h)

@[simp]
theorem normalized_toList (a : Address) :
    a.normalized.value.toList = a.value.toList.map Char.toLower :=
  String.toList_map

variable {a b : Address}

/-- Well-formed text split into its prefix and its digits. -/
theorem WellFormed.exists_digits (h : a.WellFormed) :
    ∃ digits, a.value.toList = '0' :: 'x' :: digits ∧ digits.length = 40 ∧ IsHex digits := by
  refine ⟨a.value.toList.drop 2, ?_, h.2.1, h.2.2⟩
  have := List.take_append_drop 2 a.value.toList
  rw [h.1] at this
  exact this.symm

theorem wellFormed_of_toList {digits : List Char} (htext : a.value.toList = '0' :: 'x' :: digits)
    (hlength : digits.length = 40) (hhex : IsHex digits) : a.WellFormed := by
  refine ⟨?_, ?_, ?_⟩ <;> simp [htext, hlength, hhex]

/-- The digits of a well-formed address are its bytes, up to letter case. -/
theorem WellFormed.data_spec (h : a.WellFormed) :
    a.data.length = 20 ∧ a.normalized.value.toList = '0' :: 'x' :: Data.toHexString a.data := by
  obtain ⟨digits, htext, hlength, hhex⟩ := h.exists_digits
  obtain ⟨data, hread, hbytes, -, hlower⟩ := bytesOfDigits_of_isHex digits hhex (by omega)
  have hdata : a.data = data := by
    rw [Address.data, htext, Data.ofEthHex_prefixed, Data.ofEthHex,
      Data.dropHexPrefixes_of_isHex hhex, if_neg (by omega), Data.ofHex_of_isHex hhex, hread]
    rfl
  refine ⟨by rw [hdata]; omega, ?_⟩
  rw [normalized_toList, htext, hdata, hlower]
  rfl

/-- Well-formed text passes the preconditions of `Address(_:)`. -/
theorem WellFormed.make (h : a.WellFormed) : Address.make a.value = .ok a := by
  have hlength : (Data.ofEthHex a.value.toList).length = 20 := h.data_spec.1
  simp [Address.make, h.1, hlength]

theorem WellFormed.toUInt_lt (h : a.WellFormed) : a.toUInt < 2 ^ 160 := by
  have := Data.toNat_lt a.data
  rw [h.data_spec.1] at this
  exact this.trans_eq (by norm_num)

/-- Lower-casing text that is an address keeps it an address, with the same
bytes. -/
theorem WellFormed.normalized (h : a.WellFormed) :
    a.normalized.WellFormed ∧ a.normalized.toUInt = a.toUInt := by
  obtain ⟨hlength, htext⟩ := h.data_spec
  refine ⟨wellFormed_of_toList htext (by simp [hlength]) (Data.isHex_toHexString _), ?_⟩
  rw [toUInt, Address.data, htext, Data.ofEthHex_prefixed, Data.ofEthHex_toHexString, toUInt]

/-- Equal in lower case is equal on the chain. -/
theorem normalized_eq_iff (ha : a.WellFormed) (hb : b.WellFormed) :
    a.normalized = b.normalized ↔ a.toUInt = b.toUInt := by
  constructor
  · intro h
    rw [← ha.normalized.2, ← hb.normalized.2, h]
  · intro h
    have hdata : a.data = b.data :=
      Data.eq_of_toNat_eq (ha.data_spec.1.trans hb.data_spec.1.symm) h
    apply ext_toList
    rw [ha.data_spec.2, hb.data_spec.2, hdata]

theorem WellFormed.normalized_normalized (h : a.WellFormed) :
    a.normalized.normalized = a.normalized :=
  (normalized_eq_iff h.normalized.1 h).mpr h.normalized.2

/-- A number of at most twenty bytes is written as the address it is. -/
theorem ofUInt_spec {n : ℕ} (h : n < 2 ^ 160) :
    (ofUInt n).WellFormed ∧ (ofUInt n).toUInt = n ∧ (ofUInt n).normalized = ofUInt n := by
  obtain ⟨hvalue, hlength⟩ := Data.ofEthHex_toDigits n
  have hshort := hlength 20 (by norm_num) (by norm_num at h ⊢; exact h)
  have htext : (ofUInt n).value.toList =
      '0' :: 'x' :: Data.toHexString (Data.leftPadded 20 (Data.ofEthHex (Nat.toDigits 16 n))) := by
    simp [ofUInt, Data.endTruncated, Nat.not_lt.mpr hshort]
  refine ⟨wellFormed_of_toList htext (by simp; omega) (Data.isHex_toHexString _), ?_, ?_⟩
  · rw [toUInt, Address.data, htext, Data.ofEthHex_prefixed, Data.ofEthHex_toHexString,
      Data.toNat_leftPadded, hvalue]
  · apply ext_toList
    rw [normalized_toList, htext]
    simp [Data.map_toLower_toHexString]

/-- The lower-case text of an address is what its number is written as. -/
theorem WellFormed.normalized_eq_ofUInt (h : a.WellFormed) : a.normalized = ofUInt a.toUInt := by
  obtain ⟨hwf, hvalue, hlower⟩ := ofUInt_spec h.toUInt_lt
  rw [← hlower, normalized_eq_iff h hwf, hvalue]

/-- Every number, however large, is written as a well-formed address in lower
case. -/
theorem ofUInt_wellFormed (n : ℕ) : (ofUInt n).WellFormed ∧ (ofUInt n).normalized = ofUInt n := by
  set bytes := Data.leftPadded 20 (Data.endTruncated 20 (Data.ofEthHex (Nat.toDigits 16 n)))
    with hbytes
  have hlength : bytes.length = 20 := by
    rw [hbytes, Data.length_leftPadded, Data.endTruncated]
    split
    · simp
    · simp; omega
  have htext : (ofUInt n).value.toList = '0' :: 'x' :: Data.toHexString bytes := by
    simp [ofUInt, hbytes]
  refine ⟨wellFormed_of_toList htext (by simp [hlength]) (Data.isHex_toHexString _), ?_⟩
  apply ext_toList
  rw [normalized_toList, htext]
  simp [Data.map_toLower_toHexString]

/-! ## Spellings of one address -/

theorem Respelled.refl (a : Address) : a.Respelled a := ⟨rfl, rfl⟩

theorem Respelled.symm (h : a.Respelled b) : b.Respelled a := ⟨h.1.symm, h.2.symm⟩

theorem Respelled.trans {c : Address} (h : a.Respelled b) (h' : b.Respelled c) : a.Respelled c :=
  ⟨h.1.trans h'.1, h.2.trans h'.2⟩

/-- A spelling of a well-formed address is well formed and has its bytes. -/
theorem Respelled.wellFormed (h : a.Respelled b) (ha : a.WellFormed) :
    b.WellFormed ∧ b.data = a.data := by
  obtain ⟨digits, htext, hlength, hhex⟩ := ha.normalized.1.exists_digits
  have hlower : (b.value.toList.drop 2).map Char.toLower = digits := by
    rw [h.2, normalized_toList] at htext
    rw [List.map_drop, htext]
    rfl
  have hb : b.WellFormed := by
    refine ⟨h.1 ▸ ha.1, ?_, isHex_of_map_toLower (hlower ▸ hhex)⟩
    rw [← hlength, ← hlower, List.length_map]
  refine ⟨hb, Data.eq_of_toNat_eq (hb.data_spec.1.trans ha.data_spec.1.symm) ?_⟩
  exact ((normalized_eq_iff ha hb).mp h.2).symm

/-- Well-formed addresses with the same bytes are spellings of each other. -/
theorem respelled_iff (ha : a.WellFormed) : a.Respelled b ↔ b.WellFormed ∧ b.data = a.data := by
  refine ⟨fun h => h.wellFormed ha, fun ⟨hb, hdata⟩ => ⟨ha.1.trans hb.1.symm, ?_⟩⟩
  exact (normalized_eq_iff ha hb).mpr (congrArg Data.toNat hdata.symm)

theorem WellFormed.respelled_normalized (h : a.WellFormed) : a.Respelled a.normalized :=
  ⟨h.1.trans h.normalized.1.1.symm, h.normalized_normalized.symm⟩

/-- A digit below ten has one spelling, the others differ in upper and lower
case. -/
theorem digit_spellings {c : Char} {value : ℕ} (h : digitValue c = some value) :
    c.toUpper.toLower = c.toLower ∧ (c.toUpper = c.toLower → c = Nat.digitChar value) := by
  have check : ∀ n < 103, (digitValue (Char.ofNat n)).all fun v =>
      decide ((Char.ofNat n).toUpper.toLower = (Char.ofNat n).toLower ∧
        ((Char.ofNat n).toUpper = (Char.ofNat n).toLower →
          Char.ofNat n = Nat.digitChar v)) := by
    decide +kernel
  have := check c.toNat (toNat_lt_of_digitValue h)
  rw [Char.ofNat_toNat, h] at this
  exact of_decide_eq_true this

/-- A digit below ten is the only digit with its lower-case form. -/
theorem eq_of_toLower_eq {c d : Char} {value value' : ℕ} (hc : digitValue c = some value)
    (hd : digitValue d = some value') (hlower : c.toLower = d.toLower)
    (hcase : d.toUpper = d.toLower) : c = d := by
  have hvalue : value = value' := by
    have h := digitValue_toLower hc
    rw [hlower, digitValue_toLower hd] at h
    exact (Option.some.inj h).symm
  subst hvalue
  have hd' := (digit_spellings hd).2 hcase
  -- The digit is its own lower-case form, which is also the other's.
  have hupper : c.toUpper = c.toLower := by
    have hsmall : ∀ v < 16, (Nat.digitChar v).toUpper = (Nat.digitChar v).toLower → v < 10 := by
      decide
    have hlt : value < 10 := hsmall value (digitValue_eq_some hd).1 (hd' ▸ hcase)
    have check : ∀ n < 103, (digitValue (Char.ofNat n)).all fun v =>
        decide (v < 10 → (Char.ofNat n).toUpper = (Char.ofNat n).toLower) := by
      decide +kernel
    have := check c.toNat (toNat_lt_of_digitValue hc)
    rw [Char.ofNat_toNat, hc] at this
    simpa [hlt] using this
  rw [(digit_spellings hc).2 hupper, hd']

/-- The digits in upper case are a spelling. -/
theorem WellFormed.respelled_upper (h : a.WellFormed) : a.Respelled a.upper := by
  obtain ⟨digits, htext, -, hhex⟩ := h.exists_digits
  refine ⟨by simp [upper, htext], ?_⟩
  apply ext_toList
  simp only [normalized_toList, upper, htext]
  simp only [List.take_succ_cons, List.take_zero, List.drop_succ_cons, List.drop_zero,
    String.toList_ofList, List.map_cons, List.map_map, List.cons_append, List.nil_append]
  congr 2
  apply List.map_congr_left
  intro c hc
  obtain ⟨value, hvalue⟩ := Option.isSome_iff_exists.mp (hhex c hc)
  exact (digit_spellings hvalue).1.symm

/-- An address with letters can be written in two ways. -/
theorem HasLetters.upper_ne_normalized (h : a.HasLetters) : a.upper ≠ a.normalized := by
  intro heq
  obtain ⟨c, hc, hne⟩ := h
  have htext : a.upper.value.toList.drop 2 = a.normalized.value.toList.drop 2 := by rw [heq]
  have hdrop : (a.value.toList.take 2).length = 2 := by
    rw [List.length_take]
    have : 0 < (a.value.toList.drop 2).length := List.length_pos_of_mem hc
    rw [List.length_drop] at this
    omega
  have hmap : (a.value.toList.drop 2).map Char.toUpper =
      (a.value.toList.drop 2).map Char.toLower := by
    rw [normalized_toList, ← List.map_drop, upper, String.toList_ofList,
      List.drop_left' hdrop] at htext
    exact htext
  exact hne (List.map_inj_left.mp hmap c hc)

/-- An address without letters can be written in one way only. -/
theorem Respelled.eq_of_not_hasLetters (h : a.Respelled b) (ha : a.WellFormed)
    (hletters : ¬ a.HasLetters) : b = a := by
  obtain ⟨digits, htext, hlength, hhex⟩ := ha.exists_digits
  obtain ⟨digits', htext', hlength', hhex'⟩ := (h.wellFormed ha).1.exists_digits
  have hlower : digits'.map Char.toLower = digits.map Char.toLower := by
    have := congrArg (fun x : Address => x.value.toList.drop 2) h.2
    simpa [normalized_toList, htext, htext'] using this.symm
  have hcase : ∀ c ∈ digits, c.toUpper = c.toLower := by
    intro c hc
    by_contra hne
    exact hletters ⟨c, by simpa [htext] using hc, hne⟩
  have hdigits : digits' = digits := by
    apply List.ext_getElem (hlength'.trans hlength.symm)
    intro i hi hi'
    have hget := List.getElem_of_eq hlower (i := i) (by simpa using hi)
    simp only [List.getElem_map] at hget
    obtain ⟨value, hvalue⟩ := Option.isSome_iff_exists.mp (hhex' _ (List.getElem_mem hi))
    obtain ⟨value', hvalue'⟩ := Option.isSome_iff_exists.mp (hhex _ (List.getElem_mem hi'))
    exact eq_of_toLower_eq hvalue hvalue' hget (hcase _ (List.getElem_mem hi'))
  apply ext_toList
  rw [htext, htext', hdigits]

theorem not_hasLetters_zero : zero.WellFormed ∧ ¬ zero.HasLetters := by
  constructor <;> decide +kernel

end Address

end SafeWallet
