/-
# Tokens as texts

A token is stored as its five parts with `~~~` between them, an amount as the number and
the text of its token with `===` between them. Code and name of a token come from its
contract. Nothing is escaped, and what is read back is whatever the separators divide: a
part that holds or ends in separator characters, or a text that begins with a combining
character, is read back as something else.
-/

import SafeWallet.Base.Decimal
import SafeWallet.Base.Separators
import SafeWallet.Ethereum.Token

namespace SafeWallet

/-- What is known about characters and about the texts of big integers: which characters
attach to the one before them, and `BigInt(_:)`. -/
structure TextKit where
  combining : Char → Bool
  combining_ascii : ∀ c : Char, c.toNat < 128 → combining c = false
  integer : List Char → Option ℤ
  integer_text : ∀ value, integer (Decimal.text value) = some value
  integer_digits : ∀ text value, integer text = some value →
    ∀ c ∈ text, c.isDigit ∨ c = '-' ∨ c = '+'

/-- `Int(_:)` of a text. -/
def Decimal.int64 (text : List Char) : Option Int64 :=
  (Decimal.integer text).bind fun value =>
    if -2 ^ 63 ≤ value ∧ value < 2 ^ 63 then some (Int64.ofInt value) else none

/-! ## Writing and reading -/

namespace Token

/-- `Token.separator`. -/
def separator : List Char := List.replicate 3 '~'

/-- The parts of the text of a token. -/
def parts (token : Token) : List (List Char) :=
  [token.code.toList, token.name.toList, Decimal.text token.decimals.toInt,
    token.address.value.toList, token.logoUrl.toList]

/-- `serializedStringValue`. -/
def serialized (token : Token) : List Char := Separated.joined separator token.parts

/-- `Token(_:)`. The text of the address has to be one. -/
def ofText (kit : TextKit) (value : List Char) : Trapping (Option Token) :=
  match Separated.components kit.combining separator value with
  | [code, name, decimals, address, logoUrl] =>
    match Decimal.int64 decimals with
    | none => return none
    | some decimals => do
      let address ← Address.make (String.ofList address)
      return some ⟨String.ofList code, String.ofList name, decimals, address,
        String.ofList logoUrl⟩
  | _ => return none

end Token

namespace TokenAmount

/-- `TokenAmount.separator`. -/
def separator : List Char := List.replicate 3 '='

/-- `serializedStringValue`. -/
def serialized (amount : TokenAmount) : List Char :=
  Separated.joined separator [Decimal.text amount.amount, amount.token.serialized]

/-- `TokenAmount(_:)`. The second component is read before they are counted. -/
def ofText (kit : TextKit) (value : List Char) : Trapping (Option TokenAmount) :=
  match Separated.components kit.combining separator value with
  | [] => return none
  | first :: others =>
    match kit.integer first, others with
    | none, _ => return none
    | some _, [] => .error .precondition
    | some amount, second :: rest => do
      match ← Token.ofText kit second with
      | none => return none
      | some token => return if rest = [] then some ⟨amount, token⟩ else none

end TokenAmount

/-! ## Decimal texts -/

namespace Decimal

theorem int64_text (value : Int64) : int64 (text value.toInt) = some value := by
  rw [int64, integer_text, Option.bind_some, if_pos ⟨value.le_toInt, value.toInt_lt⟩,
    Int64.ofInt_toInt]

theorem mem_text {value : ℤ} {c : Char} (h : c ∈ text value) : c.isDigit ∨ c = '-' := by
  have hdigit : ∀ n, c ∈ Nat.toDigits 10 n → c.isDigit :=
    fun n hc => Nat.isDigit_of_mem_toDigits (by decide) (by decide) hc
  cases value with
  | ofNat n => exact .inl (hdigit n h)
  | negSucc n =>
      rcases List.mem_cons.mp h with rfl | h
      · exact .inr rfl
      · exact .inl (hdigit _ h)

theorem isDigit_of_natural {digits : List Char} {n : ℕ} (h : natural digits = some n) :
    ∀ c ∈ digits, c.isDigit := by
  unfold natural at h
  split at h
  · rename_i hdigits
    exact List.all_eq_true.mp hdigits.2
  · cases h

theorem mem_of_integer {digits : List Char} {value : ℤ} (h : integer digits = some value) :
    ∀ c ∈ digits, c.isDigit ∨ c = '-' ∨ c = '+' := by
  intro c hc
  unfold integer at h
  split at h
  · rename_i rest
    cases hrest : natural rest with
    | none => simp [hrest] at h
    | some n =>
        rcases List.mem_cons.mp hc with rfl | hc
        · exact .inr (.inl rfl)
        · exact .inl (isDigit_of_natural hrest c hc)
  · rename_i rest
    cases hrest : natural rest with
    | none => simp [hrest] at h
    | some n =>
        rcases List.mem_cons.mp hc with rfl | hc
        · exact .inr (.inr rfl)
        · exact .inl (isDigit_of_natural hrest c hc)
  · cases hrest : natural digits with
    | none => simp [hrest] at h
    | some n => exact .inl (isDigit_of_natural hrest c hc)

end Decimal

/-! ## Plain texts -/

/-- Letters, digits and the minus sign, of which numbers and addresses consist. -/
def Plain (text : List Char) : Prop := ∀ c ∈ text, c.isAlphanum ∨ c = '-'

theorem Plain.not_mem {text : List Char} {c : Char} (h : Plain text)
    (hc : (c.isAlphanum || c == '-') = false) : c ∉ text := by
  intro hmem
  rcases h c hmem with hplain | rfl
  · simp [hplain] at hc
  · simp at hc

/-- The ranges of letters and digits. -/
theorem isAlphanum_iff {c : Char} : c.isAlphanum ↔
    (('A'.val ≤ c.val ∧ c.val ≤ 'Z'.val) ∨ ('a'.val ≤ c.val ∧ c.val ≤ 'z'.val)) ∨
      ('0'.val ≤ c.val ∧ c.val ≤ '9'.val) := by
  have hupper : c.isUpper = true ↔ 'A'.val ≤ c.val ∧ c.val ≤ 'Z'.val := decide_eq_true_iff
  have hlower : c.isLower = true ↔ 'a'.val ≤ c.val ∧ c.val ≤ 'z'.val := by
    rw [← decide_eq_true_iff (p := 'a'.val ≤ c.val), ← decide_eq_true_iff (p := c.val ≤ 'z'.val),
      ← Bool.and_eq_true]
    rfl
  have hdigit : c.isDigit = true ↔ '0'.val ≤ c.val ∧ c.val ≤ '9'.val := by
    rw [← decide_eq_true_iff (p := '0'.val ≤ c.val), ← decide_eq_true_iff (p := c.val ≤ '9'.val),
      ← Bool.and_eq_true]
    rfl
  have halpha : c.isAlpha = true ↔ c.isUpper = true ∨ c.isLower = true := Bool.or_eq_true_iff
  have halphanum : c.isAlphanum = true ↔ c.isAlpha = true ∨ c.isDigit = true :=
    Bool.or_eq_true_iff
  rw [halphanum, halpha, hupper, hlower, hdigit]

theorem Plain.ascii {text : List Char} (h : Plain text) : ∀ c ∈ text, c.toNat < 128 := by
  intro c hmem
  rcases h c hmem with hplain | rfl
  · rw [isAlphanum_iff] at hplain
    simp only [UInt32.le_iff_toNat_le] at hplain
    have hvalue : c.toNat = c.val.toNat := rfl
    obtain ⟨hupper, hlower, hdigit⟩ : 'Z'.val.toNat = 90 ∧ 'z'.val.toNat = 122 ∧
        '9'.val.toNat = 57 := by decide
    rcases hplain with (⟨-, hle⟩ | ⟨-, hle⟩) | ⟨-, hle⟩
    all_goals
      rw [hvalue]
      omega
  · decide

theorem Decimal.plain_text (value : ℤ) : Plain (Decimal.text value) := by
  intro c hc
  rcases Decimal.mem_text hc with hdigit | rfl
  · exact .inl (by simp [Char.isAlphanum, hdigit])
  · exact .inr rfl

theorem isAlphanum_of_digitValue {c : Char} (h : (digitValue c).isSome) : c.isAlphanum := by
  unfold digitValue at h
  rw [isAlphanum_iff]
  split at h
  · rename_i hdigit
    exact .inr hdigit
  · split at h
    · rename_i hupper
      have hle : c ≤ 'Z' := Char.le_trans hupper.2 (by decide)
      exact .inl (.inl ⟨hupper.1, hle⟩)
    · split at h
      · rename_i hlower
        have hle : c ≤ 'z' := Char.le_trans hlower.2 (by decide)
        exact .inl (.inr ⟨hlower.1, hle⟩)
      · cases h

theorem Address.value_of_make {text : String} {a : Address} (h : Address.make text = .ok a) :
    a.value = text := by
  simp only [Address.make, Trapping.bind_eq_ok_iff] at h
  obtain ⟨_, -, _, -, h⟩ := h
  cases h
  rfl

theorem Address.WellFormed.plain {a : Address} (h : a.WellFormed) : Plain a.value.toList := by
  obtain ⟨digits, htext, -, hhex⟩ := h.exists_digits
  rw [htext]
  intro c hc
  rcases List.mem_cons.mp hc with rfl | hc
  · exact .inl rfl
  · rcases List.mem_cons.mp hc with rfl | hc
    · exact .inl rfl
    · exact .inl (isAlphanum_of_digitValue (hhex c hc))

/-! ## What is read back -/

namespace Token

variable (kit : TextKit) (token : Token)

/-- A text without a separator in it, and without the begin of one at its end. -/
structure Inner (sep text : List Char) (c : Char) : Prop where
  unseparated : Separated.Unseparated kit.combining sep text
  last : text.getLast? ≠ some c

/-- The token is read back from its text. -/
structure Storable : Prop where
  code : Inner kit separator token.code.toList '~'
  name : Inner kit separator token.name.toList '~'
  name_free : Separated.Free kit.combining token.name.toList
  logoUrl : Separated.Unseparated kit.combining separator token.logoUrl.toList
  logoUrl_free : Separated.Free kit.combining token.logoUrl.toList

variable {kit token}

theorem separator_ne_nil : separator ≠ [] := by decide

theorem clear_iff {text : List Char} : Separated.Clear kit.combining separator text ↔
    Inner kit separator text '~' := by
  rw [separator, Separated.clear_replicate_iff (by decide) (kit.combining_ascii _ (by decide))]
  exact ⟨fun h => ⟨h.1, h.2⟩, fun h => ⟨h.1, h.2⟩⟩

theorem clear_of_plain {text : List Char} (hplain : Plain text) :
    Separated.Clear kit.combining separator text := by
  have hnot : '~' ∉ text := hplain.not_mem rfl
  rw [clear_iff]
  exact ⟨Separated.unseparated_of_not_mem (by decide) hnot,
    fun hlast => hnot (List.mem_of_getLast? hlast)⟩

theorem free_of_plain {text : List Char} (hplain : Plain text) :
    Separated.Free kit.combining text := by
  cases text with
  | nil => rfl
  | cons c rest =>
      simp [Separated.Free, kit.combining_ascii c (hplain.ascii c List.mem_cons_self)]

theorem free_joined_iff {first : List Char} {others : List (List Char)} :
    Separated.Free kit.combining (Separated.joined separator (first :: others)) ↔
      Separated.Free kit.combining first :=
  Separated.free_joined_iff (kit.combining_ascii '~' (by decide))

/-- The separators are met where they were written exactly if the texts allow it. -/
theorem separable_parts_iff (haddress : token.address.WellFormed) :
    Separated.Separable kit.combining separator token.parts ↔ token.Storable kit := by
  have hdecimals := Decimal.plain_text token.decimals.toInt
  simp only [parts, Separated.Separable, free_joined_iff, clear_iff]
  constructor
  · rintro ⟨hcode, hname_free, hname, -, -, -, -, hlogo_free, hlogo⟩
    exact ⟨hcode, hname, hname_free, hlogo, hlogo_free⟩
  · rintro ⟨hcode, hname, hname_free, hlogo, hlogo_free⟩
    exact ⟨hcode, hname_free, hname, free_of_plain hdecimals,
      clear_iff.mp (clear_of_plain hdecimals), free_of_plain haddress.plain,
      clear_iff.mp (clear_of_plain haddress.plain), hlogo_free, hlogo⟩

/-- A token is read back from its text exactly if the texts allow it. -/
theorem ofText_serialized_iff (haddress : token.address.WellFormed) :
    ofText kit token.serialized = .ok (some token) ↔ token.Storable kit := by
  have hparts : token.parts ≠ [] := List.cons_ne_nil _ _
  rw [← separable_parts_iff haddress, ← Separated.components_joined_iff separator_ne_nil hparts]
  constructor
  · intro h
    unfold ofText at h
    split at h
    · rename_i code name decimals address logoUrl hcomponents
      -- Joined they are the text again, so the decimals are what is left between equal parts.
      have hjoined : Separated.joined separator [code, name, decimals, address, logoUrl] =
          token.serialized := by
        rw [← hcomponents, Separated.joined_components separator_ne_nil]
      cases hread : Decimal.int64 decimals with
      | none => simp [hread] at h
      | some value =>
          simp only [hread, Trapping.bind_eq_ok_iff] at h
          obtain ⟨address', hmake, h⟩ := h
          cases h
          have hvalue := Address.value_of_make hmake
          simp only [serialized, parts, hvalue, String.toList_ofList] at hjoined hcomponents ⊢
          have hdecimals : decimals = Decimal.text value.toInt := by
            simpa [Separated.joined] using hjoined
          rw [← hdecimals] at hcomponents ⊢
          exact hcomponents
    · cases h
  · intro h
    rw [← serialized] at h
    simp only [ofText, h, parts, Decimal.int64_text, String.ofList_toList, haddress.make,
      Trapping.ok_bind, Trapping.pure_eq_ok]

/-- The text of a token starts as its code does. -/
theorem free_serialized_iff : Separated.Free kit.combining token.serialized ↔
    Separated.Free kit.combining token.code.toList :=
  free_joined_iff

end Token

namespace TokenAmount

variable (kit : TextKit) (amount : TokenAmount)

/-- The amount is read back from its text. -/
structure Storable : Prop where
  token : amount.token.Storable kit
  code : Separated.Unseparated kit.combining separator amount.token.code.toList
  code_free : Separated.Free kit.combining amount.token.code.toList
  name : Separated.Unseparated kit.combining separator amount.token.name.toList
  logoUrl : Separated.Unseparated kit.combining separator amount.token.logoUrl.toList

variable {kit amount}

theorem separator_ne_nil : separator ≠ [] := by decide

theorem unseparated_of_plain {text : List Char} (hplain : Plain text) :
    Separated.Unseparated kit.combining separator text :=
  Separated.unseparated_of_not_mem (c := '=') (by decide) (hplain.not_mem rfl)

/-- No character of the inner separator can be one of the outer. -/
theorem unseparated_joined_iff {parts : List (List Char)} :
    Separated.Unseparated kit.combining separator (Separated.joined Token.separator parts) ↔
      ∀ part ∈ parts, Separated.Unseparated kit.combining separator part := by
  apply Separated.unseparated_joined_iff separator_ne_nil Token.separator_ne_nil
  intro c hc
  rw [Token.separator, List.mem_replicate] at hc
  rw [hc.2]
  exact ⟨by decide, kit.combining_ascii _ (by decide)⟩

theorem unseparated_serialized_iff (haddress : amount.token.address.WellFormed) :
    Separated.Unseparated kit.combining separator amount.token.serialized ↔
      Separated.Unseparated kit.combining separator amount.token.code.toList ∧
      Separated.Unseparated kit.combining separator amount.token.name.toList ∧
      Separated.Unseparated kit.combining separator amount.token.logoUrl.toList := by
  have hdecimals := Decimal.plain_text amount.token.decimals.toInt
  rw [Token.serialized, unseparated_joined_iff]
  simp only [Token.parts, List.forall_mem_cons, List.not_mem_nil, false_imp_iff, implies_true,
    and_true, unseparated_of_plain hdecimals, unseparated_of_plain haddress.plain, true_and]

/-- The number comes off its token where it was joined with it. -/
theorem separable_pair_iff : Separated.Separable kit.combining separator
      [Decimal.text amount.amount, amount.token.serialized] ↔
    Separated.Free kit.combining amount.token.code.toList ∧
      Separated.Unseparated kit.combining separator amount.token.serialized := by
  have hnumber : Separated.Clear kit.combining separator (Decimal.text amount.amount) := by
    have hplain := Decimal.plain_text amount.amount
    rw [separator, Separated.clear_replicate_iff (by decide) (kit.combining_ascii _ (by decide))]
    exact ⟨unseparated_of_plain hplain, fun hlast => hplain.not_mem rfl (List.mem_of_getLast? hlast)⟩
  rw [Separated.Separable, Separated.Separable, Separated.joined, Token.free_serialized_iff]
  simp only [hnumber, true_and]

theorem separable_iff (haddress : amount.token.address.WellFormed) :
    Separated.Separable kit.combining separator
        [Decimal.text amount.amount, amount.token.serialized] ↔
      Separated.Free kit.combining amount.token.code.toList ∧
      Separated.Unseparated kit.combining separator amount.token.code.toList ∧
      Separated.Unseparated kit.combining separator amount.token.name.toList ∧
      Separated.Unseparated kit.combining separator amount.token.logoUrl.toList := by
  rw [separable_pair_iff, unseparated_serialized_iff haddress]

/-- A text is divided at the first occurrence of a character in one way. -/
theorem eq_of_append_cons {c : Char} {front front' rest rest' : List Char} (h : c ∉ front)
    (h' : c ∉ front') (heq : front ++ c :: rest = front' ++ c :: rest') :
    front = front' ∧ rest = rest' := by
  have htake : ∀ {front rest : List Char}, c ∉ front →
      (front ++ c :: rest).takeWhile (· ≠ c) = front := by
    intro front rest hnot
    rw [List.takeWhile_append_of_pos]
    · simp
    · intro d hd
      simp only [decide_eq_true_eq]
      rintro rfl
      exact hnot hd
  have hfront : front = front' := by rw [← htake h, heq, htake h']
  subst hfront
  exact ⟨rfl, by simpa using heq⟩

/-- An amount that was read back was divided where it was joined. -/
theorem components_of_ofText (h : ofText kit amount.serialized = .ok (some amount)) :
    Separated.components kit.combining separator amount.serialized =
        [Decimal.text amount.amount, amount.token.serialized] ∧
      Token.ofText kit amount.token.serialized = .ok (some amount.token) := by
  have hjoined := @Separated.joined_components _ _ kit.combining _ separator_ne_nil
    amount.serialized
  unfold ofText at h
  split at h
  · cases h
  · rename_i first others hcomponents
    rw [hcomponents] at hjoined ⊢
    split at h
    · cases h
    · cases h
    · rename_i value second rest hnumber
      simp only [Trapping.bind_eq_ok_iff] at h
      obtain ⟨token, htoken, h⟩ := h
      cases token with
      | none => cases h
      | some token =>
          simp only at h
          split at h
          · rename_i hrest
            cases h
            subst hrest
            have hfirst : '=' ∉ first := by
              intro hmem
              rcases kit.integer_digits first value hnumber '=' hmem with hdigit | heq | heq
              · cases hdigit
              · cases heq
              · cases heq
            have hvalue : '=' ∉ Decimal.text value := (Decimal.plain_text value).not_mem rfl
            have hsplit : first ++ '=' :: ('=' :: '=' :: second) =
                Decimal.text value ++ '=' :: ('=' :: '=' :: token.serialized) := hjoined
            obtain ⟨hfirst, htail⟩ := eq_of_append_cons hfirst hvalue hsplit
            have hsecond : second = token.serialized := by simpa using htail
            rw [hfirst, hsecond]
            rw [hsecond] at htoken
            exact ⟨rfl, htoken⟩
          · cases h

/-- An amount is read back from its text exactly if the texts of its token allow it. -/
theorem ofText_serialized_iff (haddress : amount.token.address.WellFormed) :
    ofText kit amount.serialized = .ok (some amount) ↔ amount.Storable kit := by
  have hparts : [Decimal.text amount.amount, amount.token.serialized] ≠ [] := List.cons_ne_nil _ _
  have hseparable := @separable_iff kit amount haddress
  rw [← Separated.components_joined_iff separator_ne_nil hparts, ← serialized] at hseparable
  constructor
  · intro h
    obtain ⟨hcomponents, htoken⟩ := components_of_ofText h
    obtain ⟨hfree, hcode, hname, hlogoUrl⟩ := hseparable.mp hcomponents
    exact ⟨(Token.ofText_serialized_iff haddress).mp htoken, hcode, hfree, hname, hlogoUrl⟩
  · intro h
    have hcomponents := hseparable.mpr ⟨h.code_free, h.code, h.name, h.logoUrl⟩
    simp only [ofText, hcomponents, kit.integer_text,
      (Token.ofText_serialized_iff haddress).mpr h.token, Trapping.ok_bind, ↓reduceIte,
      Trapping.pure_eq_ok]

end TokenAmount

/-! ## Lists of pairs of plain texts -/

/-- Two plain texts around a separator. -/
def Paired (c : Char) (text : List Char) : Prop :=
  ∃ first second, Plain first ∧ Plain second ∧ text = Separated.joined [c] [first, second]

namespace Paired

variable (kit : TextKit) {c c' d : Char} {first second text : List Char} {texts : List (List Char)}

theorem mem (h : Paired c text) (hd : d ∈ text) : d = c ∨ d.isAlphanum ∨ d = '-' := by
  obtain ⟨first, second, hfirst, hsecond, rfl⟩ := h
  rcases Separated.mem_joined hd with hsep | ⟨part, hpart, hmem⟩
  · exact .inl (List.mem_singleton.mp hsep)
  · rcases List.mem_cons.mp hpart with rfl | hpart
    · exact .inr (hfirst d hmem)
    · rw [List.mem_singleton.mp hpart] at hmem
      exact .inr (hsecond d hmem)

theorem not_mem (h : Paired c text) (hne : d ≠ c) (hd : (d.isAlphanum || d == '-') = false) :
    d ∉ text := by
  intro hmem
  rcases h.mem hmem with heq | hplain | rfl
  · exact hne heq
  · simp [hplain] at hd
  · simp at hd

/-- The two texts come apart again. -/
theorem components (hc : c.toNat < 128) (hplain : (c.isAlphanum || c == '-') = false)
    (hfirst : Plain first) (hsecond : Plain second) :
    Separated.components kit.combining [c] (Separated.joined [c] [first, second]) =
      [first, second] := by
  rw [Separated.components_joined_iff (List.cons_ne_nil _ _) (List.cons_ne_nil _ _)]
  apply Separated.separable_of_not_mem (kit.combining_ascii c hc) (List.cons_ne_nil _ _)
  simp only [List.forall_mem_cons, List.not_mem_nil, false_imp_iff, implies_true, and_true]
  exact ⟨⟨hfirst.not_mem hplain, Token.free_of_plain hfirst⟩,
    hsecond.not_mem hplain, Token.free_of_plain hsecond⟩

/-- So do the pairs of a list with another separator. -/
theorem components_list (hc : c.toNat < 128) (hc' : c'.toNat < 128)
    (hplain : (c'.isAlphanum || c' == '-') = false) (hne : c' ≠ c)
    (htexts : ∀ text ∈ texts, Paired c text) (hnil : texts ≠ []) :
    Separated.components kit.combining [c'] (Separated.joined [c'] texts) = texts := by
  rw [Separated.components_joined_iff (List.cons_ne_nil _ _) hnil]
  apply Separated.separable_of_not_mem (kit.combining_ascii c' hc') hnil
  intro text htext
  refine ⟨(htexts text htext).not_mem hne hplain, ?_⟩
  obtain ⟨first, second, hfirst, -, rfl⟩ := htexts text htext
  exact (Separated.free_joined_iff (kit.combining_ascii c hc)).mpr (Token.free_of_plain hfirst)

/-- A character of neither kind is not in the text of the list. -/
theorem not_mem_list (hne : d ≠ c) (hne' : d ≠ c') (hd : (d.isAlphanum || d == '-') = false)
    (htexts : ∀ text ∈ texts, Paired c text) : d ∉ Separated.joined [c'] texts := by
  intro hmem
  rcases Separated.mem_joined hmem with hmem | ⟨text, htext, hmem⟩
  · exact hne' (List.mem_singleton.mp hmem)
  · exact (htexts text htext).not_mem hne hd hmem

end Paired

/-! ## Texts that stop the program -/

/-- If a text has five parts with a number in the middle, an address follows. -/
def Token.Readable (kit : TextKit) (value : List Char) : Prop :=
  ∀ code name decimals address logoUrl,
    Separated.components kit.combining Token.separator value =
      [code, name, decimals, address, logoUrl] →
    (Decimal.int64 decimals).isSome → ∃ a, Address.make (String.ofList address) = .ok a

theorem Token.ofText_ok_iff {kit : TextKit} {value : List Char} :
    (∃ token, Token.ofText kit value = .ok token) ↔ Token.Readable kit value := by
  unfold Token.Readable Token.ofText
  split
  · rename_i code name decimals address logoUrl hcomponents
    cases hnumber : Decimal.int64 decimals with
    | none =>
        refine iff_of_true ⟨none, rfl⟩ fun _ _ decimals' _ _ heq hsome => ?_
        rw [hcomponents] at heq
        cases heq
        rw [hnumber] at hsome
        cases hsome
    | some number =>
        constructor
        · rintro ⟨token, htoken⟩ _ _ _ address' _ heq -
          rw [hcomponents] at heq
          cases heq
          simp only [Trapping.bind_eq_ok_iff] at htoken
          obtain ⟨a, ha, -⟩ := htoken
          exact ⟨a, ha⟩
        · intro h
          obtain ⟨a, ha⟩ := h _ _ _ _ _ hcomponents (by rw [hnumber]; rfl)
          simp only [ha, Trapping.ok_bind]
          exact ⟨_, rfl⟩
  · rename_i hother
    exact iff_of_true ⟨none, rfl⟩ fun _ _ _ _ _ heq => absurd heq (hother _ _ _ _ _)

/-- If a text begins with a number, a separator and a readable text follow. -/
def TokenAmount.Readable (kit : TextKit) (value : List Char) : Prop :=
  ∀ first others, Separated.components kit.combining TokenAmount.separator value =
      first :: others →
    (kit.integer first).isSome → ∃ second rest, others = second :: rest ∧ Token.Readable kit second

theorem TokenAmount.ofText_ok_iff {kit : TextKit} {value : List Char} :
    (∃ amount, TokenAmount.ofText kit value = .ok amount) ↔ TokenAmount.Readable kit value := by
  unfold TokenAmount.Readable TokenAmount.ofText
  split
  · rename_i hcomponents
    exact absurd hcomponents Separated.components_ne_nil
  · rename_i first others hcomponents
    rw [hcomponents]
    split
    · rename_i hnumber
      refine iff_of_true ⟨none, rfl⟩ fun _ _ heq hsome => ?_
      cases heq
      rw [hnumber] at hsome
      cases hsome
    · rename_i number hnumber
      refine iff_of_false (by simp) fun h => ?_
      obtain ⟨second, rest, heq, -⟩ := h first [] rfl (by rw [hnumber]; rfl)
      cases heq
    · rename_i number second rest hnumber
      have hsecond := @Token.ofText_ok_iff kit second
      constructor
      · rintro ⟨amount, hamount⟩ _ _ heq -
        cases heq
        simp only [Trapping.bind_eq_ok_iff] at hamount
        obtain ⟨token, htoken, -⟩ := hamount
        exact ⟨second, rest, rfl, hsecond.mp ⟨token, htoken⟩⟩
      · intro h
        obtain ⟨_, _, heq, hreadable⟩ := h first _ rfl (by rw [hnumber]; rfl)
        cases heq
        obtain ⟨token, htoken⟩ := hsecond.mpr hreadable
        simp only [htoken, Trapping.ok_bind]
        cases token <;> exact ⟨_, rfl⟩

/-! ## Texts that were read -/

namespace Token

variable {kit : TextKit} {value : List Char} {token : Token}

/-- A text that was read was divided into the parts of the token. -/
theorem components_of_ofText (h : ofText kit value = .ok (some token)) : ∃ decimals,
    Separated.components kit.combining separator value = [token.code.toList, token.name.toList,
      decimals, token.address.value.toList, token.logoUrl.toList] ∧
      Address.make token.address.value = .ok token.address := by
  unfold ofText at h
  split at h
  · rename_i code name decimals address logoUrl hcomponents
    cases hnumber : Decimal.int64 decimals with
    | none => simp [hnumber] at h
    | some number =>
        simp only [hnumber, Trapping.bind_eq_ok_iff] at h
        obtain ⟨a, ha, h⟩ := h
        have hvalue := Address.value_of_make ha
        cases h
        refine ⟨decimals, ?_, ?_⟩
        · rw [hcomponents]
          simp [hvalue]
        · rw [hvalue, ha]
  · cases h

/-- The parts of a text that was read are separable, and so are those with the number written
again. -/
theorem separable_of_ofText (h : ofText kit value = .ok (some token)) :
    Separated.Separable kit.combining separator token.parts := by
  obtain ⟨decimals, hcomponents, -⟩ := components_of_ofText h
  have hjoined := @Separated.joined_components _ _ kit.combining _ separator_ne_nil value
  rw [hcomponents] at hjoined
  have hdecimals := Decimal.plain_text token.decimals.toInt
  have hseparable := (Separated.components_joined_iff separator_ne_nil
    (List.cons_ne_nil _ _)).mp (by rw [hjoined, hcomponents])
  simp only [parts, Separated.Separable, free_joined_iff] at hseparable ⊢
  obtain ⟨hcode, hname_free, hname, -, -, haddress_free, haddress, hlogo⟩ := hseparable
  exact ⟨hcode, hname_free, hname, free_of_plain hdecimals, clear_of_plain hdecimals,
    haddress_free, haddress, hlogo⟩

/-- A token that was read is read again from its own text. -/
theorem ofText_serialized_of_ofText (h : ofText kit value = .ok (some token)) :
    ofText kit token.serialized = .ok (some token) := by
  obtain ⟨-, -, hmake⟩ := components_of_ofText h
  have hcomponents : Separated.components kit.combining separator token.serialized =
      token.parts :=
    (Separated.components_joined_iff separator_ne_nil (List.cons_ne_nil _ _)).mpr
      (separable_of_ofText h)
  simp only [ofText, hcomponents, parts, Decimal.int64_text, String.ofList_toList, hmake,
    Trapping.ok_bind, Trapping.pure_eq_ok]

/-- Nothing is in the text that is written but what was in the text that was read. -/
theorem nul_not_mem_serialized_of_ofText (h : ofText kit value = .ok (some token))
    (hnul : '\x00' ∉ value) : '\x00' ∉ token.serialized := by
  obtain ⟨decimals, hcomponents, -⟩ := components_of_ofText h
  have hjoined := @Separated.joined_components _ _ kit.combining _ separator_ne_nil value
  rw [hcomponents] at hjoined
  have hparts : ∀ part ∈ [token.code.toList, token.name.toList, decimals,
      token.address.value.toList, token.logoUrl.toList], '\x00' ∉ part := by
    intro part hpart hmem
    rw [← hjoined] at hnul
    exact hnul (Separated.mem_joined_of_mem hpart hmem)
  simp only [List.forall_mem_cons] at hparts
  have hdecimals := (Decimal.plain_text token.decimals.toInt).not_mem (c := '\x00') rfl
  have hall : ∀ part ∈ token.parts, '\x00' ∉ part := by
    simp only [parts, List.forall_mem_cons]
    exact ⟨hparts.1, hparts.2.1, hdecimals, hparts.2.2.2⟩
  intro hmem
  rcases Separated.mem_joined hmem with hseparator | ⟨part, hpart, hmem⟩
  · exact absurd hseparator (by decide)
  · exact hall part hpart hmem

end Token

namespace TokenAmount

variable {kit : TextKit} {value : List Char} {amount : TokenAmount}

/-- A text that was read was divided into the number and the text of the token. -/
theorem exists_components_of_ofText (h : ofText kit value = .ok (some amount)) :
    ∃ first second, Separated.components kit.combining separator value = [first, second] ∧
      Token.ofText kit second = .ok (some amount.token) := by
  unfold ofText at h
  split at h
  · cases h
  · rename_i first others hcomponents
    split at h
    · cases h
    · cases h
    · rename_i number second rest hnumber
      simp only [Trapping.bind_eq_ok_iff] at h
      obtain ⟨token, htoken, h⟩ := h
      cases token with
      | none => cases h
      | some token =>
          simp only at h
          split at h
          · rename_i hrest
            cases h
            subst hrest
            exact ⟨first, second, hcomponents, htoken⟩
          · cases h

/-- An amount that was read is read again from its own text. -/
theorem ofText_serialized_of_ofText (h : ofText kit value = .ok (some amount)) :
    ofText kit amount.serialized = .ok (some amount) := by
  obtain ⟨first, second, hcomponents, htoken⟩ := exists_components_of_ofText h
  obtain ⟨decimals, hparts, -⟩ := Token.components_of_ofText htoken
  have hjoined := @Separated.joined_components _ _ kit.combining _ separator_ne_nil value
  have hsecond := @Separated.joined_components _ _ kit.combining _ Token.separator_ne_nil second
  rw [hcomponents] at hjoined
  rw [hparts] at hsecond
  obtain ⟨-, hfree, hunseparated⟩ := (Separated.components_joined_iff separator_ne_nil
    (List.cons_ne_nil _ _)).mp (by rw [hjoined, hcomponents])
  rw [Separated.Separable, ← hsecond] at hunseparated
  rw [Separated.joined, ← hsecond] at hfree
  have hall := unseparated_joined_iff.mp hunseparated
  have hdecimals := Decimal.plain_text amount.token.decimals.toInt
  have hpair : Separated.Separable kit.combining separator
      [Decimal.text amount.amount, amount.token.serialized] := by
    refine separable_pair_iff.mpr
      ⟨Token.free_joined_iff.mp hfree, unseparated_joined_iff.mpr ?_⟩
    simp only [Token.parts, List.forall_mem_cons] at hall ⊢
    exact ⟨hall.1, hall.2.1, unseparated_of_plain hdecimals, hall.2.2.2⟩
  have hcomponents' : Separated.components kit.combining separator amount.serialized =
      [Decimal.text amount.amount, amount.token.serialized] :=
    (Separated.components_joined_iff separator_ne_nil (List.cons_ne_nil _ _)).mpr hpair
  simp only [ofText, hcomponents', kit.integer_text, Token.ofText_serialized_of_ofText htoken,
    Trapping.ok_bind, ↓reduceIte, Trapping.pure_eq_ok]

theorem nul_not_mem_serialized_of_ofText (h : ofText kit value = .ok (some amount))
    (hnul : '\x00' ∉ value) : '\x00' ∉ amount.serialized := by
  obtain ⟨first, second, hcomponents, htoken⟩ := exists_components_of_ofText h
  have hjoined := @Separated.joined_components _ _ kit.combining _ separator_ne_nil value
  rw [hcomponents] at hjoined
  have hsecond : '\x00' ∉ second := by
    intro hmem
    rw [← hjoined] at hnul
    exact hnul (Separated.mem_joined_of_mem (by simp) hmem)
  have hnumber := (Decimal.plain_text amount.amount).not_mem (c := '\x00') rfl
  intro hmem
  rcases Separated.mem_joined hmem with hseparator | ⟨part, hpart, hmem⟩
  · exact absurd hseparator (by decide)
  · rcases List.mem_cons.mp hpart with rfl | hpart
    · exact hnumber hmem
    · rw [List.mem_singleton.mp hpart] at hmem
      exact Token.nul_not_mem_serialized_of_ofText htoken hsecond hmem

end TokenAmount

end SafeWallet
