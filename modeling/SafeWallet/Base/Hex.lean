/-
# Bytes, hexadecimal text and big-endian numbers

Addresses, hashes and call data travel between three spellings: text with
hexadecimal digits of either letter case, byte strings, and unsigned big
integers. This module fixes the three conversions the way the libraries compute
them, including what they do with odd lengths, repeated prefixes and characters
that are no digits, and relates them: text up to letter case, bytes of a known
length and bounded numbers determine each other.
-/

import Mathlib.Data.List.Basic
import Mathlib.Data.Nat.Digits.Defs
import Mathlib.Tactic.Ring
import Mathlib.Tactic.IntervalCases

namespace SafeWallet

/-- A byte string. -/
abbrev Data := List UInt8

/-- The value of a hexadecimal digit of either letter case. -/
def digitValue (c : Char) : Option ℕ :=
  if '0' ≤ c ∧ c ≤ '9' then some (c.toNat - 48)
  else if 'A' ≤ c ∧ c ≤ 'F' then some (c.toNat - 55)
  else if 'a' ≤ c ∧ c ≤ 'f' then some (c.toNat - 87)
  else none

/-- Text all of whose characters are hexadecimal digits. -/
def IsHex (digits : List Char) : Prop := ∀ c ∈ digits, (digitValue c).isSome

instance (digits : List Char) : Decidable (IsHex digits) :=
  List.decidableBAll (fun c => (digitValue c).isSome) digits

/-- The number a text of hexadecimal digits denotes. -/
def digitsValue : List Char → ℕ
  | [] => 0
  | c :: rest => (digitValue c).getD 0 * 16 ^ rest.length + digitsValue rest

/-- Read digits pairwise. A last single digit is a byte of its own, and any
other character spoils the whole text. -/
def bytesOfDigits : List Char → Option Data
  | [] => some []
  | [c] => (digitValue c).map fun value => [UInt8.ofNat value]
  | c :: d :: rest => do
      let high ← digitValue c
      let low ← digitValue d
      let tail ← bytesOfDigits rest
      return UInt8.ofNat (high * 16 + low) :: tail

namespace Data

/-- `Data(hex:)`: one leading `0x` is skipped and unreadable text is empty. -/
def ofHex (text : List Char) : Data :=
  (bytesOfDigits (match text with | '0' :: 'x' :: rest => rest | text => text)).getD []

/-- Drop every leading `0x` or `0X`. -/
def dropHexPrefixes : List Char → List Char
  | '0' :: 'x' :: rest => dropHexPrefixes rest
  | '0' :: 'X' :: rest => dropHexPrefixes rest
  | text => text

/-- `Data(ethHex:)`: all prefixes are dropped and an odd number of digits is
completed by a zero on the left. -/
def ofEthHex (text : List Char) : Data :=
  let value := dropHexPrefixes text
  ofHex (if value.length % 2 = 1 then '0' :: value else value)

/-- `toHexString()`: two lower-case digits for each byte. -/
def toHexString (data : Data) : List Char :=
  data.flatMap fun byte => [Nat.digitChar (byte.toNat / 16), Nat.digitChar (byte.toNat % 16)]

/-- `BigUInt(data)`: the big-endian number. -/
def toNat : Data → ℕ
  | [] => 0
  | byte :: rest => byte.toNat * 256 ^ rest.length + toNat rest

/-- `leftPadded(to:)` with zeros. -/
def leftPadded (count : ℕ) (data : Data) : Data :=
  if count ≤ data.length then data else List.replicate (count - data.length) 0 ++ data

/-- `rightPadded(to:)` with zeros. -/
def rightPadded (count : ℕ) (data : Data) : Data :=
  if count ≤ data.length then data else data ++ List.replicate (count - data.length) 0

/-- `endTruncated(to:)` keeps the first `count` bytes. -/
def endTruncated (count : ℕ) (data : Data) : Data :=
  if count < data.length then data.take count else data

/-- `suffix(_:)`. -/
def suffix (count : ℕ) (data : Data) : Data := data.drop (data.length - count)

end Data

/-! ## Digits -/

/-- Nothing beyond `f` is a hexadecimal digit. -/
theorem toNat_lt_of_digitValue {c : Char} {value : ℕ} (h : digitValue c = some value) :
    c.toNat < 103 := by
  unfold digitValue at h
  have bound (d : Char) (hle : c ≤ d) : c.toNat ≤ d.toNat := hle
  split at h
  · rename_i hc
    have := bound '9' hc.2
    simp at this; omega
  · split at h
    · rename_i hc
      have := bound 'F' hc.2
      simp at this; omega
    · split at h
      · rename_i hc
        have := bound 'f' hc.2
        simp at this; omega
      · cases h

/-- A digit's value is below sixteen, and its lower-case spelling is the
canonical character of that value. -/
theorem digitValue_eq_some {c : Char} {value : ℕ} (h : digitValue c = some value) :
    value < 16 ∧ c.toLower = Nat.digitChar value := by
  have check : ∀ n < 103, ∀ v, digitValue (Char.ofNat n) = some v →
      v < 16 ∧ (Char.ofNat n).toLower = Nat.digitChar v := by
    intro n hn v hv
    have hall : ∀ n < 103, (digitValue (Char.ofNat n)).all fun v =>
        decide (v < 16 ∧ (Char.ofNat n).toLower = Nat.digitChar v) := by decide +kernel
    have := hall n hn
    rw [hv] at this
    simpa using this
  have hc := check c.toNat (toNat_lt_of_digitValue h) value
  rw [Char.ofNat_toNat] at hc
  exact hc h

/-- The canonical characters read back as their values. -/
theorem digitValue_digitChar {value : ℕ} (h : value < 16) :
    digitValue (Nat.digitChar value) = some value := by
  interval_cases value <;> decide

/-- Lower-casing keeps the value of a digit. -/
theorem digitValue_toLower {c : Char} {value : ℕ} (h : digitValue c = some value) :
    digitValue c.toLower = some value := by
  obtain ⟨hlt, hlower⟩ := digitValue_eq_some h
  rw [hlower, digitValue_digitChar hlt]

theorem isHex_nil : IsHex [] := by simp [IsHex]

theorem isHex_cons {c : Char} {rest : List Char} :
    IsHex (c :: rest) ↔ (∃ value, digitValue c = some value) ∧ IsHex rest := by
  simp [IsHex, Option.isSome_iff_exists]

/-- Only digits have lower-case forms that are digits. -/
theorem digitValue_of_toLower {c : Char} {value : ℕ} (h : digitValue c.toLower = some value) :
    digitValue c = some value := by
  by_cases hupper : 'A' ≤ c ∧ c ≤ 'Z'
  · have check : ∀ n < 91, ∀ v, digitValue (Char.ofNat n).toLower = some v →
        digitValue (Char.ofNat n) = some v := by
      intro n hn v hv
      have hall : ∀ n < 91, digitValue (Char.ofNat n).toLower = digitValue (Char.ofNat n) := by
        decide +kernel
      rw [← hall n hn, hv]
    have hlt : c.toNat ≤ 'Z'.toNat := hupper.2
    have hc := check c.toNat (by simp at hlt; omega) value
    rw [Char.ofNat_toNat] at hc
    exact hc h
  · have hsame : c.toLower = c := by
      unfold Char.toLower
      exact dif_neg hupper
    rwa [hsame] at h

theorem isHex_of_map_toLower {digits : List Char} (h : IsHex (digits.map Char.toLower)) :
    IsHex digits := by
  intro c hc
  obtain ⟨value, hvalue⟩ := Option.isSome_iff_exists.mp (h c.toLower (List.mem_map_of_mem hc))
  rw [digitValue_of_toLower hvalue]
  rfl

/-- A number written in base sixteen reads back, and all of its characters are
digits. -/
theorem toDigits_sixteen (n : ℕ) :
    IsHex (Nat.toDigits 16 n) ∧ digitsValue (Nat.toDigits 16 n) = n := by
  -- The recursion of `toDigits` peels the last digit; `digitsValue` the first.
  have append (front : List Char) (c : Char) :
      digitsValue (front ++ [c]) = digitsValue front * 16 + (digitValue c).getD 0 := by
    induction front with
    | nil => simp [digitsValue]
    | cons d front ih =>
        simp only [List.cons_append, digitsValue, ih, List.length_append, List.length_singleton,
          pow_succ]
        ring
  induction n using Nat.strong_induction_on with
  | _ n ih =>
    rw [Nat.toDigits_eq_if (by norm_num)]
    split
    · rename_i hlt
      refine ⟨?_, ?_⟩
      · rw [isHex_cons]
        exact ⟨⟨n, digitValue_digitChar hlt⟩, isHex_nil⟩
      · simp [digitsValue, digitValue_digitChar hlt]
    · rename_i hge
      have hmod : n % 16 < 16 := Nat.mod_lt _ (by norm_num)
      obtain ⟨hhex, hvalue⟩ := ih (n / 16) (Nat.div_lt_self (by omega) (by norm_num))
      refine ⟨?_, ?_⟩
      · intro c hc
        rcases List.mem_append.mp hc with hc | hc
        · exact hhex c hc
        · rw [List.mem_singleton.mp hc, digitValue_digitChar hmod]
          rfl
      · rw [append, hvalue, digitValue_digitChar hmod]
        simp only [Option.getD_some]
        omega

/-! ## Numbers and bytes -/

namespace Data

@[simp]
theorem toNat_nil : toNat [] = 0 := rfl

theorem toNat_append (front back : Data) :
    toNat (front ++ back) = toNat front * 256 ^ back.length + toNat back := by
  induction front with
  | nil => simp
  | cons byte front ih =>
      simp only [List.cons_append, toNat, ih, List.length_append, pow_add]
      ring

theorem toNat_lt (data : Data) : toNat data < 256 ^ data.length := by
  induction data with
  | nil => simp
  | cons byte rest ih =>
      have hbyte : byte.toNat < 256 := byte.toNat_lt
      simp only [toNat, List.length_cons, pow_succ]
      calc
        byte.toNat * 256 ^ rest.length + toNat rest
            < byte.toNat * 256 ^ rest.length + 256 ^ rest.length := by omega
        _ = (byte.toNat + 1) * 256 ^ rest.length := by ring
        _ ≤ 256 * 256 ^ rest.length := Nat.mul_le_mul_right _ hbyte
        _ = 256 ^ rest.length * 256 := by ring

/-- Bytes of a known length are determined by their number. -/
theorem eq_of_toNat_eq {first second : Data} (hlength : first.length = second.length)
    (hvalue : toNat first = toNat second) : first = second := by
  induction first generalizing second with
  | nil => exact (List.length_eq_zero_iff.mp hlength.symm).symm
  | cons byte rest ih =>
      cases second with
      | nil => cases hlength
      | cons byte' rest' =>
          have hlen : rest.length = rest'.length := by simpa using hlength
          simp only [toNat, hlen] at hvalue
          have hrest := toNat_lt rest
          have hrest' := toNat_lt rest'
          rw [hlen] at hrest
          have hpos : 0 < 256 ^ rest'.length := by positivity
          -- Both sides are quotient and remainder by the same power.
          have hhead : byte.toNat = byte'.toNat := by
            have := congrArg (· / 256 ^ rest'.length) hvalue
            simpa [Nat.mul_comm _ (256 ^ rest'.length), Nat.mul_add_div hpos,
              Nat.div_eq_of_lt hrest, Nat.div_eq_of_lt hrest'] using this
          have htail : toNat rest = toNat rest' := by rw [hhead] at hvalue; omega
          rw [ih hlen htail, UInt8.toNat_inj.mp hhead]

@[simp]
theorem toNat_replicate_zero (count : ℕ) : toNat (List.replicate count 0) = 0 := by
  induction count with
  | zero => rfl
  | succ count ih => simp [List.replicate_succ, toNat, ih]

@[simp]
theorem toNat_leftPadded (count : ℕ) (data : Data) :
    toNat (leftPadded count data) = toNat data := by
  unfold leftPadded
  split
  · rfl
  · rw [toNat_append]
    simp

@[simp]
theorem length_leftPadded (count : ℕ) (data : Data) :
    (leftPadded count data).length = max count data.length := by
  unfold leftPadded
  split
  · omega
  · simp; omega

theorem length_suffix {count : ℕ} {data : Data} (h : count ≤ data.length) :
    (suffix count data).length = count := by
  simp [suffix]; omega

/-- The last bytes are the number modulo the corresponding power. -/
theorem toNat_suffix {count : ℕ} {data : Data} (h : count ≤ data.length) :
    toNat (suffix count data) = toNat data % 256 ^ count := by
  have hsplit : toNat data =
      toNat (data.take (data.length - count)) * 256 ^ count + toNat (suffix count data) := by
    have := toNat_append (data.take (data.length - count)) (suffix count data)
    rwa [suffix, List.take_append_drop, ← suffix, length_suffix h] at this
  have hlt := toNat_lt (suffix count data)
  rw [length_suffix h] at hlt
  rw [hsplit, Nat.mul_add_mod', Nat.mod_eq_of_lt hlt]

end Data

/-! ## Text and bytes -/

/-- An even number of digits reads as half as many bytes of the same number, and
those bytes write back as the same digits in lower case. -/
theorem bytesOfDigits_of_isHex (digits : List Char) (hhex : IsHex digits)
    (heven : digits.length % 2 = 0) :
    ∃ data, bytesOfDigits digits = some data ∧ 2 * data.length = digits.length ∧
      Data.toNat data = digitsValue digits ∧
      Data.toHexString data = digits.map Char.toLower := by
  induction digits using bytesOfDigits.induct with
  | case1 => exact ⟨[], rfl, rfl, rfl, rfl⟩
  | case2 c => simp at heven
  | case3 c d rest ih =>
      simp only [isHex_cons] at hhex
      obtain ⟨⟨high, hc⟩, ⟨low, hd⟩, hrest⟩ := hhex
      obtain ⟨tail, htail, hlength, hvalue, htext⟩ := ih hrest (by simp at heven; omega)
      obtain ⟨hhigh, hcLower⟩ := digitValue_eq_some hc
      obtain ⟨hlow, hdLower⟩ := digitValue_eq_some hd
      have hbyte : (UInt8.ofNat (high * 16 + low)).toNat = high * 16 + low := by
        rw [UInt8.toNat_ofNat']
        omega
      have hpow : 256 ^ tail.length = 16 ^ rest.length := by
        rw [← hlength, pow_mul]
        norm_num
      refine ⟨UInt8.ofNat (high * 16 + low) :: tail, ?_, ?_, ?_, ?_⟩
      · simp [bytesOfDigits, hc, hd, htail]
      · simp only [List.length_cons]; omega
      · simp only [Data.toNat, digitsValue, hbyte, hpow, hvalue, hc, hd, Option.getD_some,
          List.length_cons, pow_succ]
        ring
      · simp only [Data.toHexString, List.flatMap_cons, hbyte, List.map_cons, hcLower, hdLower]
        rw [show (high * 16 + low) / 16 = high by omega,
          show (high * 16 + low) % 16 = low by omega]
        simpa [Data.toHexString] using htext

namespace Data

theorem isHex_toHexString (data : Data) : IsHex (toHexString data) := by
  induction data with
  | nil => exact isHex_nil
  | cons byte rest ih =>
      have hbyte : byte.toNat < 256 := byte.toNat_lt
      simp only [toHexString, List.flatMap_cons, List.cons_append, List.nil_append, isHex_cons]
      exact ⟨⟨_, digitValue_digitChar (by omega)⟩, ⟨_, digitValue_digitChar (by omega)⟩, ih⟩

@[simp]
theorem length_toHexString (data : Data) : (toHexString data).length = 2 * data.length := by
  induction data with
  | nil => rfl
  | cons byte rest ih =>
      simp only [toHexString, List.flatMap_cons] at ih ⊢
      simp [ih]; omega

/-- Bytes written as digits read back. -/
theorem bytesOfDigits_toHexString (data : Data) :
    bytesOfDigits (toHexString data) = some data := by
  induction data with
  | nil => rfl
  | cons byte rest ih =>
      have hbyte : byte.toNat < 256 := byte.toNat_lt
      have hsplit : byte.toNat / 16 * 16 + byte.toNat % 16 = byte.toNat := by omega
      simp only [toHexString, List.flatMap_cons, List.cons_append, List.nil_append] at ih ⊢
      simp only [bytesOfDigits, digitValue_digitChar (show byte.toNat / 16 < 16 by omega),
        digitValue_digitChar (show byte.toNat % 16 < 16 by omega), ih, Option.bind_eq_bind,
        Option.bind_some, Option.pure_def, hsplit, UInt8.ofNat_toNat]

/-- `toHexString` writes lower-case digits only. -/
theorem map_toLower_toHexString (data : Data) :
    (toHexString data).map Char.toLower = toHexString data := by
  obtain ⟨data', hread, -, -, htext⟩ := bytesOfDigits_of_isHex (toHexString data)
    (isHex_toHexString data) (by simp)
  rw [bytesOfDigits_toHexString, Option.some.injEq] at hread
  rw [← htext, hread]

theorem dropHexPrefixes_of_isHex {digits : List Char} (h : IsHex digits) :
    dropHexPrefixes digits = digits := by
  have noX : digitValue 'x' = none := by decide
  have noX' : digitValue 'X' = none := by decide
  unfold dropHexPrefixes
  split
  · simp [isHex_cons, noX] at h
  · simp [isHex_cons, noX'] at h
  · rfl

theorem ofHex_of_isHex {digits : List Char} (h : IsHex digits) :
    ofHex digits = (bytesOfDigits digits).getD [] := by
  have noX : digitValue 'x' = none := by decide
  unfold ofHex
  split
  · simp [isHex_cons, noX] at h
  · rfl

/-- What `Data(ethHex:)` reads from digits without a prefix. -/
theorem ofEthHex_of_isHex {digits : List Char} (h : IsHex digits) :
    (ofEthHex digits).length = (digits.length + 1) / 2 ∧
      toNat (ofEthHex digits) = digitsValue digits := by
  have hzero : digitValue '0' = some 0 := by decide
  simp only [ofEthHex, dropHexPrefixes_of_isHex h]
  split
  · have hpadded : IsHex ('0' :: digits) := isHex_cons.mpr ⟨⟨0, hzero⟩, h⟩
    obtain ⟨data, hread, hlength, hvalue, -⟩ :=
      bytesOfDigits_of_isHex ('0' :: digits) hpadded (by simp; omega)
    rw [ofHex_of_isHex hpadded, hread, Option.getD_some, hvalue]
    simp only [List.length_cons] at hlength
    exact ⟨by omega, by simp [digitsValue, hzero]⟩
  · obtain ⟨data, hread, hlength, hvalue, -⟩ := bytesOfDigits_of_isHex digits h (by omega)
    rw [ofHex_of_isHex h, hread, Option.getD_some, hvalue]
    exact ⟨by omega, rfl⟩

/-- A leading `0x` is ignored. -/
@[simp]
theorem ofEthHex_prefixed (text : List Char) : ofEthHex ('0' :: 'x' :: text) = ofEthHex text := by
  simp [ofEthHex, dropHexPrefixes]

/-- The digits written for some bytes are read as those bytes. -/
@[simp]
theorem ofEthHex_toHexString (data : Data) : ofEthHex (toHexString data) = data := by
  have hhex := isHex_toHexString data
  simp only [ofEthHex, dropHexPrefixes_of_isHex hhex]
  rw [if_neg (by simp), ofHex_of_isHex hhex, bytesOfDigits_toHexString, Option.getD_some]

/-- A number written in base sixteen and read as bytes is that number, in the
fewest bytes. -/
theorem ofEthHex_toDigits (n : ℕ) :
    toNat (ofEthHex (Nat.toDigits 16 n)) = n ∧
      ∀ count, 0 < count → n < 256 ^ count →
        (ofEthHex (Nat.toDigits 16 n)).length ≤ count := by
  obtain ⟨hhex, hvalue⟩ := toDigits_sixteen n
  obtain ⟨hlength, hbytes⟩ := ofEthHex_of_isHex hhex
  refine ⟨hbytes.trans hvalue, fun count hpos hlt => ?_⟩
  have hdigits : (Nat.toDigits 16 n).length ≤ 2 * count :=
    Nat.toDigits_length 16 n (2 * count) (by omega) (by rw [pow_mul]; norm_num; exact hlt)
  omega

end Data

end SafeWallet
