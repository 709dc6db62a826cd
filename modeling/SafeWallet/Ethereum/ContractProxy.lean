/-
# Contract calls as byte strings

`EthereumContractProxy` builds and reads call data by hand: a four-byte method
identifier and 32-byte words. The encoder cuts numbers to their low 32 bytes,
the decoder reads what is there even when it is shorter than a word. The lemmas
say when a value that was written is read back.
-/

import SafeWallet.Ethereum.EthereumKit

namespace SafeWallet

namespace ContractProxy

/-- `selector.data(using: .ascii)!`. -/
def ascii (text : String) : Data := text.toList.map fun c => UInt8.ofNat c.toNat

/-- `method(_:)`: the first four bytes of the selector's hash. -/
def method (kit : EthereumKit) (selector : String) : Data :=
  (kit.hashSHA3_256 (ascii selector)).take 4

/-- `encodeUInt(_:)`. -/
def encodeUInt (value : ℕ) : Data :=
  Data.suffix 32 (Data.leftPadded 32 (Data.ofEthHex (Nat.toDigits 16 value)))

/-- `decodeUInt(_:)`: at most the first 32 bytes. -/
def decodeUInt (value : Data) : ℕ :=
  Data.toNat (if 32 < value.length then value.take 32 else value)

/-- `decodeAddress(_:)`. -/
def decodeAddress (value : Data) : Address := Address.ofUInt (decodeUInt value)

/-- `encodeAddress(_:)`. -/
def encodeAddress (value : Address) : Data := encodeUInt value.toUInt

/-- `encodeBytes(_:)`: the length and the bytes, completed to whole words. -/
def encodeBytes (value : Data) : Data :=
  let byteLength := if value.length % 32 = 0 then value.length
    else value.length + 32 - value.length % 32
  encodeUInt value.length ++ Data.rightPadded byteLength value

/-- `decodeBytes(_:)`. The length is converted to a machine integer. -/
def decodeBytes (value : Data) : Trapping Data := do
  let count ← Trapping.toInt (decodeUInt value)
  return (value.drop 32).take count

/-- `decodeString(_:)`. `Data.advanced(by:)` traps unless a byte is left. -/
def decodeString (value : Data) : Trapping (Option String) :=
  if 64 < value.length then do
    let offset ← Trapping.toInt (decodeUInt value)
    Trapping.require (offset < value.length)
    let bytes ← decodeBytes (value.drop offset)
    return String.fromUTF8? ⟨bytes.toArray⟩
  else
    return none

/-- `decodeTupleUInt(_:_:)`. The number of bytes is a machine integer. -/
def decodeTupleUInt (value : Data) (count : ℕ) : Trapping (List ℕ) := do
  let size ← Trapping.toInt (count * 32)
  if value.length < size then return []
  else return (List.range count).map fun i => decodeUInt ((value.drop (i * 32)).take 32)

/-- `decodeArrayUInt(_:)`. An array that is longer than announced is read as
empty; one that ends inside its length stops the program. -/
def decodeArrayUInt (value : Data) : Trapping (List ℕ) :=
  if value = [] then return []
  else
    let offset := decodeUInt value
    if offset < value.length then
      let data := value.drop offset
      let count := decodeUInt data
      if data.length ≤ (1 + count) * 32 then do
        Trapping.require (32 ≤ data.length)
        let count ← Trapping.toInt count
        decodeTupleUInt (data.drop 32) count
      else return []
    else return []

/-- `encodeTupleUInt(_:)`: the words have no tails. -/
def encodeTupleUInt (values : List ℕ) : Data := (values.map encodeUInt).flatten

/-- `encodeArrayUInt(_:)`. -/
def encodeArrayUInt (values : List ℕ) : Data :=
  encodeUInt 32 ++ encodeUInt values.length ++ encodeTupleUInt values

/-- `decodeArrayAddress(_:)`. -/
def decodeArrayAddress (value : Data) : Trapping (List Address) := do
  let values ← decodeArrayUInt value
  return values.map Address.ofUInt

/-- `invocation(_:args:)`. -/
def invocation (kit : EthereumKit) (selector : String) (args : List Data) : Data :=
  method kit selector ++ args.flatten

/-! ## Words -/

/-- A number is written as the 32 bytes of its low end. -/
theorem encodeUInt_spec (n : ℕ) :
    (encodeUInt n).length = 32 ∧ (encodeUInt n).toNat = n % 2 ^ 256 := by
  have hlength : 32 ≤ (Data.leftPadded 32 (Data.ofEthHex (Nat.toDigits 16 n))).length := by
    simp
  refine ⟨Data.length_suffix hlength, ?_⟩
  rw [encodeUInt, Data.toNat_suffix hlength, Data.toNat_leftPadded, (Data.ofEthHex_toDigits n).1]
  norm_num

@[simp]
theorem length_encodeUInt (n : ℕ) : (encodeUInt n).length = 32 := (encodeUInt_spec n).1

@[simp]
theorem length_encodeAddress (a : Address) : (encodeAddress a).length = 32 :=
  length_encodeUInt _

/-- The decoders cut off what follows the bytes they read. -/
theorem take_front {front : Data} {count : ℕ} (hlength : front.length = count) (rest : Data) :
    (if count < (front ++ rest).length then (front ++ rest).take count else front ++ rest) =
      front := by
  split
  · rw [← hlength, List.take_left]
  · rename_i hshort
    have hnil : rest = [] := by
      apply List.length_eq_zero_iff.mp
      rw [List.length_append] at hshort
      omega
    rw [hnil, List.append_nil]

/-- A word in front of any bytes is read as its number. -/
theorem decodeUInt_append {word : Data} (hlength : word.length = 32) (rest : Data) :
    decodeUInt (word ++ rest) = word.toNat := by
  rw [decodeUInt, take_front hlength]

/-- Reading back what `encodeUInt` wrote. -/
theorem decodeUInt_encodeUInt (n : ℕ) (rest : Data) :
    decodeUInt (encodeUInt n ++ rest) = n % 2 ^ 256 := by
  rw [decodeUInt_append (length_encodeUInt n), (encodeUInt_spec n).2]

/-- Reading back what `encodeAddress` wrote gives the address in lower case. -/
theorem decodeAddress_encodeAddress {a : Address} (h : a.WellFormed) (rest : Data) :
    decodeAddress (encodeAddress a ++ rest) = a.normalized := by
  have hlt := h.toUInt_lt
  rw [decodeAddress, encodeAddress, decodeUInt_encodeUInt,
    Nat.mod_eq_of_lt (hlt.trans (by norm_num)), h.normalized_eq_ofUInt]

/-- Decoded addresses are well formed and in lower case, whatever was read. -/
theorem decodeAddress_spec (value : Data) :
    (decodeAddress value).WellFormed ∧ (decodeAddress value).normalized = decodeAddress value :=
  Address.ofUInt_wellFormed _

/-! ## Arrays -/

@[simp]
theorem length_encodeTupleUInt (values : List ℕ) :
    (encodeTupleUInt values).length = values.length * 32 := by
  induction values with
  | nil => rfl
  | cons first rest ih =>
      rw [encodeTupleUInt] at ih ⊢
      simp only [List.map_cons, List.flatten_cons, List.length_append, length_encodeUInt, ih,
        List.length_cons]
      ring

/-- The words of a tuple are read back one by one. -/
theorem decodeWords_encodeTupleUInt (values : List ℕ) (hlt : ∀ n ∈ values, n < 2 ^ 256) :
    ((List.range values.length).map fun i =>
      decodeUInt (((encodeTupleUInt values).drop (i * 32)).take 32)) = values := by
  induction values with
  | nil => rfl
  | cons first rest ih =>
      have hrest : encodeTupleUInt (first :: rest) = encodeUInt first ++ encodeTupleUInt rest := rfl
      rw [List.length_cons, List.range_succ_eq_map, List.map_cons, List.map_map]
      refine congrArg₂ List.cons ?_ ?_
      · rw [hrest, Nat.zero_mul, List.drop_zero, List.take_append_of_le_length (by simp),
          List.take_of_length_le (by simp)]
        have := decodeUInt_encodeUInt first []
        rw [List.append_nil] at this
        rw [this, Nat.mod_eq_of_lt (hlt first List.mem_cons_self)]
      · refine Eq.trans ?_ (ih fun n hn => hlt n (List.mem_cons_of_mem _ hn))
        apply List.map_congr_left
        intro i _
        have hdrop : (encodeTupleUInt (first :: rest)).drop ((i + 1) * 32) =
            (encodeTupleUInt rest).drop (i * 32) := by
          rw [hrest, List.drop_append, length_encodeUInt, List.drop_of_length_le (by simp)]
          simp [show (i + 1) * 32 - 32 = i * 32 by omega]
        simp only [Function.comp_apply, Nat.succ_eq_add_one, hdrop]

/-- Reading back what `encodeArrayUInt` wrote, unless it is too long to be read at
all. -/
theorem decodeArrayUInt_encodeArrayUInt {values : List ℕ} (hlt : ∀ n ∈ values, n < 2 ^ 256)
    (hcount : values.length < 2 ^ 256) :
    decodeArrayUInt (encodeArrayUInt values) =
      if values.length * 32 < 2 ^ 63 then .ok values else .error .integerOverflow := by
  have hoffset : decodeUInt (encodeArrayUInt values) = 32 := by
    rw [encodeArrayUInt, List.append_assoc, decodeUInt_encodeUInt]
    norm_num
  have hdrop : (encodeArrayUInt values).drop 32 =
      encodeUInt values.length ++ encodeTupleUInt values := by
    rw [encodeArrayUInt, List.append_assoc, List.drop_left' (by simp)]
  have hnumber : decodeUInt (encodeUInt values.length ++ encodeTupleUInt values) =
      values.length := by
    rw [decodeUInt_encodeUInt, Nat.mod_eq_of_lt hcount]
  have hlength : (encodeArrayUInt values).length = 64 + values.length * 32 := by
    simp [encodeArrayUInt]
    ring
  have hne : encodeArrayUInt values ≠ [] := by
    intro h
    rw [h, List.length_nil] at hlength
    omega
  simp only [decodeArrayUInt, hne, ↓reduceIte, hoffset, hdrop, hnumber]
  rw [if_pos (by omega), if_pos (by simp; omega), List.drop_left' (by simp)]
  have hhead : 32 ≤ (encodeUInt values.length ++ encodeTupleUInt values).length := by simp
  simp only [hhead, decide_true, Trapping.require_true, Trapping.ok_bind, decodeTupleUInt, Trapping.toInt]
  by_cases hsmall : values.length * 32 < 2 ^ 63
  · have hint : values.length < 2 ^ 63 := by omega
    simp only [hint, hsmall, ↓reduceIte, Trapping.ok_bind, length_encodeTupleUInt, lt_irrefl,
      decodeWords_encodeTupleUInt values hlt, Trapping.pure_eq_ok]
  · by_cases hint : values.length < 2 ^ 63
    · simp only [hint, hsmall, ↓reduceIte, Trapping.ok_bind, Trapping.error_bind]
    · simp only [hint, hsmall, ↓reduceIte, Trapping.error_bind]

end ContractProxy

end SafeWallet
