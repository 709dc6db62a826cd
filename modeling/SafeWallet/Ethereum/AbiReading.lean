/-
# What the decoders make of arbitrary bytes

Return values and call data come from contracts, dApps and servers, so the decoders
meet every byte string. Four of them are compared here with the rules of the ABI:
an address is the low end of its word, an array or a text stands at its offset
whatever follows it, and a transfer is a selector with two words.

The decoder of addresses cuts a number at its low end, the decoder of arrays rejects
what is longer than announced instead of what is shorter, the decoder of texts follows
its offset without looking where it leads, and the recogniser of transfers removes its
words before it looks at the length. For each of them the bytes on which it follows
the rules are described exactly.
-/

import SafeWallet.Ethereum.MultiSendCodec
import SafeWallet.Ethereum.Token

namespace SafeWallet

namespace Data

/-- Leading zeros do not count. -/
theorem toNat_dropWhile_zero (data : Data) : toNat (data.dropWhile (· = 0)) = toNat data := by
  induction data with
  | nil => rfl
  | cons byte rest ih =>
      by_cases hzero : byte = 0
      · rw [List.dropWhile_cons_of_pos (by simpa using hzero), ih, hzero]
        simp [toNat]
      · rw [List.dropWhile_cons_of_neg (by simpa using hzero)]

/-- Bytes without a leading zero are as few as possible. -/
theorem length_le_of_toNat_lt {data : Data} {count : ℕ} (hlt : toNat data < 256 ^ count) :
    (data.dropWhile (· = 0)).length ≤ count := by
  rw [← toNat_dropWhile_zero] at hlt
  cases hbytes : data.dropWhile (· = 0) with
  | nil => simp
  | cons byte rest =>
      have hbyte : byte ≠ 0 := by
        have hhead := List.head?_dropWhile_not (fun byte : UInt8 => decide (byte = 0)) data
        simpa [hbytes] using hhead
      have hpos : 0 < byte.toNat := Nat.pos_of_ne_zero fun h => hbyte (UInt8.toNat_inj.mp h)
      rw [hbytes, toNat] at hlt
      have hle : 256 ^ rest.length ≤ byte.toNat * 256 ^ rest.length :=
        Nat.le_mul_of_pos_left _ hpos
      have : 256 ^ rest.length < 256 ^ count := by omega
      exact (Nat.pow_lt_pow_iff_right (by norm_num)).mp this

/-- A number that is not zero is written with the bytes that have no leading zero. -/
theorem ofEthHex_toDigits_toNat {data : Data} (hpos : toNat data ≠ 0) :
    ofEthHex (Nat.toDigits 16 (toNat data)) = data.dropWhile (· = 0) := by
  obtain ⟨hvalue, hshort⟩ := ofEthHex_toDigits (toNat data)
  have hlong := length_le_of_toNat_lt (hvalue ▸ toNat_lt (ofEthHex (Nat.toDigits 16 (toNat data))))
  have hne : data.dropWhile (· = 0) ≠ [] := by
    intro hnil
    rw [← toNat_dropWhile_zero, hnil] at hpos
    exact hpos rfl
  have hlt := toNat_lt (data.dropWhile (· = 0))
  rw [toNat_dropWhile_zero] at hlt
  apply eq_of_toNat_eq
  · exact le_antisymm (hshort _ (List.length_pos_iff.mpr hne) hlt) hlong
  · rw [hvalue, toNat_dropWhile_zero]

theorem toHexString_injective {first second : Data} (h : toHexString first = toHexString second) :
    first = second := by
  have hread := congrArg bytesOfDigits h
  rw [bytesOfDigits_toHexString, bytesOfDigits_toHexString] at hread
  exact Option.some.inj hread

end Data

namespace ContractProxy

/-! ## Address words -/

/-- The address that the machine reads in a word: its last twenty bytes. -/
def evmAddress (word : Data) : Address :=
  ⟨String.ofList ('0' :: 'x' :: Data.toHexString (word.drop 12))⟩

/-- The upper bytes of the word are zero, or the word repeats itself so that the twenty bytes
from its first byte that is not zero on are also the last ones. -/
def ReadableAddress (word : Data) : Prop :=
  word.take 12 = List.replicate 12 0 ∨ (word.dropWhile (· = 0)).take 20 = word.drop 12

instance (word : Data) : Decidable (ReadableAddress word) :=
  inferInstanceAs (Decidable (_ ∨ _))

theorem ofUInt_eq_evmAddress_iff {n : ℕ} {word : Data} :
    Address.ofUInt n = evmAddress word ↔
      Data.leftPadded 20 (Data.endTruncated 20 (Data.ofEthHex (Nat.toDigits 16 n))) =
        word.drop 12 := by
  constructor
  · intro h
    have htext := congrArg (fun a : Address => a.value.toList.drop 2) h
    simp only [Address.ofUInt, evmAddress, String.toList_ofList, List.drop_succ_cons,
      List.drop_zero] at htext
    exact Data.toHexString_injective htext
  · intro h
    rw [Address.ofUInt, evmAddress, h]

/-- A word is read as the machine reads it exactly when its low end is not cut off. -/
theorem decodeAddress_eq_evmAddress_iff {word : Data} (hlength : word.length = 32) :
    decodeAddress word = evmAddress word ↔ ReadableAddress word := by
  have hread : decodeUInt word = Data.toNat word := by simp [decodeUInt, hlength]
  have hsplit := Data.toNat_append (word.take 12) (word.drop 12)
  rw [List.take_append_drop] at hsplit
  have hlow : (word.drop 12).length = 20 := by simp [hlength]
  rw [decodeAddress, hread, ofUInt_eq_evmAddress_iff]
  by_cases hzero : word.take 12 = List.replicate 12 0
  · -- the number has at most twenty bytes
    rw [hzero, Data.toNat_replicate_zero, Nat.zero_mul, Nat.zero_add] at hsplit
    have hlt := Data.toNat_lt (word.drop 12)
    rw [hlow, ← hsplit] at hlt
    obtain ⟨hvalue, hshort⟩ := Data.ofEthHex_toDigits (Data.toNat word)
    have hshort := hshort 20 (by norm_num) hlt
    rw [Data.endTruncated, if_neg (Nat.not_lt.mpr hshort)]
    refine iff_of_true ?_ (.inl hzero)
    apply Data.eq_of_toNat_eq
    · rw [Data.length_leftPadded, hlow]
      exact max_eq_left hshort
    · rw [Data.toNat_leftPadded, hvalue, hsplit]
  · -- the number has more than twenty bytes, of which the first ones are kept
    have hhigh : Data.toNat (word.take 12) ≠ 0 := by
      intro hnone
      apply hzero
      apply Data.eq_of_toNat_eq
      · simp [hlength]
      · rw [hnone, Data.toNat_replicate_zero]
    have hge : 256 ^ 20 ≤ Data.toNat word := by
      rw [hsplit, hlow]
      exact (Nat.le_mul_of_pos_left _ (Nat.pos_of_ne_zero hhigh)).trans (Nat.le_add_right _ _)
    have hpos : Data.toNat word ≠ 0 := (lt_of_lt_of_le (by positivity) hge).ne'
    rw [Data.ofEthHex_toDigits_toNat hpos]
    have hlong : 20 < (word.dropWhile (· = 0)).length := by
      by_contra hshort
      have hlt := Data.toNat_lt (word.dropWhile (· = 0))
      rw [Data.toNat_dropWhile_zero] at hlt
      have hpow := Nat.pow_le_pow_right (n := 256) (by norm_num) (Nat.not_lt.mp hshort)
      exact absurd (hlt.trans_le (hpow.trans hge)) (lt_irrefl _)
    have htake : ((word.dropWhile (· = 0)).take 20).length = 20 := by
      rw [List.length_take]
      omega
    rw [Data.endTruncated, if_pos hlong, Data.leftPadded, if_pos htake.ge, ReadableAddress]
    exact (or_iff_right hzero).symm

/-- Addresses are read back in lower case, and a word is read as the machine reads it exactly
when its upper bytes are zero or repeat the lower ones. -/
theorem decodeAddress_evm_iff (word : Data) (a : Address) :
    (word.length = 32 → (decodeAddress word = evmAddress word ↔ ReadableAddress word)) ∧
    (a.WellFormed → decodeAddress (encodeAddress a) = a.normalized) := by
  refine ⟨decodeAddress_eq_evmAddress_iff, fun ha => ?_⟩
  have h := decodeAddress_encodeAddress ha []
  rwa [List.append_nil] at h

/-- An address in its word. -/
def addressWord : Data :=
  List.replicate 12 0 ++ EthereumKit.bytes 20 0x5aaeb6053f3e94c9b9a09f33669435e7ef1beaed

theorem decodeAddress_evm_iff_checksummed :
    decodeAddress (encodeAddress ⟨"0x5aAeb6053F3E94C9b9A09f33669435E7Ef1BeAed"⟩) =
      Address.normalized ⟨"0x5aAeb6053F3E94C9b9A09f33669435E7Ef1BeAed"⟩ ∧
      decodeAddress addressWord = evmAddress addressWord := by
  obtain ⟨hword, hback⟩ := decodeAddress_evm_iff addressWord
    ⟨"0x5aAeb6053F3E94C9b9A09f33669435E7Ef1BeAed"⟩
  exact ⟨hback (by decide +kernel), (hword (by decide)).mpr (by decide)⟩

/-- A word with one byte set far above the address. -/
def dirtyWord : Data := 1 :: List.replicate 31 0

/-- It is read as an address that is not zero, while the machine sees the zero address. -/
theorem dirtyWord_not_evmAddress :
    dirtyWord.length = 32 ∧ decodeAddress dirtyWord ≠ evmAddress dirtyWord := by
  have hlength : dirtyWord.length = 32 := rfl
  refine ⟨hlength, ?_⟩
  rw [Ne, decodeAddress_eq_evmAddress_iff hlength]
  decide

/-! ## Arrays -/

/-- The word of a number that fits is the only word with that number. -/
theorem encodeUInt_toNat {word : Data} (hlength : word.length = 32) :
    encodeUInt (Data.toNat word) = word := by
  have hlt := Data.toNat_lt word
  rw [hlength] at hlt
  obtain ⟨hword, hvalue⟩ := encodeUInt_spec (Data.toNat word)
  apply Data.eq_of_toNat_eq
  · rw [hword, hlength]
  · rw [hvalue, Nat.mod_eq_of_lt (hlt.trans_eq (by norm_num))]

/-- The numbers of the words at the start of the bytes. -/
def words (count : ℕ) (bytes : Data) : List ℕ :=
  (List.range count).map fun i => decodeUInt ((bytes.drop (i * 32)).take 32)

theorem length_words (count : ℕ) (bytes : Data) : (words count bytes).length = count := by
  simp [words]

theorem words_lt {count n : ℕ} {bytes : Data} (hmem : n ∈ words count bytes) : n < 2 ^ 256 := by
  obtain ⟨i, -, rfl⟩ := List.mem_map.mp hmem
  have hlength : ((bytes.drop (i * 32)).take 32).length ≤ 32 := List.length_take_le _ _
  rw [decodeUInt, if_neg (Nat.not_lt.mpr hlength)]
  calc Data.toNat ((bytes.drop (i * 32)).take 32)
      < 256 ^ ((bytes.drop (i * 32)).take 32).length := Data.toNat_lt _
    _ ≤ 256 ^ 32 := Nat.pow_le_pow_right (by norm_num) hlength
    _ = 2 ^ 256 := by norm_num

/-- Bytes that reach far enough start with the words of their numbers. -/
theorem encodeTupleUInt_words {count : ℕ} {bytes : Data} (hlength : count * 32 ≤ bytes.length) :
    encodeTupleUInt (words count bytes) = bytes.take (count * 32) := by
  induction count with
  | zero => rfl
  | succ count ih =>
      have hword : ((bytes.drop (count * 32)).take 32).length = 32 := by
        rw [List.length_take, List.length_drop]
        omega
      have hlast : words (count + 1) bytes =
          words count bytes ++ [Data.toNat ((bytes.drop (count * 32)).take 32)] := by
        rw [words, List.range_succ, List.map_append, List.map_singleton, decodeUInt,
          if_neg hword.not_gt, words]
      have hsplit : encodeTupleUInt (words count bytes ++
          [Data.toNat ((bytes.drop (count * 32)).take 32)]) =
            encodeTupleUInt (words count bytes) ++ (bytes.drop (count * 32)).take 32 := by
        simp [encodeTupleUInt, encodeUInt_toNat hword]
      rw [hlast, hsplit, ih (by omega), ← List.take_add, Nat.succ_mul]

/-- What follows the words does not change them. -/
theorem words_append {count : ℕ} {bytes : Data} (hlength : count * 32 ≤ bytes.length)
    (trailing : Data) : words count (bytes ++ trailing) = words count bytes := by
  apply List.map_congr_left
  intro i hi
  have hi : i < count := List.mem_range.mp hi
  rw [List.drop_append_of_le_length (by omega),
    List.take_append_of_le_length (by rw [List.length_drop]; omega)]

theorem words_encodeTupleUInt {values : List ℕ} (hlt : ∀ n ∈ values, n < 2 ^ 256)
    (trailing : Data) : words values.length (encodeTupleUInt values ++ trailing) = values := by
  rw [words_append (length_encodeTupleUInt values).ge]
  exact decodeWords_encodeTupleUInt values hlt

/-- The bytes are an encoding of the list: the length and the items stand at the offset that
the first word names, and anything may follow them. -/
def IsArrayEncoding (values : List ℕ) (value : Data) : Prop :=
  values.length < 2 ^ 256 ∧ (∀ n ∈ values, n < 2 ^ 256) ∧
    ∃ trailing, value.drop (decodeUInt value) =
      encodeUInt values.length ++ encodeTupleUInt values ++ trailing

/-- The bytes from the offset on. -/
def arrayData (value : Data) : Data := value.drop (decodeUInt value)

/-- A word for the length and as many words as it says are there. -/
def HoldsArray (data : Data) : Prop := 32 ≤ data.length ∧ (1 + decodeUInt data) * 32 ≤ data.length

instance (data : Data) : Decidable (HoldsArray data) := inferInstanceAs (Decidable (_ ∧ _))

/-- An encoding determines its list. -/
theorem isArrayEncoding_iff {values : List ℕ} {value : Data} :
    IsArrayEncoding values value ↔
      HoldsArray (arrayData value) ∧
        values = words (decodeUInt (arrayData value)) ((arrayData value).drop 32) := by
  rw [IsArrayEncoding, ← arrayData, HoldsArray]
  generalize arrayData value = data
  constructor
  · intro h
    obtain ⟨hcount, hlt, trailing, hdata⟩ := h
    have hnumber : decodeUInt data = values.length := by
      rw [hdata, List.append_assoc, decodeUInt_encodeUInt, Nat.mod_eq_of_lt hcount]
    have hlength : data.length = 32 + values.length * 32 + trailing.length := by
      simp [hdata, Nat.add_assoc]
    have hitems : data.drop 32 = encodeTupleUInt values ++ trailing := by
      rw [hdata, List.append_assoc, List.drop_left' (length_encodeUInt _)]
    rw [hnumber, hitems, words_encodeTupleUInt hlt]
    exact ⟨by omega, rfl⟩
  · intro h
    obtain ⟨⟨hword, hlong⟩, rfl⟩ := h
    have htake : (data.take 32).length = 32 := by
      rw [List.length_take]
      omega
    have hnumber : decodeUInt data = Data.toNat (data.take 32) := by
      rw [← decodeUInt_append htake (data.drop 32), List.take_append_drop]
    refine ⟨?_, fun n hn => words_lt hn, data.drop (32 + decodeUInt data * 32), ?_⟩
    · have hlt := Data.toNat_lt (data.take 32)
      rw [htake] at hlt
      rw [length_words, hnumber]
      exact hlt.trans_eq (by norm_num)
    · rw [length_words, encodeTupleUInt_words (by rw [List.length_drop]; omega), hnumber,
        encodeUInt_toNat htake, List.append_assoc, ← List.drop_drop, List.take_append_drop,
        List.take_append_drop]

/-- What the decoder makes of the items, the number of which is a machine integer. -/
theorem decodeTupleUInt_eq (value : Data) (count : ℕ) :
    (do let count ← Trapping.toInt count; decodeTupleUInt value count) =
      if 2 ^ 63 ≤ count * 32 then .error .integerOverflow
      else .ok (if value.length < count * 32 then [] else words count value) := by
  simp only [decodeTupleUInt, Trapping.toInt]
  by_cases hfits : 2 ^ 63 ≤ count * 32
  · rw [if_pos hfits]
    by_cases hcount : count < 2 ^ 63
    · simp only [hcount, Nat.not_lt.mpr hfits, ↓reduceIte, Trapping.ok_bind, Trapping.error_bind]
    · simp only [hcount, ↓reduceIte, Trapping.error_bind]
  · have hcount : count < 2 ^ 63 := by omega
    simp only [hcount, Nat.not_le.mp hfits, ↓reduceIte, Trapping.ok_bind, if_neg hfits]
    split <;> rfl

/-- What the decoder makes of the bytes at the offset. -/
theorem decodeArrayUInt_eq (value : Data) :
    decodeArrayUInt value =
      if arrayData value = [] then .ok []
      else if (1 + decodeUInt (arrayData value)) * 32 < (arrayData value).length then .ok []
      else if (arrayData value).length < 32 then .error .precondition
      else if 2 ^ 63 ≤ decodeUInt (arrayData value) * 32 then .error .integerOverflow
      else if HoldsArray (arrayData value) then
        .ok (words (decodeUInt (arrayData value)) ((arrayData value).drop 32))
      else .ok [] := by
  have hdata : arrayData value = value.drop (decodeUInt value) := rfl
  by_cases hnil : arrayData value = []
  · have hend : ¬ decodeUInt value < value.length := by
      rw [hdata, List.drop_eq_nil_iff] at hnil
      exact Nat.not_lt.mpr hnil
    simp [decodeArrayUInt, hnil, hend]
  · have hoffset : decodeUInt value < value.length := by
      rw [hdata, List.drop_eq_nil_iff] at hnil
      exact Nat.not_le.mp hnil
    have hvalue : value ≠ [] := by
      intro h
      rw [h] at hoffset
      exact Nat.not_lt_zero _ hoffset
    rw [decodeArrayUInt, if_neg hvalue, if_neg hnil]
    simp only [← hdata, if_pos hoffset]
    generalize arrayData value = data at hnil
    by_cases hlong : (1 + decodeUInt data) * 32 < data.length
    · rw [if_neg (Nat.not_le.mpr hlong), if_pos hlong]
      rfl
    · rw [if_pos (Nat.not_lt.mp hlong), if_neg hlong]
      by_cases hword : data.length < 32
      · simp [if_pos hword, Nat.not_le.mpr hword]
      · simp only [if_neg hword, Nat.not_lt.mp hword, decide_true, Trapping.require_true,
          Trapping.ok_bind, decodeTupleUInt_eq, List.length_drop]
        by_cases hitems : data.length - 32 < decodeUInt data * 32
        · have hholds : ¬ HoldsArray data := by
            rw [HoldsArray]
            omega
          rw [if_pos hitems, if_neg hholds]
        · have hholds : HoldsArray data := by
            rw [HoldsArray]
            omega
          rw [if_neg hitems, if_pos hholds]

/-- The rule for every byte string: the list of an encoding is returned, and anything else is
read as empty. -/
def DecodesArray (value : Data) : Prop :=
  (∀ values, IsArrayEncoding values value → decodeArrayUInt value = .ok values) ∧
    ((∀ values, ¬ IsArrayEncoding values value) →
      decodeArrayUInt value = .ok [] ∧ decodeArrayAddress value = .ok [])

/-- No bytes at the offset, or a whole word for the length there: followed by all the bytes of
an array that can be addressed or by too few, or announcing no items. -/
def DecodableArray (value : Data) : Prop :=
  arrayData value = [] ∨
    32 ≤ (arrayData value).length ∧
      ((arrayData value).length ≤ (1 + decodeUInt (arrayData value)) * 32 ∧
          decodeUInt (arrayData value) * 32 < 2 ^ 63 ∨
        decodeUInt (arrayData value) = 0)

instance (value : Data) : Decidable (DecodableArray value) :=
  inferInstanceAs (Decidable (_ ∨ _))

/-- The list the rule asks for. -/
def abiArray (value : Data) : List ℕ :=
  if HoldsArray (arrayData value) then
    words (decodeUInt (arrayData value)) ((arrayData value).drop 32)
  else []

theorem decodesArray_iff_eq (value : Data) :
    DecodesArray value ↔ decodeArrayUInt value = .ok (abiArray value) := by
  rw [DecodesArray, abiArray]
  simp only [isArrayEncoding_iff]
  by_cases hholds : HoldsArray (arrayData value)
  · simp [hholds]
  · simp only [hholds, false_and, false_implies, implies_true, not_false_eq_true, true_and,
      forall_true_left, ↓reduceIte, and_iff_left_iff_imp]
    intro hempty
    rw [decodeArrayAddress, hempty]
    rfl

theorem decodesArray_iff (value : Data) : DecodesArray value ↔ DecodableArray value := by
  rw [decodesArray_iff_eq, decodeArrayUInt_eq, abiArray, DecodableArray]
  generalize arrayData value = data
  by_cases hnil : data = []
  · simp [hnil, HoldsArray]
  · rw [if_neg hnil, or_iff_right hnil]
    by_cases hword : data.length < 32
    · -- the decoder stops inside the length
      have hshort : ¬ (1 + decodeUInt data) * 32 < data.length := by omega
      rw [if_neg hshort, if_pos hword]
      simp [Nat.not_le.mpr hword]
    · rw [and_iff_right (Nat.not_lt.mp hword), if_neg hword]
      by_cases hlong : (1 + decodeUInt data) * 32 < data.length
      · -- more bytes than announced are taken for no array at all
        have hholds : HoldsArray data := ⟨Nat.not_lt.mp hword, hlong.le⟩
        rw [if_pos hlong, if_pos hholds]
        have hwords : words (decodeUInt data) (data.drop 32) = [] ↔ decodeUInt data = 0 := by
          rw [← List.length_eq_zero_iff, length_words]
        simp only [Except.ok.injEq, Nat.not_le.mpr hlong, false_and, false_or]
        rw [eq_comm, hwords]
      · rw [if_neg hlong, and_iff_right (Nat.not_lt.mp hlong)]
        by_cases hfits : 2 ^ 63 ≤ decodeUInt data * 32
        · have hcount : decodeUInt data ≠ 0 := by omega
          rw [if_pos hfits, or_iff_left hcount]
          exact iff_of_false (by simp) (Nat.not_lt.mpr hfits)
        · have hgood : decodeUInt data * 32 < 2 ^ 63 := Nat.not_le.mp hfits
          rw [if_neg hfits]
          refine iff_of_true ?_ (.inl hgood)
          split <;> rfl

/-- Arrays are read back, and the bytes that are read as the ABI says are exactly those whose
array is neither cut off inside its length, nor too large to be addressed, nor followed by
anything unless it is empty. -/
theorem decodeArray_abi_iff (value : Data) (values : List ℕ) :
    (DecodesArray value ↔ DecodableArray value) ∧
    ((∀ n ∈ values, n < 2 ^ 256) → values.length * 32 < 2 ^ 63 →
      decodeArrayUInt (encodeArrayUInt values) = .ok values) := by
  refine ⟨decodesArray_iff value, fun hlt hfits => ?_⟩
  rw [decodeArrayUInt_encodeArrayUInt hlt (by omega), if_pos hfits]

theorem decodeArray_abi_iff_pair :
    decodeArrayUInt (encodeArrayUInt [7, 2 ^ 256 - 1]) = .ok [7, 2 ^ 256 - 1] := by
  have hlt : ∀ n ∈ [7, 2 ^ 256 - 1], n < 2 ^ 256 := by simp
  exact (decodeArray_abi_iff [] [7, 2 ^ 256 - 1]).2 hlt (by simp)

/-- The array of the single number seven, and one more byte. -/
def followedArray : Data :=
  List.replicate 31 0 ++ [32] ++ List.replicate 31 0 ++ [1] ++ List.replicate 31 0 ++ [7] ++ [0]

/-- It encodes the number and is read as the empty list. -/
theorem followedArray_lost :
    IsArrayEncoding [7] followedArray ∧ decodeArrayUInt followedArray = .ok [] ∧
      ¬ DecodesArray followedArray := by
  rw [isArrayEncoding_iff, decodeArrayUInt_eq, decodesArray_iff]
  decide

/-! ## Texts -/

/-- The bytes of a text. -/
def utf8 (text : String) : Data := text.toUTF8.data.toList

theorem fromUTF8?_utf8 (text : String) : String.fromUTF8? ⟨(utf8 text).toArray⟩ = some text := by
  have hbytes : (⟨(utf8 text).toArray⟩ : ByteArray) = text.toUTF8 := by simp [utf8]
  rw [hbytes, String.toUTF8_eq_toByteArray, String.fromUTF8?, dif_pos text.isValidUTF8]
  rfl

/-- The answer of `name()` or `symbol()`: an offset, a length and the bytes of the text. -/
def encodeString (text : String) : Data := encodeUInt 32 ++ encodeBytes (utf8 text)

/-- Too short to be looked at, or the first word is the place of a byte where a number starts
that a machine integer can hold. -/
def ReadableText (value : Data) : Prop :=
  value.length ≤ 64 ∨
    decodeUInt value < value.length ∧ decodeUInt value < 2 ^ 63 ∧
      decodeUInt (value.drop (decodeUInt value)) < 2 ^ 63

instance (value : Data) : Decidable (ReadableText value) := inferInstanceAs (Decidable (_ ∨ _))

theorem decodeBytes_eq_ok_iff {value bytes : Data} :
    decodeBytes value = .ok bytes ↔
      decodeUInt value < 2 ^ 63 ∧ bytes = (value.drop 32).take (decodeUInt value) := by
  rw [decodeBytes, Trapping.bind_eq_ok_iff]
  constructor
  · intro h
    obtain ⟨count, hcount, hbytes⟩ := h
    obtain ⟨hlt, rfl⟩ := Trapping.toInt_eq_ok_iff.mp hcount
    cases hbytes
    exact ⟨hlt, rfl⟩
  · intro h
    obtain ⟨hlt, rfl⟩ := h
    exact ⟨_, Trapping.toInt_of_lt hlt, rfl⟩

theorem decodeString_eq_ok_iff (value : Data) :
    (∃ text, decodeString value = .ok text) ↔ ReadableText value := by
  rw [ReadableText]
  by_cases hlong : 64 < value.length
  · rw [or_iff_right (Nat.not_le.mpr hlong), decodeString, if_pos hlong]
    constructor
    · intro h
      obtain ⟨text, h⟩ := h
      obtain ⟨offset, hoffset, h⟩ := Trapping.bind_eq_ok_iff.mp h
      obtain ⟨_, hinside, h⟩ := Trapping.bind_eq_ok_iff.mp h
      obtain ⟨bytes, hbytes, -⟩ := Trapping.bind_eq_ok_iff.mp h
      obtain ⟨hlt, rfl⟩ := Trapping.toInt_eq_ok_iff.mp hoffset
      rw [Trapping.require_eq_ok_iff, decide_eq_true_eq] at hinside
      exact ⟨hinside, hlt, (decodeBytes_eq_ok_iff.mp hbytes).1⟩
    · intro h
      obtain ⟨hinside, hlt, hcount⟩ := h
      simp only [Trapping.toInt_of_lt hlt, Trapping.ok_bind, hinside, decide_true,
        Trapping.require_true, decodeBytes_eq_ok_iff.mpr ⟨hcount, rfl⟩]
      exact ⟨_, rfl⟩
  · rw [decodeString, if_neg hlong]
    exact iff_of_true ⟨none, rfl⟩ (.inl (Nat.not_lt.mp hlong))

theorem decodeString_encodeString {text : String} (hne : text ≠ "")
    (hlength : (utf8 text).length < 2 ^ 63) :
    decodeString (encodeString text) = .ok (some text) := by
  have hpos : 0 < (utf8 text).length := by
    rw [utf8, Array.length_toList, ByteArray.size_data, String.toUTF8_eq_toByteArray,
      String.size_toByteArray]
    exact Nat.pos_of_ne_zero fun hzero => hne (String.utf8ByteSize_eq_zero_iff.mp hzero)
  obtain ⟨zeros, hbytes, -⟩ := encodeBytes_spec (utf8 text)
  have hlong : 64 < (encodeString text).length := by
    simp only [encodeString, hbytes, List.length_append, length_encodeUInt]
    omega
  have hoffset : decodeUInt (encodeString text) = 32 := by
    rw [encodeString, decodeUInt_encodeUInt]
    norm_num
  have hdrop : (encodeString text).drop 32 = encodeBytes (utf8 text) := by
    rw [encodeString, List.drop_left' (length_encodeUInt _)]
  have hread := decodeBytes_encodeBytes hlength []
  rw [List.append_nil] at hread
  have hinside : 32 < (encodeString text).length := by omega
  rw [decodeString, if_pos hlong, hoffset, Trapping.toInt_of_lt (by norm_num)]
  simp only [Trapping.ok_bind, hinside, decide_true, Trapping.require_true, hdrop, hread,
    fromUTF8?_utf8, Trapping.pure_eq_ok]

/-- A text is read without a trap exactly when its two words lead to bytes that are there, and
every text in the encoding of the ABI is read back. -/
theorem decodeString_safe_iff (value : Data) (text : String) :
    ((∃ result, decodeString value = .ok result) ↔ ReadableText value) ∧
    (text ≠ "" → (utf8 text).length < 2 ^ 63 →
      decodeString (encodeString text) = .ok (some text)) :=
  ⟨decodeString_eq_ok_iff value, decodeString_encodeString⟩

theorem decodeString_safe_iff_dai :
    decodeString (encodeString "DAI") = .ok (some "DAI") :=
  (decodeString_safe_iff [] "DAI").2 (by decide) (by decide)

/-- Three words with all their bits set. -/
def farOffset : Data := List.replicate 96 255

/-- The offset is no machine integer, and the program stops. -/
theorem farOffset_stops :
    decodeString farOffset = .error .integerOverflow ∧
      ¬ ∃ result, decodeString farOffset = .ok result := by
  rw [decodeString_eq_ok_iff]
  decide

end ContractProxy

namespace ERC20

open ContractProxy

/-! ## Transfers -/

/-- The rule for every byte string: the arguments of a call of `transfer` are returned, and
anything else is no transfer. -/
def RecognisesTransfer (kit : EthereumKit) (data : Data) : Prop :=
  (∀ recipient amount : Data, recipient.length = 32 → amount.length = 32 →
      data = method kit transferMethodSignature ++ recipient ++ amount →
      decodedTransfer kit data = .ok (some (decodeAddress recipient, (amount.toNat : ℤ)))) ∧
    ((∀ arguments : Data, arguments.length = 64 →
        data ≠ method kit transferMethodSignature ++ arguments) →
      decodedTransfer kit data = .ok none)

theorem isTransfer_iff {kit : EthereumKit} {data : Data} :
    IsTransfer kit data ↔
      ∃ arguments, arguments.length = 64 ∧ data = method kit transferMethodSignature ++ arguments := by
  rw [IsTransfer, HasTransferHead]
  constructor
  · intro h
    obtain ⟨hhead, hlength⟩ := h
    refine ⟨data.drop (method kit transferMethodSignature).length, ?_, ?_⟩
    · rw [List.length_drop]
      omega
    · nth_rewrite 1 [← hhead]
      exact (List.take_append_drop _ _).symm
  · intro h
    obtain ⟨arguments, hlength, rfl⟩ := h
    exact ⟨List.take_left, by rw [List.length_append, hlength]⟩

/-- The arguments of a call are its two words. -/
theorem transferArguments_append (kit : EthereumKit) {recipient amount : Data}
    (hrecipient : recipient.length = 32) (hamount : amount.length = 32) :
    transferArguments kit (method kit transferMethodSignature ++ recipient ++ amount) =
      (decodeAddress recipient, (amount.toNat : ℤ)) := by
  have hfirst : decodeAddress (recipient ++ amount) = decodeAddress recipient := by
    have h := decodeUInt_append hrecipient []
    rw [List.append_nil] at h
    rw [decodeAddress, decodeAddress, decodeUInt_append hrecipient, h]
  have hsecond : decodeUInt amount = amount.toNat := by
    rw [← decodeUInt_append hamount [], List.append_nil]
  simp only [transferArguments, List.append_assoc, List.drop_left, List.drop_left' hrecipient,
    hfirst, hsecond]

theorem recognisesTransfer_iff (kit : EthereumKit) (data : Data) :
    RecognisesTransfer kit data ↔ ¬ IsTruncatedTransfer kit data := by
  constructor
  · intro h htruncated
    have hnone := h.2 fun arguments hlength hdata =>
      (isTransfer_iff.mpr ⟨arguments, hlength, hdata⟩).not_isTruncatedTransfer htruncated
    rw [decodedTransfer_eq, if_pos htruncated] at hnone
    cases hnone
  · intro hcomplete
    rw [RecognisesTransfer, decodedTransfer_eq, if_neg hcomplete]
    constructor
    · intro recipient amount hrecipient hamount hdata
      have htransfer : IsTransfer kit data :=
        isTransfer_iff.mpr ⟨recipient ++ amount, by simp [hrecipient, hamount], by simp [hdata]⟩
      rw [if_pos htransfer, hdata, transferArguments_append kit hrecipient hamount]
    · intro hother
      have hnot : ¬ IsTransfer kit data := by
        intro htransfer
        obtain ⟨arguments, hlength, hdata⟩ := isTransfer_iff.mp htransfer
        exact hother arguments hlength hdata
      rw [if_neg hnot]

/-- A transfer is recognised as what it was built from. -/
theorem decodedTransfer_transfer (kit : EthereumKit) {recipient : Address} {amount : ℕ}
    (hrecipient : recipient.WellFormed) (hamount : amount < 2 ^ 256) :
    decodedTransfer kit (invocation kit transferMethodSignature
      [encodeAddress recipient, encodeUInt amount]) =
      .ok (some (recipient.normalized, (amount : ℤ))) := by
  have hdata : invocation kit transferMethodSignature
      [encodeAddress recipient, encodeUInt amount] =
        method kit transferMethodSignature ++ encodeAddress recipient ++ encodeUInt amount := by
    simp [invocation]
  have htransfer : IsTransfer kit (invocation kit transferMethodSignature
      [encodeAddress recipient, encodeUInt amount]) := by
    rw [isTransfer_iff, hdata]
    exact ⟨encodeAddress recipient ++ encodeUInt amount, by simp, by simp⟩
  have hread := decodeAddress_encodeAddress hrecipient []
  rw [List.append_nil] at hread
  rw [decodedTransfer_eq, if_neg htransfer.not_isTruncatedTransfer, if_pos htransfer, hdata,
    transferArguments_append kit (length_encodeAddress _) (length_encodeUInt _), hread,
    (encodeUInt_spec amount).2, Nat.mod_eq_of_lt hamount]

/-- Transfers are read back, and the bytes on which the recogniser does what the rule says are
exactly those that do not end inside the arguments of a transfer. -/
theorem decodedTransfer_recognises_iff (kit : EthereumKit) :
    (∀ data, RecognisesTransfer kit data ↔ ¬ IsTruncatedTransfer kit data) ∧
    ∀ (recipient : Address) (amount : ℤ), recipient.WellFormed → 0 ≤ amount → amount < 2 ^ 256 →
      (transfer kit recipient amount >>= decodedTransfer kit) =
        .ok (some (recipient.normalized, amount)) := by
  refine ⟨recognisesTransfer_iff kit, fun recipient amount hrecipient hpos hlt => ?_⟩
  obtain ⟨units, rfl⟩ := Int.eq_ofNat_of_zero_le hpos
  rw [transfer, if_pos hpos, Trapping.ok_bind, Int.toNat_natCast]
  exact decodedTransfer_transfer kit hrecipient (by exact_mod_cast hlt)

/-- The hash the selector of transfers is taken from. -/
def transferKit : EthereumKit := .ofRecording
  ⟨[(ascii transferMethodSignature, EthereumKit.bytes 32
      0xa9059cbb2ab09eb219583f4a59a5d0623ade346d962bcd4e46b11da047c9049b)], [], [], []⟩

theorem decodedTransfer_recognises_iff_zero :
    (transfer transferKit Address.zero 5 >>= decodedTransfer transferKit) =
      .ok (some (Address.zero.normalized, 5)) :=
  (decodedTransfer_recognises_iff transferKit).2 Address.zero 5 Address.not_hasLetters_zero.1
    (by norm_num) (by norm_num)

/-- The selector of transfers alone stops the program. -/
theorem transferSelector_not_recognised :
    decodedTransfer transferKit [0xa9, 0x05, 0x9c, 0xbb] = .error .removeFirst ∧
      ¬ RecognisesTransfer transferKit [0xa9, 0x05, 0x9c, 0xbb] := by
  rw [decodedTransfer_eq, recognisesTransfer_iff]
  decide

end ERC20

end SafeWallet
