/-
# Reading batches back

What `multiSend` writes, `decodeMultiSendArguments` reads: each layout reads one
call and stops exactly behind it, so a batch is read call by call. Addresses come
back in lower case, and lengths have to fit a machine integer.
-/

import SafeWallet.Ethereum.MultiSend

namespace SafeWallet

namespace ContractProxy

/-- Padding on the right adds zeros up to the length asked for. -/
theorem rightPadded_spec (count : ℕ) (value : Data) :
    ∃ zeros, Data.rightPadded count value = value ++ zeros ∧
      zeros.length = count - value.length := by
  unfold Data.rightPadded
  split
  · rename_i hlong
    exact ⟨[], by simp, by simp; omega⟩
  · exact ⟨_, rfl, by simp⟩

/-- Bytes are completed to whole words. -/
theorem encodeBytes_spec (value : Data) :
    ∃ zeros, encodeBytes value = encodeUInt value.length ++ (value ++ zeros) ∧
      value.length + zeros.length = (value.length + 31) / 32 * 32 := by
  obtain ⟨zeros, hzeros, hlength⟩ := rightPadded_spec (if value.length % 32 = 0 then value.length
    else value.length + 32 - value.length % 32) value
  refine ⟨zeros, by simp only [encodeBytes, hzeros], ?_⟩
  split at hlength <;> omega

/-- Reading back what `encodeBytes` wrote, whatever follows. -/
theorem decodeBytes_encodeBytes {value : Data} (h : value.length < 2 ^ 63) (rest : Data) :
    decodeBytes (encodeBytes value ++ rest) = .ok value := by
  obtain ⟨zeros, hbytes, -⟩ := encodeBytes_spec value
  have hcount : decodeUInt (encodeBytes value ++ rest) = value.length := by
    rw [hbytes, List.append_assoc, decodeUInt_encodeUInt, Nat.mod_eq_of_lt (by omega)]
  rw [decodeBytes, hcount, Trapping.toInt_of_lt h, Trapping.ok_bind, hbytes, List.append_assoc,
    List.drop_left' (length_encodeUInt _), List.append_assoc, List.take_left]
  rfl

theorem dvd_length_encodeBytes (value : Data) : 32 ∣ (encodeBytes value).length := by
  obtain ⟨zeros, hbytes, hlength⟩ := encodeBytes_spec value
  rw [hbytes, List.length_append, length_encodeUInt, List.length_append, hlength]
  exact ⟨1 + (value.length + 31) / 32, by ring⟩

/-- What the codecs are built from: numbers are written as one word and byte strings as whole
words, and both are read back whatever follows, a number up to the size of a word. The bytes of
a `Data` are counted by a machine integer. -/
theorem primitives_roundTrip :
    (∀ (n : ℕ) (rest : Data), (encodeUInt n).length = 32 ∧
      decodeUInt (encodeUInt n ++ rest) = n % 2 ^ 256) ∧
    ∀ value rest : Data, value.length < 2 ^ 63 →
      32 ∣ (encodeBytes value).length ∧ decodeBytes (encodeBytes value ++ rest) = .ok value :=
  ⟨fun n rest => ⟨length_encodeUInt n, decodeUInt_encodeUInt n rest⟩,
    fun value rest h => ⟨dvd_length_encodeBytes value, decodeBytes_encodeBytes h rest⟩⟩

theorem primitives_roundTrip_bytes :
    32 ∣ (encodeBytes [1, 2, 3]).length ∧
      decodeBytes (encodeBytes [1, 2, 3] ++ [9]) = .ok [1, 2, 3] :=
  primitives_roundTrip.2 [1, 2, 3] [9] (by norm_num)

end ContractProxy

namespace MultiSend

open ContractProxy

/-- The calls a batch can hold: twenty-byte addresses, values of one word, data of
a length the decoder can hold. -/
structure Encodable (transaction : MultiSendTransaction) : Prop where
  toAddress : transaction.toAddress.WellFormed
  nonneg : 0 ≤ transaction.value
  lt : transaction.value < 2 ^ 256
  length : transaction.data.length < 2 ^ 63

/-- The same call with its address in lower case. -/
def normalized (transaction : MultiSendTransaction) : MultiSendTransaction :=
  { transaction with toAddress := transaction.toAddress.normalized }

/-- A round reads a written call and stops behind it. -/
def Reads (round : Round) (encode : MultiSendTransaction → Data) : Prop :=
  ∀ transaction rest, Encodable transaction →
    round (encode transaction ++ rest) = .ok (some (normalized transaction, rest))

theorem ofRawValue_rawValue (operation : MultiSendOperation) :
    MultiSendOperation.ofRawValue operation.rawValue = some operation := by
  cases operation <;> rfl

theorem rawValue_lt (operation : MultiSendOperation) : operation.rawValue < 2 := by
  cases operation <;> decide

theorem roundV1_reads : Reads roundV1 encodeV1 := by
  intro transaction rest h
  have hoperation := rawValue_lt transaction.operation
  have hvalue : transaction.value.natAbs < 2 ^ 256 := by
    have := h.nonneg
    have := h.lt
    omega
  simp only [roundV1, encodeV1, List.append_assoc, decodeUInt_encodeUInt,
    Nat.mod_eq_of_lt (show transaction.operation.rawValue < 2 ^ 256 by omega),
    Trapping.removeFirst_append (length_encodeUInt _), Trapping.ok_bind,
    Trapping.toInt_of_lt (show transaction.operation.rawValue < 2 ^ 63 by omega),
    ofRawValue_rawValue, decodeAddress_encodeAddress h.toAddress,
    Trapping.removeFirst_append (length_encodeAddress _), Nat.mod_eq_of_lt hvalue,
    decodeBytes_encodeBytes h.length, Trapping.removeFirst_append rfl, Trapping.pure_eq_ok]
  rw [Int.natAbs_of_nonneg h.nonneg]
  rfl

/-- The packed layout writes an address as its twenty bytes. -/
theorem encodePackedAddress_of_wellFormed {a : Address} (h : a.WellFormed) :
    encodePackedAddress a = a.data := by
  have hlength := h.data_spec.1
  simp [encodePackedAddress, Data.suffix, Data.leftPadded, hlength]

theorem encodeUInt8_rawValue (operation : MultiSendOperation) :
    (encodeUInt8 operation.rawValue).length = 1 ∧
      (encodeUInt8 operation.rawValue).toNat = operation.rawValue := by
  cases operation <;> decide +kernel

theorem roundV2_reads : Reads roundV2 encodeV2 := by
  intro transaction rest h
  have hdata := h.toAddress.data_spec.1
  have hvalue : transaction.value.natAbs < 2 ^ 256 := by
    have := h.nonneg
    have := h.lt
    omega
  have hlength := h.length
  have hbyte : (encodeUInt8 transaction.operation.rawValue).length = 1 ∧
      (encodeUInt8 transaction.operation.rawValue).toNat = transaction.operation.rawValue :=
    encodeUInt8_rawValue _
  have haddress : ∀ bytes : Data, decodePackedAddress (encodePackedAddress transaction.toAddress ++
      bytes) = transaction.toAddress.normalized := by
    intro bytes
    rw [encodePackedAddress_of_wellFormed h.toAddress, h.toAddress.normalized_eq_ofUInt,
      decodePackedAddress, take_front hdata]
    rfl
  simp only [roundV2, encodeV2, List.append_assoc, take_front hbyte.1, hbyte.2, haddress,
    decodeUInt_encodeUInt, ofRawValue_rawValue, Trapping.ok_bind,
    Trapping.removeFirst_append hbyte.1,
    Trapping.removeFirst_append (show (encodePackedAddress transaction.toAddress).length = 20 by
      rw [encodePackedAddress_of_wellFormed h.toAddress, hdata]),
    Trapping.removeFirst_append (length_encodeUInt _), Nat.mod_eq_of_lt hvalue,
    Nat.mod_eq_of_lt (show transaction.data.length < 2 ^ 256 by omega),
    Trapping.toInt_of_lt hlength, Trapping.removeFirst_append rfl, List.take_left,
    Trapping.pure_eq_ok]
  rw [Int.natAbs_of_nonneg h.nonneg]
  rfl

/-- A batch is read call by call. -/
theorem decodeRounds_reads {round : Round} {encode : MultiSendTransaction → Data}
    (hreads : Reads round encode) (hencode : ∀ transaction, encode transaction ≠ [])
    (transactions : List MultiSendTransaction)
    (h : ∀ transaction ∈ transactions, Encodable transaction) (fuel : ℕ)
    (hfuel : (transactions.flatMap encode).length ≤ fuel) :
    decodeRounds round fuel (transactions.flatMap encode) =
      .ok (some (transactions.map normalized)) := by
  induction transactions generalizing fuel with
  | nil => cases fuel <;> rfl
  | cons first rest ih =>
      have hfirst := hreads first (rest.flatMap encode) (h first List.mem_cons_self)
      obtain ⟨byte, bytes, hbytes⟩ := List.exists_cons_of_ne_nil (hencode first)
      rw [List.flatMap_cons, hbytes] at hfuel ⊢
      rw [hbytes] at hfirst
      cases fuel with
      | zero => simp at hfuel
      | succ fuel =>
          have hrest := ih (fun t ht => h t (List.mem_cons_of_mem _ ht)) fuel (by
            simp only [List.length_append, List.length_cons] at hfuel
            omega)
          rw [List.cons_append] at hfirst ⊢
          simp only [decodeRounds, hfirst, Trapping.ok_bind, hrest, Trapping.pure_eq_ok,
            List.map_cons]

theorem decodeArguments_encodeArguments {round : Round} {encode : MultiSendTransaction → Data}
    (hreads : Reads round encode) (hencode : ∀ transaction, encode transaction ≠ [])
    (kit : EthereumKit) {transactions : List MultiSendTransaction}
    (h : ∀ transaction ∈ transactions, Encodable transaction)
    (hlength : (transactions.flatMap encode).length < 2 ^ 63) :
    decodeArguments round kit (encodeArguments encode kit transactions) =
      .ok (some (transactions.map normalized)) := by
  have hdata : encodeArguments encode kit transactions = method kit multiSendSignature ++
      (encodeUInt 32 ++ encodeBytes (transactions.flatMap encode)) := by
    simp [encodeArguments, invocation]
  have hbytes := decodeBytes_encodeBytes hlength []
  rw [List.append_nil] at hbytes
  have hprefix : (method kit multiSendSignature).isPrefixOf
      (encodeArguments encode kit transactions) = true := by
    rw [List.isPrefixOf_iff_prefix, hdata]
    exact List.prefix_append _ _
  simp only [decodeArguments, hprefix, ↓reduceIte]
  rw [hdata, Trapping.removeFirst_append rfl, Trapping.ok_bind,
    Trapping.removeFirst_append (length_encodeUInt _), Trapping.ok_bind, hbytes, Trapping.ok_bind]
  exact decodeRounds_reads hreads hencode transactions h _ le_rfl

/-- The bytes a layout takes for a call beyond its data. -/
def Compact (encode : MultiSendTransaction → Data) : Prop :=
  ∀ transaction, encode transaction ≠ [] ∧
    transaction.data.length ≤ (encode transaction).length ∧
    (encode transaction).length ≤ 256 + transaction.data.length

theorem encodeV1_compact : Compact encodeV1 := by
  intro transaction
  obtain ⟨zeros, hbytes, hlength⟩ := encodeBytes_spec transaction.data
  have htotal : (encodeV1 transaction).length = 160 + (transaction.data.length + zeros.length) := by
    simp only [encodeV1, hbytes, List.length_append, length_encodeUInt, length_encodeAddress]
    omega
  exact ⟨List.ne_nil_of_length_pos (by omega), by omega, by omega⟩

theorem encodeV2_compact : Compact encodeV2 := by
  intro transaction
  have hbyte := (encodeUInt8_rawValue transaction.operation).1
  have haddress : (encodePackedAddress transaction.toAddress).length = 20 :=
    Data.length_suffix (by simp)
  have htotal : (encodeV2 transaction).length = 85 + transaction.data.length := by
    simp only [encodeV2, List.length_append, length_encodeUInt, hbyte, haddress]
  exact ⟨List.ne_nil_of_length_pos (by omega), by omega, by omega⟩

theorem Compact.length_flatMap_le {encode : MultiSendTransaction → Data} (h : Compact encode)
    (transactions : List MultiSendTransaction) :
    (transactions.flatMap encode).length ≤
      (transactions.map fun t => 256 + t.data.length).sum := by
  induction transactions with
  | nil => simp
  | cons first rest ih =>
      rw [List.flatMap_cons, List.length_append, List.map_cons, List.sum_cons]
      exact Nat.add_le_add (h first).2.2 ih

/-- A batch that a byte string can hold has calls with data it can hold. -/
theorem Compact.encodable {encode : MultiSendTransaction → Data} (h : Compact encode)
    {kit : EthereumKit} {transactions : List MultiSendTransaction}
    (hvalues : ∀ t ∈ transactions, t.toAddress.WellFormed ∧ 0 ≤ t.value ∧ t.value < 2 ^ 256)
    (hfits : (encodeArguments encode kit transactions).length < 2 ^ 63) :
    (transactions.flatMap encode).length < 2 ^ 63 ∧ ∀ t ∈ transactions, Encodable t := by
  obtain ⟨zeros, hbytes, -⟩ := encodeBytes_spec (transactions.flatMap encode)
  have htotal : (transactions.flatMap encode).length < 2 ^ 63 := by
    simp only [encodeArguments, invocation, hbytes, List.flatten_cons, List.flatten_nil,
      List.length_append] at hfits
    omega
  refine ⟨htotal, fun t ht => ?_⟩
  obtain ⟨haddress, hnonneg, hlt⟩ := hvalues t ht
  have hpart : (encode t).length ≤ (transactions.flatMap encode).length :=
    (List.sublist_flatten_of_mem (List.mem_map_of_mem ht)).length_le
  have hdata := (h t).2.1
  exact ⟨haddress, hnonneg, hlt, by omega⟩

/-- Reading back what either layout wrote. A byte string counts its bytes in a
machine integer, so a batch that can be written at all is shorter than `2 ^ 63`. -/
theorem decode_multiSend_both (kit : EthereumKit) (transactions : List MultiSendTransaction)
    (hvalues : ∀ t ∈ transactions, t.toAddress.WellFormed ∧ 0 ≤ t.value ∧ t.value < 2 ^ 256) :
    ((multiSendV1 kit transactions).length < 2 ^ 63 →
      decodeMultiSendArgumentsV1 kit (multiSendV1 kit transactions) =
        .ok (some (transactions.map normalized))) ∧
    ((multiSendV2 kit transactions).length < 2 ^ 63 →
      decodeMultiSendArgumentsV2 kit (multiSendV2 kit transactions) =
        .ok (some (transactions.map normalized))) := by
  constructor
  · intro hfits
    obtain ⟨hlength, hencodable⟩ := encodeV1_compact.encodable hvalues hfits
    exact decodeArguments_encodeArguments roundV1_reads (fun t => (encodeV1_compact t).1) kit
      hencodable hlength
  · intro hfits
    obtain ⟨hlength, hencodable⟩ := encodeV2_compact.encodable hvalues hfits
    exact decodeArguments_encodeArguments roundV2_reads (fun t => (encodeV2_compact t).1) kit
      hencodable hlength

/-- The library's hash of the selector `multiSend(bytes)`. -/
def batchKit : EthereumKit := .ofRecording
  ⟨[(ascii multiSendSignature, Data.ofEthHex
    "0x8d80ff0a19eeb79604f91006b003a79847afc54b18a8fde61bb59e08da5da9cf".toList)], [], [], []⟩

/-- A payment and a call with data, to one address in two spellings. -/
def mixedBatch : List MultiSendTransaction :=
  [⟨.call, ⟨"0x5aAeb6053F3E94C9b9A09f33669435E7Ef1BeAed"⟩, 1, []⟩,
    ⟨.delegateCall, ⟨"0x5AAEB6053F3E94C9B9A09F33669435E7EF1BEAED"⟩, 2 ^ 256 - 1, [1, 2, 3]⟩]

theorem mixedBatch_decoded :
    decodeMultiSendArgumentsV1 batchKit (multiSendV1 batchKit mixedBatch) =
      .ok (some (mixedBatch.map normalized)) ∧
    decodeMultiSendArgumentsV2 batchKit (multiSendV2 batchKit mixedBatch) =
      .ok (some (mixedBatch.map normalized)) := by
  have hvalues : ∀ t ∈ mixedBatch,
      t.toAddress.WellFormed ∧ 0 ≤ t.value ∧ t.value < 2 ^ 256 := by decide +kernel
  obtain ⟨hV1, hV2⟩ := decode_multiSend_both batchKit mixedBatch hvalues
  exact ⟨hV1 (by decide +kernel), hV2 (by decide +kernel)⟩

/-- A batch for a contract is read back with the layout of that contract, in
whatever spelling its address is given. -/
theorem decodeMultiSendArguments_multiSend (kit : EthereumKit) (current : Address)
    (known : List MultiSendMetadata) {contract contract' : Address}
    (hcontract : contract.Respelled contract') {transactions : List MultiSendTransaction}
    (h : ∀ transaction ∈ transactions, Encodable transaction)
    (hlength : (transactions.map fun t => 256 + t.data.length).sum < 2 ^ 63) :
    decodeMultiSendArguments kit current known contract'
        (multiSend kit current known contract transactions) =
      .ok (some (transactions.map normalized)) := by
  rw [decodeMultiSendArguments_congr hcontract]
  have hV1 : (transactions.flatMap encodeV1).length < 2 ^ 63 :=
    lt_of_le_of_lt (encodeV1_compact.length_flatMap_le transactions) hlength
  have hV2 : (transactions.flatMap encodeV2).length < 2 ^ 63 :=
    lt_of_le_of_lt (encodeV2_compact.length_flatMap_le transactions) hlength
  simp only [decodeMultiSendArguments, multiSend]
  generalize (known.find? fun c => c.address.normalized =
    (if contract = Address.zero then current else contract).normalized).map
      MultiSendMetadata.version = version
  by_cases hversion : version = some 1
  · rw [implementation, if_pos hversion, if_pos hversion]
    exact decodeArguments_encodeArguments roundV1_reads (fun t => (encodeV1_compact t).1) kit h hV1
  · rw [implementation, if_neg hversion, if_neg hversion]
    exact decodeArguments_encodeArguments roundV2_reads (fun t => (encodeV2_compact t).1) kit h hV2

end MultiSend

end SafeWallet
