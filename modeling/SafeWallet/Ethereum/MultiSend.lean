/-
# Batches of calls

A MultiSend contract executes a list of calls packed into one byte string. Two
layouts are in use: version 1 pads every field to words, version 2 packs them.
Both decoders loop until the bytes are used up and remove what they read with
`removeFirst`, so a batch that ends inside a call stops the program, while an
unknown operation number makes the whole batch unreadable.
-/

import SafeWallet.Ethereum.ContractProxy

namespace SafeWallet

/-- `MultiSendTransactionOperation`. -/
inductive MultiSendOperation
  | call
  | delegateCall
  deriving DecidableEq, Repr

namespace MultiSendOperation

/-- `MultiSendTransactionOperation(rawValue:)`. -/
def ofRawValue : ℕ → Option MultiSendOperation
  | 0 => some .call
  | 1 => some .delegateCall
  | _ => none

/-- `rawValue`. -/
def rawValue : MultiSendOperation → ℕ
  | .call => 0
  | .delegateCall => 1

end MultiSendOperation

/-- `MultiSendTransaction`. -/
structure MultiSendTransaction where
  operation : MultiSendOperation
  toAddress : Address
  value : ℤ
  data : Data
  deriving DecidableEq, Repr

/-- The part of `SafeContractMetadata` about batch contracts. -/
structure MultiSendMetadata where
  address : Address
  version : ℕ
  deriving DecidableEq, Repr

namespace MultiSend

open ContractProxy

/-- `multiSendSignature`. -/
def multiSendSignature : String := "multiSend(bytes)"

/-- One round of a decoding loop: nothing when the operation is unknown, else
the call and the bytes after it. -/
abbrev Round := Data → Trapping (Option (MultiSendTransaction × Data))

/-- The loop of `MultiSendContractV1.decodeMultiSendArguments(from:)`. -/
def roundV1 : Round := fun bytes => do
  let operation := decodeUInt bytes
  let bytes ← Trapping.removeFirst 32 bytes
  let rawValue ← Trapping.toInt operation
  match MultiSendOperation.ofRawValue rawValue with
  | none => return none
  | some txOperation =>
    let toAddress := decodeAddress bytes
    let bytes ← Trapping.removeFirst 32 bytes
    let value := decodeUInt bytes
    let bytes ← Trapping.removeFirst 32 bytes
    let bytes ← Trapping.removeFirst 32 bytes
    let data ← decodeBytes bytes
    let bytes ← Trapping.removeFirst (encodeBytes data).length bytes
    return some (⟨txOperation, toAddress, (value : ℤ), data⟩, bytes)

/-- `MultiSendContractV2.decodeAddress(_:)`: twenty bytes instead of a word. -/
def decodePackedAddress (value : Data) : Address :=
  Address.ofUInt (Data.toNat (if 20 < value.length then value.take 20 else value))

/-- The loop of `MultiSendContractV2.decodeMultiSendArguments(from:)`. -/
def roundV2 : Round := fun bytes => do
  let operation := Data.toNat (if 1 < bytes.length then bytes.take 1 else bytes)
  let bytes ← Trapping.removeFirst 1 bytes
  match MultiSendOperation.ofRawValue operation with
  | none => return none
  | some txOperation =>
    let toAddress := decodePackedAddress bytes
    let bytes ← Trapping.removeFirst 20 bytes
    let value := decodeUInt bytes
    let bytes ← Trapping.removeFirst 32 bytes
    let length := decodeUInt bytes
    let bytes ← Trapping.removeFirst 32 bytes
    let count ← Trapping.toInt length
    let data := bytes.take count
    let bytes ← Trapping.removeFirst count bytes
    return some (⟨txOperation, toAddress, (value : ℤ), data⟩, bytes)

/-- `while !bytes.isEmpty`. Every round removes a byte, so the number of bytes
bounds the number of rounds. -/
def decodeRounds (round : Round) : ℕ → Data → Trapping (Option (List MultiSendTransaction))
  | _, [] => return some []
  | 0, _ :: _ => return some []
  | fuel + 1, byte :: bytes => do
    match ← round (byte :: bytes) with
    | none => return none
    | some (transaction, rest) =>
      match ← decodeRounds round fuel rest with
      | none => return none
      | some transactions => return some (transaction :: transactions)

/-- `decodeMultiSendArguments(from:)` of both versions. -/
def decodeArguments (round : Round) (kit : EthereumKit) (data : Data) :
    Trapping (Option (List MultiSendTransaction)) :=
  let selector := method kit multiSendSignature
  if selector.isPrefixOf data then do
    let input ← Trapping.removeFirst selector.length data
    let input ← Trapping.removeFirst 32 input
    let bytes ← decodeBytes input
    decodeRounds round bytes.length bytes
  else
    return none

/-- `isMultiSend(_:)`, a comparison in lower case. -/
def isMultiSend (known : List MultiSendMetadata) (address : Address) : Bool :=
  known.any fun contract => contract.address.normalized = address.normalized

/-- The implementation for a version: all but the first use the packed layout. -/
def implementation (version : Option ℕ) : Round := if version = some 1 then roundV1 else roundV2

/-- `MultiSendContractProxy(contract).decodeMultiSendArguments(from:)`. The zero
address stands for the current batch contract. -/
def decodeMultiSendArguments (kit : EthereumKit) (current : Address)
    (known : List MultiSendMetadata) (contract : Address) (data : Data) :
    Trapping (Option (List MultiSendTransaction)) :=
  let address := if contract = Address.zero then current else contract
  let version := (known.find? fun c => c.address.normalized = address.normalized).map
    MultiSendMetadata.version
  decodeArguments (implementation version) kit data

/-! ## Writing batches -/

/-- One call as `MultiSendContractV1.multiSend(_:)` writes it. -/
def encodeV1 (transaction : MultiSendTransaction) : Data :=
  encodeUInt transaction.operation.rawValue ++ encodeAddress transaction.toAddress ++
    encodeUInt transaction.value.natAbs ++ encodeUInt (4 * 32) ++ encodeBytes transaction.data

/-- `MultiSendContractV2.encodeUInt8(_:)`. -/
def encodeUInt8 (value : ℕ) : Data :=
  Data.suffix 1 (Data.leftPadded 1 (Data.ofEthHex (Nat.toDigits 16 value)))

/-- `MultiSendContractV2.encodeAddress(_:)`. -/
def encodePackedAddress (value : Address) : Data :=
  Data.suffix 20 (Data.leftPadded 20 value.data)

/-- One call as `MultiSendContractV2.multiSend(_:)` writes it. -/
def encodeV2 (transaction : MultiSendTransaction) : Data :=
  encodeUInt8 transaction.operation.rawValue ++ encodePackedAddress transaction.toAddress ++
    encodeUInt transaction.value.natAbs ++ encodeUInt transaction.data.length ++ transaction.data

/-- `multiSend(_:)` of both versions. -/
def encodeArguments (encode : MultiSendTransaction → Data) (kit : EthereumKit)
    (transactions : List MultiSendTransaction) : Data :=
  invocation kit multiSendSignature [encodeUInt 32 ++ encodeBytes (transactions.flatMap encode)]

/-- `MultiSendContractV1.multiSend(_:)`. -/
def multiSendV1 : EthereumKit → List MultiSendTransaction → Data := encodeArguments encodeV1

/-- `MultiSendContractV2.multiSend(_:)`. -/
def multiSendV2 : EthereumKit → List MultiSendTransaction → Data := encodeArguments encodeV2

/-- `MultiSendContractV1.decodeMultiSendArguments(from:)`. -/
def decodeMultiSendArgumentsV1 :
    EthereumKit → Data → Trapping (Option (List MultiSendTransaction)) := decodeArguments roundV1

/-- `MultiSendContractV2.decodeMultiSendArguments(from:)`. -/
def decodeMultiSendArgumentsV2 :
    EthereumKit → Data → Trapping (Option (List MultiSendTransaction)) := decodeArguments roundV2

/-- `MultiSendContractProxy(contract).multiSend(_:)`. -/
def multiSend (kit : EthereumKit) (current : Address) (known : List MultiSendMetadata)
    (contract : Address) (transactions : List MultiSendTransaction) : Data :=
  let address := if contract = Address.zero then current else contract
  let version := (known.find? fun c => c.address.normalized = address.normalized).map
    MultiSendMetadata.version
  encodeArguments (if version = some 1 then encodeV1 else encodeV2) kit transactions

/-! ## Decoded addresses -/

/-- A round of either version reads a well-formed address. -/
def Round.WellFormed (round : Round) : Prop :=
  ∀ bytes transaction rest, round bytes = .ok (some (transaction, rest)) →
    transaction.toAddress.WellFormed

theorem roundV1_wellFormed : Round.WellFormed roundV1 := by
  intro bytes transaction rest h
  simp only [roundV1, Trapping.bind_eq_ok_iff] at h
  obtain ⟨bytes₁, -, rawValue, -, h⟩ := h
  split at h
  · cases h
  · simp only [Trapping.bind_eq_ok_iff] at h
    obtain ⟨bytes₂, -, bytes₃, -, bytes₄, -, data, -, bytes₅, -, h⟩ := h
    cases h
    exact (decodeAddress_spec _).1

theorem roundV2_wellFormed : Round.WellFormed roundV2 := by
  intro bytes transaction rest h
  simp only [roundV2, Trapping.bind_eq_ok_iff] at h
  obtain ⟨bytes₁, -, h⟩ := h
  split at h
  · cases h
  · simp only [Trapping.bind_eq_ok_iff] at h
    obtain ⟨bytes₂, -, bytes₃, -, bytes₄, -, count, -, bytes₅, -, h⟩ := h
    cases h
    exact (Address.ofUInt_wellFormed _).1

theorem implementation_wellFormed (version : Option ℕ) :
    Round.WellFormed (implementation version) := by
  unfold implementation
  split
  · exact roundV1_wellFormed
  · exact roundV2_wellFormed

theorem decodeRounds_wellFormed {round : Round} (hround : round.WellFormed) (fuel : ℕ)
    (bytes : Data) (transactions : List MultiSendTransaction)
    (h : decodeRounds round fuel bytes = .ok (some transactions)) :
    ∀ transaction ∈ transactions, transaction.toAddress.WellFormed := by
  induction fuel generalizing bytes transactions with
  | zero => cases bytes <;> (cases h; simp)
  | succ fuel ih =>
      cases bytes with
      | nil => cases h; simp
      | cons byte bytes =>
          simp only [decodeRounds, Trapping.bind_eq_ok_iff] at h
          obtain ⟨first, hfirst, h⟩ := h
          cases first with
          | none => cases h
          | some first =>
              obtain ⟨transaction, rest⟩ := first
              simp only [Trapping.bind_eq_ok_iff] at h
              obtain ⟨others, hothers, h⟩ := h
              cases others with
              | none => cases h
              | some others =>
                  cases h
                  intro t ht
                  rcases List.mem_cons.mp ht with rfl | ht
                  · exact hround _ _ _ hfirst
                  · exact ih rest others hothers t ht

theorem decodeArguments_wellFormed {round : Round} (hround : round.WellFormed) {kit : EthereumKit}
    {data : Data} {transactions : List MultiSendTransaction}
    (h : decodeArguments round kit data = .ok (some transactions)) :
    ∀ transaction ∈ transactions, transaction.toAddress.WellFormed := by
  simp only [decodeArguments] at h
  split at h
  · simp only [Trapping.bind_eq_ok_iff] at h
    obtain ⟨input₁, -, input₂, -, bytes, -, h⟩ := h
    exact decodeRounds_wellFormed hround _ _ _ h
  · cases h

/-- Every call of a decoded batch has a well-formed address. -/
theorem decodeMultiSendArguments_wellFormed {kit : EthereumKit} {current contract : Address}
    {known : List MultiSendMetadata} {data : Data} {transactions : List MultiSendTransaction}
    (h : decodeMultiSendArguments kit current known contract data = .ok (some transactions)) :
    ∀ transaction ∈ transactions, transaction.toAddress.WellFormed := by
  exact decodeArguments_wellFormed (implementation_wellFormed _) h

/-- Known batch contracts are recognised in every spelling. -/
theorem isMultiSend_congr {known : List MultiSendMetadata} {contract contract' : Address}
    (h : contract.Respelled contract') : isMultiSend known contract' = isMultiSend known contract := by
  unfold isMultiSend
  rw [h.2]

/-- Only the bytes of the contract's address matter for decoding. -/
theorem decodeMultiSendArguments_congr {kit : EthereumKit} {current contract contract' : Address}
    {known : List MultiSendMetadata} {data : Data} (h : contract.Respelled contract') :
    decodeMultiSendArguments kit current known contract' data =
      decodeMultiSendArguments kit current known contract data := by
  have hzero : contract' = Address.zero ↔ contract = Address.zero := by
    obtain ⟨hwf, hletters⟩ := Address.not_hasLetters_zero
    constructor
    · rintro rfl
      exact h.symm.eq_of_not_hasLetters hwf hletters
    · rintro rfl
      exact h.eq_of_not_hasLetters hwf hletters
  simp only [decodeMultiSendArguments, hzero]
  by_cases hcontract : contract = Address.zero
  · simp only [hcontract, if_true]
  · simp only [hcontract, if_false, h.2]

end MultiSend

end SafeWallet
