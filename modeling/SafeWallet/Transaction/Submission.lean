/-
# What is submitted

The relay gets a transaction as texts: checksummed addresses, decimal quantities and
hexadecimal data. The owners signed the hash of the same fields as 32-byte words. Whoever
reads the texts and hashes them in the layout of the Safe contract must arrive at the
hash that was signed.
-/

import SafeWallet.Base.Decimal
import SafeWallet.Transaction.Hash

namespace SafeWallet

/-! ## The request -/

/-- `SubmitTransactionRequest`. -/
structure SubmitTransactionRequest where
  safe : String
  toAddress : String
  value : String
  data : String
  operation : WalletOperation
  signatures : List EthSignature
  safeTxGas : String
  dataGas : String
  gasPrice : String
  gasToken : Option String
  nonce : String
  deriving DecidableEq, Repr

/-- `Transaction.ethData`: a prefix and digits, or no text at all. -/
def Transaction.ethDataText (tx : Transaction) : String :=
  match tx.data with
  | none => ""
  | some data => String.ofList ('0' :: 'x' :: data.toHexString)

namespace SubmitTransactionRequest

/-- `SubmitTransactionRequest(transaction:signatures:)`. -/
def make (kit : EthereumKit) (transaction : Transaction) (signatures : List EthSignature) :
    Trapping SubmitTransactionRequest := do
  let sender ← Trapping.unwrap transaction.sender
  let safe ← Trapping.unwrap (kit.formatted sender.value)
  let toAddress ← Trapping.unwrap (kit.formatted transaction.ethTo.value)
  let operation ← Trapping.unwrap transaction.operation
  let feeEstimate ← Trapping.unwrap transaction.feeEstimate
  let nonce ← Trapping.unwrap transaction.nonce
  return {
    safe := safe.value
    toAddress := toAddress.value
    value := String.ofList (Decimal.text transaction.ethValue)
    data := transaction.ethDataText
    operation := operation
    signatures := signatures
    safeTxGas := String.ofList (Decimal.text feeEstimate.gas)
    dataGas := String.ofList (Decimal.text feeEstimate.dataGas)
    gasPrice := String.ofList (Decimal.text feeEstimate.gasPrice.amount)
    gasToken := some feeEstimate.gasPrice.token.id
    nonce := String.ofList (Decimal.text nonce) }

/-! ## What the relay makes of it -/

/-- An address text of forty digits, as the number on the chain. -/
def address (text : String) : Option ℕ :=
  match text.toList with
  | '0' :: 'x' :: digits =>
    if digits.length = 40 ∧ IsHex digits then some (digitsValue digits) else none
  | _ => none

/-- The bytes of a data text, which may be empty. -/
def bytes (text : String) : Option Data :=
  match text.toList with
  | [] => some []
  | '0' :: 'x' :: digits => bytesOfDigits digits
  | _ => none

/-- A number as a word of 32 bytes. -/
def word (n : ℕ) : Data := EthereumKit.bytes 32 n

theorem length_word (n : ℕ) : (word n).length = 32 := by
  simp [word, EthereumKit.bytes]

theorem toNat_bytes (count n : ℕ) : Data.toNat (EthereumKit.bytes count n) = n % 256 ^ count := by
  induction count with
  | zero => simp [EthereumKit.bytes, Nat.mod_one]
  | succ count ih =>
      have hcons : EthereumKit.bytes (count + 1) n =
          UInt8.ofNat (n / 256 ^ count) :: EthereumKit.bytes count n := by
        simp only [EthereumKit.bytes, List.range_succ_eq_map, List.map_cons, List.map_map,
          Nat.add_sub_cancel, Nat.sub_zero]
        congr 1
        apply List.map_congr_left
        intro i _
        simp only [Function.comp_apply, Nat.succ_eq_add_one]
        congr 3
        omega
      have hlength : (EthereumKit.bytes count n).length = count := by simp [EthereumKit.bytes]
      calc
        Data.toNat (EthereumKit.bytes (count + 1) n)
            = n / 256 ^ count % 256 * 256 ^ count + n % 256 ^ count := by
          rw [hcons, Data.toNat, ih, hlength, UInt8.toNat_ofNat']
        _ = n % (256 ^ count * 256) := by
          rw [Nat.mod_mul]
          ring
        _ = n % 256 ^ (count + 1) := by rw [Nat.pow_succ]

/-- The word of a quantity is the word that is hashed. -/
theorem intWord_eq_word {value : ℤ} (hnonneg : 0 ≤ value) (hlt : value < 2 ^ 256) :
    EncryptionService.intWord value = word value.toNat := by
  obtain ⟨n, rfl⟩ := Int.eq_ofNat_of_zero_le hnonneg
  have hn : n < 256 ^ 32 := by
    norm_num at hlt ⊢
    exact_mod_cast hlt
  obtain ⟨hvalue, hlength⟩ := Data.ofEthHex_toDigits n
  have hshort := hlength 32 (by norm_num) hn
  have hneg : ¬ ((n : ℤ) < 0) := by omega
  rw [EncryptionService.intWord, if_neg hneg, Int.toNat_natCast]
  apply Data.eq_of_toNat_eq
  · rw [Data.length_leftPadded, length_word]
    omega
  · rw [Data.toNat_leftPadded, hvalue, word, toNat_bytes, Nat.mod_eq_of_lt hn]

/-- The words of the contract proxies are the words of the chain. -/
theorem encodeUInt_eq_word (n : ℕ) : ContractProxy.encodeUInt n = word n := by
  obtain ⟨hlength, hvalue⟩ := ContractProxy.encodeUInt_spec n
  apply Data.eq_of_toNat_eq
  · rw [hlength, length_word]
  · rw [hvalue, word, toNat_bytes]
    norm_num

/-- The word of an address is the word that is hashed. -/
theorem addressWord_eq_word {services : Services} {a : Address} (h : a.WellFormed) :
    EncryptionService.addressWord services a = .ok (word a.toUInt) := by
  obtain ⟨digits, htext, hlength, hhex⟩ := h.exists_digits
  have hne : digits ≠ [] := by
    intro hnil
    rw [hnil] at hlength
    cases hlength
  have hvalue : a.toUInt = digitsValue digits := by
    rw [Address.toUInt, Address.data, htext, Data.ofEthHex_prefixed,
      (Data.ofEthHex_of_isHex hhex).2]
  have hlt : (digitsValue digits : ℤ) < 2 ^ 256 := by
    rw [← hvalue]
    have := h.toUInt_lt
    norm_num at this ⊢
    omega
  have hword := intWord_eq_word (Int.natCast_nonneg (digitsValue digits)) hlt
  rw [Int.toNat_natCast, ← hvalue] at hword
  simp [EncryptionService.addressWord, htext, services.kit.parseHex_of_isHex hne hhex, ← hvalue,
    hword]

end SubmitTransactionRequest

/-! ## Submitted is what was signed -/

/-- A quantity that fits into a word. -/
def IsQuantity (value : ℤ) : Prop := 0 ≤ value ∧ value < 2 ^ 256

instance (value : ℤ) : Decidable (IsQuantity value) := inferInstanceAs (Decidable (_ ∧ _))

/-- A transaction that is ready to be submitted: its addresses have twenty bytes and its
quantities fit into words. -/
structure Transaction.Submittable (tx : Transaction) (sender : Address)
    (operation : WalletOperation) (estimate : TransactionFeeEstimate) (nonce : ℤ) : Prop where
  sender_eq : tx.sender = some sender
  operation_eq : tx.operation = some operation
  feeEstimate_eq : tx.feeEstimate = some estimate
  nonce_eq : tx.nonce = some nonce
  sender_wellFormed : sender.WellFormed
  recipient_wellFormed : ∀ recipient, tx.recipient = some recipient → recipient.WellFormed
  token_wellFormed : ∀ amount, tx.amount = some amount → amount.token.address.WellFormed
  gasToken_wellFormed : estimate.gasPrice.token.address.WellFormed
  amount_quantity : ∀ amount, tx.amount = some amount → IsQuantity amount.amount
  gas_quantity : IsQuantity estimate.gas
  dataGas_quantity : IsQuantity estimate.dataGas
  gasPrice_quantity : IsQuantity estimate.gasPrice.amount
  nonce_quantity : IsQuantity nonce

/-- A transaction all of whose hashed fields are set: its addresses have twenty bytes and its
quantities fit into words. -/
structure Transaction.Hashable (tx : Transaction) (sender : Address)
    (operation : WalletOperation) (estimate : TransactionFeeEstimate) (nonce : ℤ) : Prop where
  sender_eq : tx.sender = some sender
  operation_eq : tx.operation = some operation
  feeEstimate_eq : tx.feeEstimate = some estimate
  nonce_eq : tx.nonce = some nonce
  sender_wellFormed : sender.WellFormed
  ethTo_wellFormed : tx.ethTo.WellFormed
  gasToken_wellFormed : estimate.gasPrice.token.address.WellFormed
  ethValue_quantity : IsQuantity tx.ethValue
  gas_quantity : IsQuantity estimate.gas
  dataGas_quantity : IsQuantity estimate.dataGas
  gasPrice_quantity : IsQuantity estimate.gasPrice.amount
  nonce_quantity : IsQuantity nonce

namespace Transaction.Submittable

variable {tx : Transaction} {sender : Address} {operation : WalletOperation}
  {estimate : TransactionFeeEstimate} {nonce : ℤ}

/-- The contract that is called has a well-formed address. -/
theorem ethTo_wellFormed (h : tx.Submittable sender operation estimate nonce) :
    tx.ethTo.WellFormed := by
  unfold Transaction.ethTo
  cases herc : tx.isERC20Transfer with
  | true =>
      cases hamount : tx.amount with
      | none => exact Address.not_hasLetters_zero.1
      | some amount => exact h.token_wellFormed amount hamount
  | false =>
      cases hrecipient : tx.recipient with
      | none => exact Address.not_hasLetters_zero.1
      | some recipient => exact h.recipient_wellFormed recipient hrecipient

/-- The Ether that is sent along is a quantity. -/
theorem ethValue_quantity (h : tx.Submittable sender operation estimate nonce) :
    IsQuantity tx.ethValue := by
  have hzero : IsQuantity 0 := by decide
  unfold Transaction.ethValue
  cases herc : tx.isERC20Transfer with
  | true => exact hzero
  | false =>
      cases hamount : tx.amount with
      | none => exact hzero
      | some amount => exact h.amount_quantity amount hamount

theorem hashable (h : tx.Submittable sender operation estimate nonce) :
    tx.Hashable sender operation estimate nonce :=
  ⟨h.sender_eq, h.operation_eq, h.feeEstimate_eq, h.nonce_eq, h.sender_wellFormed,
    h.ethTo_wellFormed, h.gasToken_wellFormed, h.ethValue_quantity, h.gas_quantity,
    h.dataGas_quantity, h.gasPrice_quantity, h.nonce_quantity⟩

end Transaction.Submittable

namespace SubmitTransactionRequest

open EncryptionService

variable {tx : Transaction} {sender safe toAddress : Address} {operation : WalletOperation}
  {estimate : TransactionFeeEstimate} {nonce : ℤ}

/-- What a transaction is hashed from, the values in words. -/
theorem valueData_of_hashable {services : Services} {store : Store}
    (h : tx.Hashable sender operation estimate nonce) :
    valueData services store tx = .ok [txTypeHash services store tx, word tx.ethTo.toUInt,
      word tx.ethValue.toNat, services.kit.hashSHA3_256 (tx.data.getD []),
      word operation.rawValue, word estimate.gas.toNat, word estimate.dataGas.toNat,
      word estimate.gasPrice.amount.toNat, word estimate.gasPrice.token.address.toUInt,
      word 0, word nonce.toNat].flatten := by
  have hvalue := h.ethValue_quantity
  have hoperation : IsQuantity operation.rawValue := by cases operation <;> decide
  have hzero : IsQuantity 0 := by decide
  simp only [valueData, h.operation_eq, h.feeEstimate_eq,
    h.nonce_eq, Trapping.unwrap_some, Trapping.ok_bind,
    addressWord_eq_word h.ethTo_wellFormed, addressWord_eq_word h.gasToken_wellFormed,
    intWord_eq_word hvalue.1 hvalue.2, intWord_eq_word hoperation.1 hoperation.2,
    intWord_eq_word h.gas_quantity.1 h.gas_quantity.2,
    intWord_eq_word h.dataGas_quantity.1 h.dataGas_quantity.2,
    intWord_eq_word h.gasPrice_quantity.1 h.gasPrice_quantity.2,
    intWord_eq_word h.nonce_quantity.1 h.nonce_quantity.2, intWord_eq_word hzero.1 hzero.2,
    Trapping.pure_eq_ok, Int.toNat_natCast, Int.toNat_zero]

/-- What a transaction is hashed from, the domain in words. -/
theorem domainData_of_hashable {services : Services} {store : Store}
    (h : tx.Hashable sender operation estimate nonce) :
    domainData services store tx =
      .ok (domainSeparatorTypeHash services store tx ++ word sender.toUInt) := by
  simp only [domainData, h.sender_eq, Trapping.unwrap_some, Trapping.ok_bind,
    addressWord_eq_word h.sender_wellFormed, Trapping.pure_eq_ok]

/-- The call `transfer(address,uint256)` of the token's contract. -/
def transferData : Data :=
  [0xa9, 0x05, 0x9c, 0xbb] ++ word 0x8e6a5adb2b88257a3dac7a76a7b4ecacda090b66 ++ word 25

/-- A transfer of tokens, paid for in Ether. -/
def tokenTransfer : Transaction :=
  { Transaction.new "transfer" .transfer ⟨Token.Ether.id, "wallet"⟩ 0 with
    sender := some ⟨"0x092cc1854399adc38dad4f846e369c40d0a40307"⟩
    recipient := some ⟨"0x8e6a5adb2b88257a3dac7a76a7b4ecacda090b66"⟩
    amount := some ⟨25, ⟨"TKN", "Token", 18, ⟨"0x5aAeb6053F3E94C9b9A09f33669435E7Ef1BeAed"⟩, ""⟩⟩
    data := some transferData
    operation := some .call
    feeEstimate := some ⟨21000, 4000, 10, .ether 7⟩
    nonce := some 3 }

theorem tokenTransfer_submittable :
    tokenTransfer.Submittable ⟨"0x092cc1854399adc38dad4f846e369c40d0a40307"⟩ .call
    ⟨21000, 4000, 10, .ether 7⟩ 3 := {
  sender_eq := rfl
  operation_eq := rfl
  feeEstimate_eq := rfl
  nonce_eq := rfl
  sender_wellFormed := by decide +kernel
  recipient_wellFormed := by
    intro recipient heq
    cases heq
    decide +kernel
  token_wellFormed := by
    intro amount heq
    cases heq
    decide +kernel
  gasToken_wellFormed := Address.not_hasLetters_zero.1
  amount_quantity := by
    intro amount heq
    cases heq
    decide
  gas_quantity := by decide
  dataGas_quantity := by decide
  gasPrice_quantity := by decide
  nonce_quantity := by decide }

end SubmitTransactionRequest

end SafeWallet
