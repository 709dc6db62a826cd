/-
# Preimages

The signed hash is taken over two byte strings, the domain and the values of a
transaction, both of them put together from words without separators. Each word has
exactly 32 bytes, so the boundaries are where they should be, and the two strings say
which call is made, by whom, at which price and in which order.
-/

import SafeWallet.Transaction.Submission

namespace SafeWallet

/-! ## Concatenated words -/

/-- Byte strings that are all of one length can be told apart in their concatenation. -/
theorem Data.eq_of_flatten_eq {count : ℕ} {first second : List Data}
    (hfirst : ∀ word ∈ first, word.length = count) (hsecond : ∀ word ∈ second, word.length = count)
    (hnumber : first.length = second.length) (h : first.flatten = second.flatten) :
    first = second := by
  have hlengths : ∀ words : List Data, (∀ word ∈ words, word.length = count) →
      words.map List.length = List.replicate words.length count := by
    intro words hwords
    rw [← List.map_const']
    exact List.map_congr_left hwords
  rw [List.eq_iff_flatten_eq, hlengths first hfirst, hlengths second hsecond, hnumber]
  exact ⟨h, rfl⟩

theorem Data.length_flatten {count : ℕ} {words : List Data}
    (hwords : ∀ word ∈ words, word.length = count) :
    words.flatten.length = words.length * count := by
  rw [List.length_flatten, List.map_congr_left hwords, List.map_const', List.sum_replicate]
  rfl

namespace SubmitTransactionRequest

/-- Quantities are read off their words. -/
theorem eq_of_word_eq {first second : ℤ} (hfirst : IsQuantity first) (hsecond : IsQuantity second)
    (h : word first.toNat = word second.toNat) : first = second := by
  have hvalue := congrArg Data.toNat h
  rw [word, word, toNat_bytes, toNat_bytes] at hvalue
  obtain ⟨n, rfl⟩ := Int.eq_ofNat_of_zero_le hfirst.1
  obtain ⟨m, rfl⟩ := Int.eq_ofNat_of_zero_le hsecond.1
  have hn : n < 256 ^ 32 := by
    have := hfirst.2
    norm_num at this ⊢
    exact_mod_cast this
  have hm : m < 256 ^ 32 := by
    have := hsecond.2
    norm_num at this ⊢
    exact_mod_cast this
  rw [Int.toNat_natCast, Int.toNat_natCast, Nat.mod_eq_of_lt hn, Nat.mod_eq_of_lt hm] at hvalue
  rw [hvalue]

theorem operation_eq_of_word_eq {first second : WalletOperation}
    (h : word first.rawValue = word second.rawValue) : first = second := by
  have hquantity : ∀ operation : WalletOperation, IsQuantity (operation.rawValue : ℤ) := by
    intro operation
    cases operation <;> decide
  have hvalue := eq_of_word_eq (hquantity first) (hquantity second) h
  cases first <;> cases second <;> first | rfl | cases hvalue

/-- Addresses are read off their words, apart from the spelling. -/
theorem data_eq_of_word_eq {first second : Address} (hfirst : first.WellFormed)
    (hsecond : second.WellFormed) (h : word first.toUInt = word second.toUInt) :
    first.data = second.data := by
  have hquantity : ∀ a : Address, a.WellFormed → IsQuantity (a.toUInt : ℤ) := by
    intro a ha
    have := ha.toUInt_lt
    refine ⟨Int.natCast_nonneg _, ?_⟩
    norm_num at this ⊢
    omega
  have hvalue := eq_of_word_eq (hquantity first hfirst) (hquantity second hsecond) h
  apply Data.eq_of_toNat_eq
  · rw [hfirst.data_spec.1, hsecond.data_spec.1]
  · exact Int.ofNat_inj.mp hvalue

end SubmitTransactionRequest

/-! ## The preimages of a transaction -/

namespace EncryptionService

open SubmitTransactionRequest

/-- The type hashes of every known contract version are hashes. -/
def HashesTypes (metadata : SafeContractMetadata) : Prop :=
  ∀ copy ∈ metadata.masterCopy, copy.txTypeHash.length = 32 ∧ copy.domainSeparatorHash.length = 32

variable {services : Services} {store : Store} {tx : Transaction}

theorem masterCopyMetadata_mem {copy : MasterCopyMetadata}
    (h : masterCopyMetadata services store tx = some copy) : copy ∈ services.metadata.masterCopy := by
  simp only [masterCopyMetadata, Option.bind_eq_bind, Option.bind_eq_some_iff] at h
  obtain ⟨wallet, -, masterCopy, -, hfound⟩ := h
  exact List.mem_of_find?_eq_some hfound

/-- Type hashes have 32 bytes, also the ones for unknown versions. -/
theorem length_typeHashes (store : Store) (tx : Transaction)
    (htypes : HashesTypes services.metadata) :
    (txTypeHash services store tx).length = 32 ∧
      (domainSeparatorTypeHash services store tx).length = 32 := by
  rw [txTypeHash, domainSeparatorTypeHash]
  cases hcopy : masterCopyMetadata services store tx with
  | none => decide +kernel
  | some copy => exact htypes copy (masterCopyMetadata_mem hcopy)

/-- The words of the values. -/
def valueWords (services : Services) (store : Store) (tx : Transaction)
    (operation : WalletOperation) (estimate : TransactionFeeEstimate) (nonce : ℤ) : List Data :=
  [txTypeHash services store tx, word tx.ethTo.toUInt, word tx.ethValue.toNat,
    services.kit.hashSHA3_256 (tx.data.getD []), word operation.rawValue, word estimate.gas.toNat,
    word estimate.dataGas.toNat, word estimate.gasPrice.amount.toNat,
    word estimate.gasPrice.token.address.toUInt, word 0, word nonce.toNat]

theorem length_valueWord (hhash : ∀ data, (services.kit.hashSHA3_256 data).length = 32)
    (htypes : HashesTypes services.metadata) (store : Store) (tx : Transaction)
    (operation : WalletOperation) (estimate : TransactionFeeEstimate) (nonce : ℤ) :
    ∀ part ∈ valueWords services store tx operation estimate nonce, part.length = 32 := by
  intro part hpart
  simp only [valueWords, List.mem_cons, List.not_mem_nil, or_false] at hpart
  obtain rfl | rfl | rfl | rfl | rfl | rfl | rfl | rfl | rfl | rfl | rfl := hpart
  case inl => exact (length_typeHashes store tx htypes).1
  case inr.inr.inr.inl => exact hhash _
  all_goals exact length_word _

/-- The preimages of two transactions have eleven and two words, and they are the same only for
transactions that do the same: they agree on the sender, the call, the gas terms and the
nonce. -/
theorem preimages_unambiguous (hhash : ∀ data, (services.kit.hashSHA3_256 data).length = 32)
    (htypes : HashesTypes services.metadata) (store store' : Store) {tx' : Transaction}
    {sender sender' : Address} {operation operation' : WalletOperation}
    {estimate estimate' : TransactionFeeEstimate} {nonce nonce' : ℤ}
    (h : tx.Hashable sender operation estimate nonce)
    (h' : tx'.Hashable sender' operation' estimate' nonce') :
    ∃ value domain value' domain',
      valueData services store tx = .ok value ∧ domainData services store tx = .ok domain ∧
      valueData services store' tx' = .ok value' ∧ domainData services store' tx' = .ok domain' ∧
      value.length = 11 * 32 ∧ domain.length = 2 * 32 ∧
      (value = value' → domain = domain' →
        sender.data = sender'.data ∧ tx.ethTo.data = tx'.ethTo.data ∧
        tx.ethValue = tx'.ethValue ∧
        services.kit.hashSHA3_256 (tx.data.getD []) =
          services.kit.hashSHA3_256 (tx'.data.getD []) ∧
        operation = operation' ∧ estimate.gas = estimate'.gas ∧
        estimate.dataGas = estimate'.dataGas ∧
        estimate.gasPrice.amount = estimate'.gasPrice.amount ∧
        estimate.gasPrice.token.address.data = estimate'.gasPrice.token.address.data ∧
        nonce = nonce') := by
  have hwords := length_valueWord hhash htypes store tx operation estimate nonce
  have hwords' := length_valueWord hhash htypes store' tx' operation' estimate' nonce'
  have hdomain := (length_typeHashes store tx htypes).2
  have hdomain' := (length_typeHashes store' tx' htypes).2
  refine ⟨_, _, _, _, valueData_of_hashable h, domainData_of_hashable h,
    valueData_of_hashable h', domainData_of_hashable h', Data.length_flatten hwords, ?_, ?_⟩
  · rw [List.length_append, hdomain, length_word]
  · intro hvalue hdomains
    have hsame := Data.eq_of_flatten_eq hwords hwords' rfl hvalue
    simp only [valueWords, List.cons.injEq, and_true] at hsame
    obtain ⟨-, hto, hsent, hdata, hoperation, hgas, hdataGas, hprice, htoken, -, hnonce⟩ := hsame
    have hsender := (List.append_inj hdomains (hdomain.trans hdomain'.symm)).2
    exact ⟨data_eq_of_word_eq h.sender_wellFormed h'.sender_wellFormed hsender,
      data_eq_of_word_eq h.ethTo_wellFormed h'.ethTo_wellFormed hto,
      eq_of_word_eq h.ethValue_quantity h'.ethValue_quantity hsent, hdata,
      operation_eq_of_word_eq hoperation,
      eq_of_word_eq h.gas_quantity h'.gas_quantity hgas,
      eq_of_word_eq h.dataGas_quantity h'.dataGas_quantity hdataGas,
      eq_of_word_eq h.gasPrice_quantity h'.gasPrice_quantity hprice,
      data_eq_of_word_eq h.gasToken_wellFormed h'.gasToken_wellFormed htoken,
      eq_of_word_eq h.nonce_quantity h'.nonce_quantity hnonce⟩

/-- The hash of the data of the transfer. -/
def transferDataKit : EthereumKit := .ofHashes
  [([0xa9, 0x05, 0x9c, 0xbb],
    0xabce0605a16ff5e998983a0af570b8ad942bb11e305eb20ae3ada0a3be24eb97)]

/-- The same transfer is hashed differently when it is made once more. -/
theorem preimages_unambiguous_repeated :
    let services := Services.offline transferDataKit ⟨Address.zero, [], []⟩
    let store := Store.ofWallets Table.empty Table.empty
    let repeated := { tokenTransfer with nonce := some 4 }
    ¬ (valueData services store tokenTransfer = valueData services store repeated ∧
      domainData services store tokenTransfer = domainData services store repeated) := by
  intro services store repeated
  have hhash : ∀ data, (services.kit.hashSHA3_256 data).length = 32 :=
    EthereumKit.length_ofHashes _
  have htypes : HashesTypes services.metadata := by
    intro copy hcopy
    cases hcopy
  have hfirst := tokenTransfer_submittable.hashable
  have hsecond : repeated.Hashable ⟨"0x092cc1854399adc38dad4f846e369c40d0a40307"⟩ .call
      ⟨21000, 4000, 10, .ether 7⟩ 4 :=
    ⟨rfl, rfl, rfl, rfl, hfirst.sender_wellFormed, hfirst.ethTo_wellFormed,
      hfirst.gasToken_wellFormed, hfirst.ethValue_quantity, hfirst.gas_quantity,
      hfirst.dataGas_quantity, hfirst.gasPrice_quantity, by decide⟩
  obtain ⟨value, domain, value', domain', hvalue, hdomain, hvalue', hdomain', -, -, hsame⟩ :=
    preimages_unambiguous hhash htypes store store hfirst hsecond
  intro h
  rw [hvalue, hvalue', hdomain, hdomain'] at h
  have hnonce := (hsame (Except.ok.inj h.1) (Except.ok.inj h.2)).2.2.2.2.2.2.2.2.2
  revert hnonce
  decide

end EncryptionService

end SafeWallet
