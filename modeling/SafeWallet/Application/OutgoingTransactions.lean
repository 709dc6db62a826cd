/-
# Where outgoing transactions come from

Besides the messages of the authenticator, drafts are written for the requests of a dApp, for
batches, for changes of the contract and for a recovery. Each path sets the account and the
sender on its own: the account is always the one of the wallet at hand, the sender is its
address, or what the request names as its sender.
-/

import SafeWallet.Application.Messages
import SafeWallet.Recovery.TransactionBuilder

namespace SafeWallet

namespace WalletConnectApplicationService

variable (services : Services)

/-- `handleSendTransactionRequest(_:)` for the account of the session. The result is whether
the draft goes to review. -/
def handleSendTransactionRequest (account : Address) (request : SendTransactionRequiredData)
    (now : Date) (store : Store) : Trapping (Bool × Store) :=
  match store.findWallet account with
  | none => return (false, store)
  | some wallet => do
    let (store, txID) ← WalletApplication.createDraftTransaction services store wallet request now
    match store.transactions.find txID with
    | none => return (false, store)
    | some _ =>
      let (accounts, dangerous) ← TransactionService.isDangerous services store txID now
      return (!dangerous, { store with accounts := accounts })

/-- `WCMultiSendSubTransaction`. -/
structure WCMultiSendSubTransaction where
  toAddress : Address
  value : ℤ
  data : Data
  operation : ℤ
  deriving DecidableEq, Repr

/-- A call of a batch. An unknown operation, also a negative one, is a plain call. -/
def WCMultiSendSubTransaction.multiSend (tx : WCMultiSendSubTransaction) : MultiSendTransaction :=
  ⟨(MultiSendOperation.ofRawValue tx.operation.toNat).getD .call, tx.toAddress, tx.value, tx.data⟩

/-- The batch that is saved for a request. -/
def batch (wallet : Wallet) (subtransactions : List WCMultiSendSubTransaction) (now : Date)
    (store : Store) : Trapping Transaction := do
  let multiSendData := MultiSend.multiSend services.kit services.metadata.multiSendContractAddress
    services.metadata.multiSend Address.zero
    (subtransactions.map WCMultiSendSubTransaction.multiSend)
  let token := wallet.feePaymentTokenAddress.getD Token.Ether.address
  let accountID ← AccountID.make token.value wallet.id
  return { Transaction.new (store.nextTransactionID services) .batched accountID now with
    sender := wallet.address
    recipient := some services.metadata.multiSendContractAddress
    amount := some (TokenAmount.ether 0)
    operation := some .delegateCall
    data := some multiSendData }

/-- `handleMultiSendTransactionRequest(_:)`. -/
def handleMultiSendTransactionRequest (account : Address)
    (subtransactions : List WCMultiSendSubTransaction) (now : Date) (store : Store) :
    Trapping (Bool × Store) :=
  match store.findWallet account with
  | none => return (false, store)
  | some wallet => do
    let tx ← batch services wallet subtransactions now store
    let store := { store with transactions := store.transactions.store tx }
    let (accounts, dangerous) ← TransactionService.isDangerous services store tx.id now
    return (!dangerous, { store with accounts := accounts })

end WalletConnectApplicationService

namespace ContractModification

/-- `createTransaction()`, with which the service of every kind of change begins. What the
services set afterwards is the type and the call. -/
def createTransaction (services : Services) (now : Date) (store : Store) :
    Trapping (Store × TransactionID) := do
  let wallet ← Trapping.unwrap store.selectedWallet
  let token := wallet.feePaymentTokenAddress.getD Token.Ether.address
  let accountID ← AccountID.make token.value wallet.id
  let id := store.nextTransactionID services
  let tx := { Transaction.new id .replaceTwoFAWithAuthenticator accountID now with
    amount := some (TokenAmount.ether 0)
    sender := wallet.address }
  return ({ store with transactions := store.transactions.store tx }, tx.id)

end ContractModification

/-- `EstimateTransactionRequest.Response`. -/
structure EstimateTransactionResponse where
  safeTxGas : ℤ
  baseGas : ℤ
  operationalGas : ℤ
  gasPrice : ℤ
  gasToken : String
  nextNonce : ℤ
  deriving DecidableEq, Repr

namespace RecoveryTransactionBuilder

variable (services : Services) (builder : RecoveryTransactionBuilder)

/-! ## Building for a recovery -/

/-- `estimate()`, up to the answer of the service. -/
def estimate (answer : Option EstimateTransactionResponse) :
    Trapping (Option EstimateTransactionResponse) := do
  let sender ← Trapping.unwrap builder.transaction.sender
  let _ ← Trapping.unwrap (services.kit.formatted sender.value)
  let _ ← Trapping.unwrap (services.kit.formatted builder.transaction.ethTo.value)
  let _ ← Trapping.unwrap builder.transaction.operation
  return answer

/-- `calculateFees(basedOn:)`. -/
def calculateFees (store : Store) (estimation : EstimateTransactionResponse) (now : Date) :
    RecoveryTransactionBuilder :=
  let feeToken := ((store.tokenListItems.find estimation.gasToken).map TokenListItem.token).getD
    Token.Ether
  { builder with transaction := { builder.transaction with
    fee := some ⟨estimation.gasPrice * (estimation.safeTxGas + estimation.baseGas), feeToken⟩
    feeEstimate := some ⟨estimation.safeTxGas, estimation.baseGas, estimation.operationalGas,
      ⟨estimation.gasPrice, feeToken⟩⟩
    nonce := some estimation.nextNonce
    updatedDate := some now } }

/-- `seal()`. -/
def sealTransaction (store : Store) (now : Date) : Trapping RecoveryTransactionBuilder := do
  let hash ← EncryptionService.hash services store builder.transaction
  let tx ← Transaction.proceed
    { builder.transaction with hash := some hash, updatedDate := some now } now
  return { builder with transaction := tx }

/-- A signature by the key of an owner, if the key is known. -/
def signWith (store : Store) (role : OwnerRole) (now : Date) :
    Trapping (Option RecoveryTransactionBuilder) := do
  let owner ← Trapping.unwrap (builder.wallet.owner role)
  match store.externallyOwnedAccounts.find owner.address with
  | none => return none
  | some account =>
    let hash ← EncryptionService.hash services store builder.transaction
    let signature : Signature := ⟨services.kit.sign hash account.privateKey, account.address⟩
    return some { builder with transaction := builder.transaction.add signature now }

/-- `sign()`. -/
def sign (store : Store) (now : Date) : Trapping RecoveryTransactionBuilder := do
  match ← builder.signWith services store .paperWallet now with
  | none => return builder
  | some builder =>
    if builder.oldScheme.confirmations = 2 then
      return (← builder.signWith services store .paperWalletDerived now).getD builder
    else return builder

/-- `save()`. -/
def save (store : Store) : Store :=
  match store.wallets.find builder.wallet.id with
  | none => store
  | some _ => { store with
      wallets := store.wallets.save builder.wallet
      transactions := store.transactions.store builder.transaction }

/-- `build()`. -/
def build (balancesUpdated : Bool) (now : Date) (store : Store) : Trapping Store := do
  let wallet ← Trapping.unwrap store.selectedWallet
  match ← pullData services store wallet now balancesUpdated with
  | none => return store
  | some builder =>
    let builder ← builder.buildData services now
    return builder.save store

/-- What `main()` does with the answer of the service. -/
def complete (answer : Option EstimateTransactionResponse) (now : Date) (store : Store) :
    Trapping Store := do
  match ← builder.estimate services answer with
  | none => return store
  | some estimation =>
    let builder ← (builder.calculateFees store estimation now).sealTransaction services store now
    let builder ← builder.sign services store now
    return builder.save store

/-- `main()`. -/
def main (balancesUpdated : Bool) (answer : Option EstimateTransactionResponse) (now : Date)
    (store : Store) : Trapping Store := do
  let wallet ← Trapping.unwrap store.selectedWallet
  match ← pullData services store wallet now balancesUpdated with
  | none => return store
  | some builder =>
    if builder.isSupportedSafeOwners ∧ builder.isSupportedScheme then
      let builder ← builder.buildData services now
      builder.complete services answer now store
    else return store

/-! ## What the builder keeps -/

/-- The account and the sender of the transaction, and the wallet's address. -/
structure SameBinding (builder builder' : RecoveryTransactionBuilder) : Prop where
  accountID : builder'.transaction.accountID = builder.transaction.accountID
  sender : builder'.transaction.sender = builder.transaction.sender
  walletID : builder'.wallet.id = builder.wallet.id
  address : builder'.wallet.address = builder.wallet.address

variable {services builder} {builder' builder'' : RecoveryTransactionBuilder} {store : Store}
  {now : Date}

theorem SameBinding.refl (builder : RecoveryTransactionBuilder) : builder.SameBinding builder :=
  ⟨rfl, rfl, rfl, rfl⟩

theorem SameBinding.trans (h : builder.SameBinding builder') (h' : builder'.SameBinding builder'') :
    builder.SameBinding builder'' where
  accountID := h'.accountID.trans h.accountID
  sender := h'.sender.trans h.sender
  walletID := h'.walletID.trans h.walletID
  address := h'.address.trans h.address

section Calls

variable {role : OwnerRole} {data : Data} {calls : List Data}

theorem swapOwnerData_sameBinding
    (h : builder.swapOwnerData services role = .ok (builder', data)) :
    builder.SameBinding builder' := by
  unfold swapOwnerData at h
  split at h
  · cases h
  · simp only [Trapping.bind_eq_ok_iff] at h
    obtain ⟨before, -, newOwner, -, h⟩ := h
    split at h <;>
    · cases h
      exact ⟨rfl, rfl, rfl, rfl⟩

theorem addOwnerData_sameBinding
    (h : builder.addOwnerData services role = .ok (builder', data)) :
    builder.SameBinding builder' := by
  simp only [addOwnerData, Trapping.bind_eq_ok_iff] at h
  obtain ⟨newOwner, -, h⟩ := h
  split at h
  · cases h
    exact .refl builder
  · simp only [Trapping.bind_eq_ok_iff] at h
    obtain ⟨ownerList, -, h⟩ := h
    cases h
    exact ⟨rfl, rfl, rfl, rfl⟩

theorem removeOwnerData_sameBinding
    (h : builder.removeOwnerData services = .ok (builder', data)) :
    builder.SameBinding builder' := by
  unfold removeOwnerData at h
  split at h
  · cases h
  · simp only [Trapping.bind_eq_ok_iff] at h
    obtain ⟨before, -, h⟩ := h
    cases h
    exact ⟨rfl, rfl, rfl, rfl⟩

theorem withAuthenticator_sameBinding
    {execute : RecoveryTransactionBuilder → OwnerRole →
      Trapping (RecoveryTransactionBuilder × Data)}
    (hexecute : ∀ role, execute builder role = .ok (builder', data) → builder.SameBinding builder')
    (h : builder.withAuthenticator execute = .ok (builder', data)) :
    builder.SameBinding builder' := by
  unfold withAuthenticator at h
  split at h
  · exact hexecute _ h
  · cases h
    exact .refl builder

theorem plannedCalls_sameBinding
    (h : builder.plannedCalls services = .ok (builder', calls)) : builder.SameBinding builder' := by
  unfold plannedCalls at h
  split at h
  · simp only [Trapping.bind_eq_ok_iff] at h
    obtain ⟨⟨swapped, swap⟩, hswap, h⟩ := h
    cases h
    exact swapOwnerData_sameBinding hswap
  · split at h
    · simp only [Trapping.bind_eq_ok_iff] at h
      obtain ⟨⟨swapped, swap⟩, hswap, ⟨added, add⟩, hadd, h⟩ := h
      cases h
      exact (swapOwnerData_sameBinding hswap).trans
        (withAuthenticator_sameBinding (fun _ => addOwnerData_sameBinding) hadd)
    · split at h
      · simp only [Trapping.bind_eq_ok_iff] at h
        obtain ⟨⟨swapped, swap⟩, hswap, ⟨removed, remove⟩, hremove, h⟩ := h
        cases h
        exact (swapOwnerData_sameBinding hswap).trans (removeOwnerData_sameBinding hremove)
      · split at h
        · simp only [Trapping.bind_eq_ok_iff] at h
          obtain ⟨⟨swapped, swap⟩, hswap, ⟨second, swap'⟩, hsecond, h⟩ := h
          cases h
          exact (swapOwnerData_sameBinding hswap).trans
            (withAuthenticator_sameBinding (fun _ => swapOwnerData_sameBinding) hsecond)
        · cases h

theorem buildTransactionData_sameBinding
    (h : builder.buildTransactionData services calls now = .ok builder') :
    builder.SameBinding builder' := by
  unfold buildTransactionData at h
  split at h
  · cases h
    exact ⟨rfl, rfl, rfl, rfl⟩
  · cases h
    exact ⟨rfl, rfl, rfl, rfl⟩
  · simp only [Trapping.bind_eq_ok_iff] at h
    obtain ⟨address, -, h⟩ := h
    cases h
    exact ⟨rfl, rfl, rfl, rfl⟩

end Calls

theorem buildData_sameBinding (h : builder.buildData services now = .ok builder') :
    builder.SameBinding builder' := by
  simp only [buildData, Trapping.bind_eq_ok_iff] at h
  obtain ⟨⟨planned, calls⟩, hplanned, h⟩ := h
  exact (plannedCalls_sameBinding hplanned).trans (buildTransactionData_sameBinding h)

theorem sealTransaction_sameBinding
    (h : builder.sealTransaction services store now = .ok builder') :
    builder.SameBinding builder' := by
  simp only [sealTransaction, Trapping.bind_eq_ok_iff] at h
  obtain ⟨hash, -, tx, hproceed, h⟩ := h
  cases h
  have hkept := Transaction.proceed_keeps hproceed
  exact ⟨hkept.accountID, hkept.sender, rfl, rfl⟩

theorem signWith_sameBinding {role : OwnerRole}
    (h : builder.signWith services store role now = .ok (some builder')) :
    builder.SameBinding builder' := by
  simp only [signWith, Trapping.bind_eq_ok_iff] at h
  obtain ⟨owner, -, h⟩ := h
  split at h
  · cases h
  · simp only [Trapping.bind_eq_ok_iff] at h
    obtain ⟨hash, -, h⟩ := h
    cases h
    obtain ⟨signatures, date, hadd⟩ := Transaction.add_spec builder.transaction
      ⟨services.kit.sign hash _, _⟩ now
    exact ⟨by rw [hadd], by rw [hadd], rfl, rfl⟩

theorem sign_sameBinding (h : builder.sign services store now = .ok builder') :
    builder.SameBinding builder' := by
  simp only [sign, Trapping.bind_eq_ok_iff] at h
  obtain ⟨first, hfirst, h⟩ := h
  cases first with
  | none =>
      cases h
      exact .refl builder
  | some signed =>
      have hsigned := signWith_sameBinding hfirst
      simp only at h
      split at h
      · simp only [Trapping.bind_eq_ok_iff] at h
        obtain ⟨second, hsecond, h⟩ := h
        cases h
        cases second with
        | none => exact hsigned
        | some signed' => exact hsigned.trans (signWith_sameBinding hsecond)
      · cases h
        exact hsigned

/-- What the builder saves for a wallet: nothing, or another version of the wallet with its
address and a transaction of its own. -/
def Saved (wallet : Wallet) (store store' : Store) : Prop :=
  store' = store ∨ ∃ (version : Wallet) (tx : Transaction), version.id = wallet.id ∧
    version.address = wallet.address ∧ tx.accountID.walletID = wallet.id ∧
    tx.sender = wallet.address ∧
    store' = { store with
      wallets := store.wallets.save version
      transactions := store.transactions.store tx }

theorem SameBinding.saved (h : builder.SameBinding builder')
    (haccount : builder.transaction.accountID.walletID = builder.wallet.id)
    (hsender : builder.transaction.sender = builder.wallet.address) :
    Saved builder.wallet store (builder'.save store) := by
  unfold save
  split
  · exact .inl rfl
  · exact .inr ⟨builder'.wallet, builder'.transaction, h.walletID, h.address,
      by rw [h.accountID, haccount], by rw [h.sender, hsender], rfl⟩

/-- The pulled transaction belongs to the wallet. -/
theorem pullData_binding {wallet : Wallet} {balancesUpdated : Bool}
    (h : pullData services store wallet now balancesUpdated = .ok (some builder)) :
    builder.wallet.id = wallet.id ∧ builder.wallet.address = wallet.address ∧
      builder.transaction.accountID.walletID = wallet.id ∧
      builder.transaction.sender = wallet.address := by
  obtain ⟨walletAddress, transaction, owners, threshold, ownerList, -, -, -, -, hnew, rfl⟩ :=
    pullData_spec h
  simp only [newTransaction, AccountID.make, Trapping.bind_eq_ok_iff] at hnew
  obtain ⟨accountID, ⟨_, -, haccount⟩, hnew⟩ := hnew
  cases haccount
  cases hnew
  rw [withRemote_eq]
  exact ⟨rfl, rfl, rfl, rfl⟩

variable {store' : Store} {balancesUpdated : Bool}

theorem complete_saved {answer : Option EstimateTransactionResponse}
    (haccount : builder.transaction.accountID.walletID = builder.wallet.id)
    (hsender : builder.transaction.sender = builder.wallet.address)
    (h : builder.complete services answer now store = .ok store') :
    Saved builder.wallet store store' := by
  simp only [complete, Trapping.bind_eq_ok_iff] at h
  obtain ⟨estimation, -, h⟩ := h
  cases estimation with
  | none =>
      cases h
      exact .inl rfl
  | some estimation =>
      simp only [Trapping.bind_eq_ok_iff] at h
      obtain ⟨sealed, hsealed, signed, hsigned, h⟩ := h
      cases h
      have hfees : builder.SameBinding (builder.calculateFees store estimation now) :=
        ⟨rfl, rfl, rfl, rfl⟩
      have hsame := (hfees.trans (sealTransaction_sameBinding hsealed)).trans
        (sign_sameBinding hsigned)
      exact hsame.saved haccount hsender

theorem build_saved
    (h : build services balancesUpdated now store = .ok store') :
    ∃ wallet, store.selectedWallet = some wallet ∧ Saved wallet store store' := by
  simp only [build, Trapping.bind_eq_ok_iff, Trapping.unwrap_eq_ok_iff] at h
  obtain ⟨wallet, hwallet, pulled, hpulled, h⟩ := h
  refine ⟨wallet, hwallet, ?_⟩
  cases pulled with
  | none =>
      cases h
      exact .inl rfl
  | some builder =>
      simp only [Trapping.bind_eq_ok_iff] at h
      obtain ⟨built, hbuilt, h⟩ := h
      cases h
      obtain ⟨hid, haddress, haccount, hsender⟩ := pullData_binding hpulled
      have hsaved : Saved builder.wallet store (built.save store) :=
        (buildData_sameBinding hbuilt).saved (haccount.trans hid.symm)
          (hsender.trans haddress.symm)
      rwa [Saved, hid, haddress] at hsaved

theorem main_saved {answer : Option EstimateTransactionResponse}
    (h : main services balancesUpdated answer now store = .ok store') :
    ∃ wallet, store.selectedWallet = some wallet ∧ Saved wallet store store' := by
  simp only [main, Trapping.bind_eq_ok_iff, Trapping.unwrap_eq_ok_iff] at h
  obtain ⟨wallet, hwallet, pulled, hpulled, h⟩ := h
  refine ⟨wallet, hwallet, ?_⟩
  cases pulled with
  | none =>
      cases h
      exact .inl rfl
  | some builder =>
      simp only at h
      split at h
      · simp only [Trapping.bind_eq_ok_iff] at h
        obtain ⟨built, hbuilt, h⟩ := h
        obtain ⟨hid, haddress, haccount, hsender⟩ := pullData_binding hpulled
        have hsame := buildData_sameBinding hbuilt
        have hsaved : Saved built.wallet store store' := by
          apply complete_saved _ _ h
          · rw [hsame.accountID, hsame.walletID, haccount, hid]
          · rw [hsame.sender, hsame.address, hsender, haddress]
        rwa [Saved, hsame.walletID, hsame.address, hid, haddress] at hsaved
      · cases h
        exact .inl rfl

end RecoveryTransactionBuilder

namespace RecoveryDomainService

variable (services : Services)

/-- The recovery transaction of the selected wallet is removed. -/
def removeRecoveryTransaction (store : Store) : Trapping Store := do
  let wallet ← Trapping.unwrap store.selectedWallet
  match store.transactions.findType .walletRecovery wallet.id with
  | none => return store
  | some tx => return { store with transactions := store.transactions.remove tx.id }

/-- `estimateRecoveryTransaction()`: the transaction it leaves. -/
def estimateRecoveryTransaction (balancesUpdated : Bool) (now : Date) (store : Store) :
    Trapping Store := do
  let store ← removeRecoveryTransaction store
  RecoveryTransactionBuilder.build services balancesUpdated now store

/-- `createRecoveryTransaction()`. -/
def createRecoveryTransaction (balancesUpdated : Bool)
    (answer : Option EstimateTransactionResponse) (now : Date) (store : Store) :
    Trapping Store := do
  let store ← removeRecoveryTransaction store
  RecoveryTransactionBuilder.main services balancesUpdated answer now store

end RecoveryDomainService

end SafeWallet
