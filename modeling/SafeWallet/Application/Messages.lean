/-
# Messages of the authenticator

Push messages confirm or reject a transaction that waits for the authenticator's
signature, or propose a new one. `handle(message:)` is translated for each kind;
a proposal is applied to a copy in memory, and the repository is written only at
the exits. The steps of a proposal are kept as functions of their own, so that
each exit can be traced to the step it belongs to.
-/

import SafeWallet.Transaction.Hash
import SafeWallet.Transaction.TransactionService

namespace SafeWallet

/-- `SendTransactionRequiredData`. -/
structure SendTransactionRequiredData where
  fromAddress : Address
  toAddress : Address
  value : ℤ
  data : Data
  deriving DecidableEq, Repr

/-- `SendTransactionMessage`. -/
structure SendTransactionMessage where
  hash : Data
  safe : Address
  toAddress : Address
  value : ℤ
  data : Data
  operation : WalletOperation
  txGas : ℤ
  dataGas : ℤ
  operationalGas : ℤ
  gasPrice : ℤ
  gasToken : Address
  nonce : ℤ
  signature : EthSignature
  deriving DecidableEq, Repr

/-- The call a message proposes, sent by the wallet. -/
def SendTransactionMessage.requiredData (message : SendTransactionMessage) :
    SendTransactionRequiredData :=
  ⟨message.safe, message.toAddress, message.value, message.data⟩

/-- `TransactionDecisionMessage`. -/
structure TransactionDecisionMessage where
  hash : Data
  signature : EthSignature
  deriving DecidableEq, Repr

/-- The messages that are handled. -/
inductive Message
  | confirmed (message : TransactionDecisionMessage)
  | rejected (message : TransactionDecisionMessage)
  | send (message : SendTransactionMessage)

/-- `WalletApplicationServiceError`, as far as it is thrown here. -/
inductive WalletApplicationServiceError
  | validationFailed
  | failedToSignTransactionByDevice
  deriving DecidableEq, Repr

namespace WalletApplication

variable (services : Services)

/-! ## Drafts -/

/-- `tokenAddress(toAddress:data:)`. -/
def tokenAddress (toAddress : Address) (data : Data) : Trapping Address := do
  match ← ERC20.decodedTransfer services.kit data with
  | some _ => return toAddress
  | none => return Token.Ether.address

/-- A new draft: only the sender is set. -/
def draft (store : Store) (wallet : Wallet) (accountID : AccountID) (now : Date) : Transaction :=
  { Transaction.new (store.nextTransactionID services) .transfer accountID now with
    sender := wallet.address }

/-- `newDraftTransaction(in:token:)`, with the transaction read back. -/
def newDraftTransaction (store : Store) (wallet : Wallet) (token : Address) (now : Date) :
    Trapping (Store × Transaction) := do
  let accountID ← AccountID.make token.value wallet.id
  let tx := draft services store wallet accountID now
  return ({ store with transactions := store.transactions.store tx }, Transactions.persisted tx)

/-- `update(transaction:with:)` for the call alone. -/
def updateCall (store : Store) (tx : Transaction) (data : SendTransactionRequiredData)
    (now : Date) : Trapping (Store × Transaction) := do
  let tx := { tx with
    sender := some data.fromAddress
    recipient := some data.toAddress
    data := some data.data
    amount := some (TokenAmount.ether data.value)
    updatedDate := some now }
  let (accounts, tx) ←
    TokenService.enhanceWithERC20Data services store tx data.toAddress data.data now
  return ({ store with accounts := accounts }, tx)

/-- `createDraftTransaction(in:sendTransactionData:)`. -/
def createDraftTransaction (store : Store) (wallet : Wallet) (data : SendTransactionRequiredData)
    (now : Date) : Trapping (Store × TransactionID) := do
  let token ← tokenAddress services data.toAddress data.data
  let (store, tx) ← newDraftTransaction services store wallet token now
  let (store, tx) ← updateCall services store tx data now
  return ({ store with transactions := store.transactions.store tx }, tx.id)

/-! ## Proposals -/

/-- `estimation(_:)`. -/
def estimation (store : Store) (message : SendTransactionMessage) :
    Trapping (Store × TransactionFeeEstimate) := do
  let (accounts, feeToken) ← TokenService.token services store message.gasToken
  return ({ store with accounts := accounts },
    ⟨message.txGas, message.dataGas, message.operationalGas, ⟨message.gasPrice, feeToken⟩⟩)

/-- `fee(_:)`, which looks the token up again. -/
def fee (store : Store) (message : SendTransactionMessage) : Trapping (Store × TokenAmount) := do
  let (store, estimation) ← estimation services store message
  return (store, ⟨(estimation.gas + estimation.dataGas) * estimation.gasPrice.amount,
    estimation.gasPrice.token⟩)

/-- `update(transaction:with:)` for a whole message. -/
def updateMessage (store : Store) (tx : Transaction) (message : SendTransactionMessage)
    (now : Date) : Trapping (Store × Transaction) := do
  let (store, tx) ← updateCall services store tx message.requiredData now
  let (store, feeEstimate) ← estimation services store message
  let (store, fee) ← fee services store message
  return (store, { tx with
    operation := some message.operation
    feeEstimate := some feeEstimate
    fee := some fee
    nonce := some message.nonce
    updatedDate := some now })

/-- The transaction a message is about: the stored one with its hash, or a new
draft. -/
def messageTransaction (store : Store) (wallet : Wallet) (message : SendTransactionMessage)
    (now : Date) : Trapping (Store × Transaction) :=
  match store.transactions.findHash message.hash with
  | some tx => return (store, tx)
  | none => do
    let token ← tokenAddress services message.toAddress message.data
    newDraftTransaction services store wallet token now

/-- `sender.value.lowercased() == extensionAddress.lowercased()`, for the signer
of a hash and the wallet's authenticator. -/
def signedBy (wallet : Wallet) (hash : Data) (signature : EthSignature) : Option Address := do
  let sender ← services.kit.recoveredAddress hash signature
  let owner ← wallet.owner .browserExtension
  if sender.normalized = owner.address.normalized then return owner.address else none

/-- The exits of `handle(message:)` behind the check for dangerous transactions. -/
def acceptMessage (store : Store) (wallet : Wallet) (tx : Transaction)
    (message : SendTransactionMessage) (now : Date) :
    Trapping (Store × Option TransactionID) := do
  let refused := { store with transactions := store.transactions.remove tx.id }
  let hash ← EncryptionService.hash services store tx
  if hash ≠ message.hash then return (refused, none)
  else
    match signedBy services wallet message.hash message.signature with
    | none => return (refused, none)
    | some extensionAddress =>
      let tx ← Transaction.proceed { tx with hash := some hash, updatedDate := some now } now
      let address ← Address.make extensionAddress.value
      let tx := tx.add ⟨services.kit.calculateSignature message.signature, address⟩ now
      return ({ store with transactions := store.transactions.store tx }, some tx.id)

/-- `if transaction.status == .signing { transaction.stepBack() }`. -/
def reopened (tx : Transaction) : Trapping Transaction :=
  if tx.status = .signing then tx.stepBack else return tx

/-- `handle(message: SendTransactionMessage)`. -/
def handleSend (store : Store) (message : SendTransactionMessage) (now : Date) :
    Trapping (Store × Except WalletApplicationServiceError (Option TransactionID)) :=
  match store.findWallet message.safe with
  | none => return (store, .ok none)
  | some wallet => do
    let (store, tx) ← messageTransaction services store wallet message now
    let tx ← reopened tx
    if tx.status ≠ .draft then return (store, .ok none)
    else do
      let (store, tx) ← updateMessage services store tx message now
      let (accounts, dangerous) ← TransactionService.isDangerous services store tx.id now
      let store := { store with accounts := accounts }
      if dangerous then return (store, .error .validationFailed)
      else do
        let (store, result) ← acceptMessage services store wallet tx message now
        return (store, .ok result)

/-! ## Decisions -/

/-- `transaction(from:hash:)`: the waiting transaction a message is about, with
its wallet's authenticator, if that signed the given hash. -/
def decidedTransaction (store : Store) (message : TransactionDecisionMessage) (hash : Data) :
    Option (Transaction × Address) := do
  let tx ← store.transactions.findHashStatus message.hash .signing
  let wallet ← store.wallets.find tx.accountID.walletID
  let extensionAddress ← signedBy services wallet hash message.signature
  return (tx, extensionAddress)

/-- `handle(message: TransactionConfirmedMessage)`. -/
def handleConfirmed (store : Store) (message : TransactionDecisionMessage) (now : Date) :
    Trapping (Store × Option TransactionID) :=
  match decidedTransaction services store message message.hash with
  | none => return (store, none)
  | some (tx, extensionAddress) => do
    let address ← Address.make extensionAddress.value
    let tx := tx.add ⟨services.kit.calculateSignature message.signature, address⟩ now
    return ({ store with transactions := store.transactions.store tx }, some tx.id)

/-- What the authenticator signs to reject a transaction. -/
def rejectionHash (hash : Data) : Data :=
  services.kit.hashSHA3_256 (ContractProxy.ascii "GNO0x" ++
    hash.toHexString.map (fun c => UInt8.ofNat c.toNat) ++ ContractProxy.ascii "rejectTransaction")

/-- `handle(message: TransactionRejectedMessage)`. -/
def handleRejected (store : Store) (message : TransactionDecisionMessage) (now : Date) :
    Trapping (Store × Option TransactionID) :=
  match decidedTransaction services store message (rejectionHash services message.hash) with
  | none => return (store, none)
  | some (tx, _) => do
    let tx ← tx.reject now
    return ({ store with transactions := store.transactions.store tx }, some tx.id)

/-- `receive(message:)`. -/
def receive (store : Store) (message : Message) (now : Date) :
    Trapping (Store × Except WalletApplicationServiceError (Option TransactionID)) :=
  match message with
  | .confirmed message => do
    let (store, result) ← handleConfirmed services store message now
    return (store, .ok result)
  | .rejected message => do
    let (store, result) ← handleRejected services store message now
    return (store, .ok result)
  | .send message => handleSend services store message now

/-! ## What the steps do -/

section Steps

variable {services} {store : Store} {wallet : Wallet} {now : Date}

/-- A new draft is saved under a new identifier and nothing else is written. -/
theorem newDraftTransaction_spec {token : Address} {result : Store × Transaction}
    (h : newDraftTransaction services store wallet token now = .ok result) :
    ∃ tx, tx = draft services store wallet ⟨token.value, wallet.id⟩ now ∧
      result = ({ store with transactions := store.transactions.save tx }, tx) := by
  simp only [newDraftTransaction, AccountID.make, Trapping.bind_eq_ok_iff] at h
  obtain ⟨accountID, ⟨_, -, haccount⟩, h⟩ := h
  cases haccount
  cases h
  exact ⟨_, rfl, rfl⟩

/-- The recipient a request is shown with: for a token transfer the
beneficiary. -/
def shownRecipient (services : Services) (request : SendTransactionRequiredData) : Address :=
  if ERC20.IsTransfer services.kit request.data then
    (ERC20.transferArguments services.kit request.data).1
  else request.toAddress

/-- Applying a request writes accounts only and sets the fields of the call. -/
theorem updateCall_spec {tx tx' : Transaction} {request : SendTransactionRequiredData}
    {store' : Store} (h : updateCall services store tx request now = .ok (store', tx')) :
    ∃ accounts amount, store' = { store with accounts := accounts } ∧
      tx' = { tx with
        sender := some request.fromAddress
        recipient := some (shownRecipient services request)
        data := some request.data
        amount := some amount
        updatedDate := some now } := by
  simp only [updateCall, TokenService.enhanceWithERC20Data, ERC20.decodedTransfer_eq,
    Trapping.bind_eq_ok_iff] at h
  obtain ⟨⟨accounts, updated⟩, ⟨transfer, htransfer, hupdated⟩, h⟩ := h
  cases h
  split at htransfer
  · cases htransfer
  · simp only [Except.ok.injEq] at htransfer
    split at htransfer
    · rename_i his
      subst htransfer
      simp only [Trapping.bind_eq_ok_iff] at hupdated
      obtain ⟨⟨accounts', token⟩, -, hupdated⟩ := hupdated
      cases hupdated
      exact ⟨accounts', ⟨_, token⟩, rfl, by simp only [shownRecipient, his, ↓reduceIte]; rfl⟩
    · rename_i his
      subst htransfer
      cases hupdated
      exact ⟨store.accounts, .ether request.value, rfl, by simp only [shownRecipient, his, ↓reduceIte]⟩

/-- Applying a message writes accounts only, sets the fields of the call, the
operation, the gas terms and the nonce, and keeps everything else. -/
theorem updateMessage_spec {tx tx' : Transaction} {message : SendTransactionMessage}
    {store' : Store} (h : updateMessage services store tx message now = .ok (store', tx')) :
    ∃ accounts amount feeEstimate fee, store' = { store with accounts := accounts } ∧
      tx' = { tx with
        sender := some message.safe
        recipient := some (shownRecipient services message.requiredData)
        data := some message.data
        amount := some amount
        operation := some message.operation
        feeEstimate := some feeEstimate
        fee := some fee
        nonce := some message.nonce
        updatedDate := some now } := by
  simp only [updateMessage, estimation, fee, Trapping.bind_eq_ok_iff] at h
  obtain ⟨⟨store₁, tx₁⟩, hcall, ⟨store₂, estimate⟩, ⟨⟨accounts₂, token⟩, -, hestimate⟩,
    ⟨store₃, fee⟩, ⟨⟨store₄, estimate'⟩, ⟨⟨accounts₄, token'⟩, -, hestimate'⟩, hfee⟩, h⟩ := h
  obtain ⟨accounts, amount, rfl, rfl⟩ := updateCall_spec hcall
  cases hestimate
  cases hestimate'
  cases hfee
  cases h
  exact ⟨_, amount, _, _, rfl, rfl⟩

/-- A message is about the stored transaction with its hash or about a new
draft. -/
theorem messageTransaction_spec {message : SendTransactionMessage} {store' : Store}
    {tx : Transaction} (h : messageTransaction services store wallet message now = .ok (store', tx)) :
    (store.transactions.findHash message.hash = some tx ∧ store' = store) ∨
      (store.transactions.findHash message.hash = none ∧
        (∃ accountID, accountID.walletID = wallet.id ∧
          tx = draft services store wallet accountID now) ∧
        store' = { store with transactions := store.transactions.save tx }) := by
  unfold messageTransaction at h
  split at h
  · rename_i found hfound
    cases h
    exact .inl ⟨hfound, rfl⟩
  · rename_i hfound
    simp only [Trapping.bind_eq_ok_iff] at h
    obtain ⟨token, -, hdraft⟩ := h
    obtain ⟨tx', rfl, heq⟩ := newDraftTransaction_spec hdraft
    cases heq
    exact .inr ⟨hfound, ⟨_, rfl, rfl⟩, rfl⟩

/-- The exits of a proposal behind the check: it is refused and its transaction
removed, or its signed transaction is stored. -/
theorem acceptMessage_spec {tx : Transaction} {message : SendTransactionMessage} {store' : Store}
    {result : Option TransactionID}
    (h : acceptMessage services store wallet tx message now = .ok (store', result)) :
    (store' = { store with transactions := store.transactions.remove tx.id } ∧ result = none) ∨
      ∃ extensionAddress tx' signed, signedBy services wallet message.hash message.signature =
          some extensionAddress ∧
        EncryptionService.hash services store tx = .ok message.hash ∧
        Transaction.proceed { tx with hash := some message.hash, updatedDate := some now } now =
          .ok tx' ∧
        signed = tx'.add ⟨services.kit.calculateSignature message.signature, extensionAddress⟩ now ∧
        store' = { store with transactions := store.transactions.store signed } ∧
        result = some signed.id := by
  simp only [acceptMessage, Trapping.bind_eq_ok_iff] at h
  obtain ⟨hash, hhash, h⟩ := h
  split at h
  · cases h
    exact .inl ⟨rfl, rfl⟩
  · rename_i heq
    have heq : hash = message.hash := by simpa using heq
    subst heq
    split at h
    · cases h
      exact .inl ⟨rfl, rfl⟩
    · rename_i extensionAddress hsigned
      simp only [Trapping.bind_eq_ok_iff] at h
      obtain ⟨tx', hproceed, address, haddress, h⟩ := h
      have haddress : address = extensionAddress := by
        simp only [Address.make, Trapping.bind_eq_ok_iff] at haddress
        obtain ⟨_, -, _, -, haddress⟩ := haddress
        cases haddress
        rfl
      subst haddress
      cases h
      exact .inr ⟨address, tx', _, hsigned, hhash, hproceed, rfl, rfl, rfl⟩

/-- The outcomes of a proposal. -/
theorem handleSend_spec {message : SendTransactionMessage} {store' : Store}
    {result : Except WalletApplicationServiceError (Option TransactionID)}
    (h : handleSend services store message now = .ok (store', result)) :
    (store.findWallet message.safe = none ∧ store' = store ∧ result = .ok none) ∨
      ∃ wallet store₁ tx₁, store.findWallet message.safe = some wallet ∧
        messageTransaction services store wallet message now = .ok (store₁, tx₁) ∧
        ((tx₁.status ≠ .draft ∧ tx₁.status ≠ .signing ∧ store' = store₁ ∧ result = .ok none) ∨
          ((tx₁.status = .draft ∨ tx₁.status = .signing) ∧
            ∃ store₂ tx₂ accounts dangerous,
              updateMessage services store₁ { tx₁ with status := .draft } message now =
                .ok (store₂, tx₂) ∧
              TransactionService.isDangerous services store₂ tx₂.id now =
                .ok (accounts, dangerous) ∧
              ((dangerous = true ∧ store' = { store₂ with accounts := accounts } ∧
                  result = .error .validationFailed) ∨
                (dangerous = false ∧ ∃ id, result = .ok id ∧
                  acceptMessage services { store₂ with accounts := accounts } wallet tx₂ message
                    now = .ok (store', id))))) := by
  unfold handleSend at h
  split at h
  · rename_i hwallet
    cases h
    exact .inl ⟨hwallet, rfl, rfl⟩
  · rename_i wallet hwallet
    simp only [Trapping.bind_eq_ok_iff] at h
    obtain ⟨⟨store₁, tx₁⟩, hopen, tx, hstep, h⟩ := h
    refine .inr ⟨wallet, store₁, tx₁, hwallet, hopen, ?_⟩
    have hstatus : (tx₁.status ≠ .draft ∧ tx₁.status ≠ .signing ∧ tx.status ≠ .draft) ∨
        ((tx₁.status = .draft ∨ tx₁.status = .signing) ∧ tx = { tx₁ with status := .draft }) := by
      unfold reopened at hstep
      split at hstep
      · rename_i hsigning
        rw [Transaction.stepBack, hsigning] at hstep
        cases hstep
        exact .inr ⟨.inr hsigning, rfl⟩
      · rename_i hsigning
        cases hstep
        by_cases hdraft : tx₁.status = .draft
        · refine .inr ⟨.inl hdraft, ?_⟩
          rw [← hdraft]
        · exact .inl ⟨hdraft, hsigning, hdraft⟩
    rcases hstatus with ⟨hdraft, hsigning, hother⟩ | ⟨hediting, rfl⟩
    · simp only [hother, ne_eq, not_false_eq_true, ↓reduceIte] at h
      cases h
      exact .inl ⟨hdraft, hsigning, rfl, rfl⟩
    · simp only [ne_eq, not_true_eq_false, ↓reduceIte, Trapping.bind_eq_ok_iff] at h
      obtain ⟨⟨store₂, tx₂⟩, hupdate, ⟨accounts, dangerous⟩, hdangerous, h⟩ := h
      refine .inr ⟨hediting, store₂, tx₂, accounts, dangerous, hupdate, hdangerous, ?_⟩
      cases dangerous with
      | true =>
          cases h
          exact .inl ⟨rfl, rfl, rfl⟩
      | false =>
          simp only [Bool.false_eq_true, ↓reduceIte, Trapping.bind_eq_ok_iff] at h
          obtain ⟨⟨store₃, id⟩, haccept, h⟩ := h
          cases h
          exact .inr ⟨rfl, id, rfl, haccept⟩

/-! ## Proposals of plain calls

A call that does not start like a token transfer and pays its gas in Ether needs
no token lookups, so every step can be computed. -/

/-- The fields such a proposal sets. -/
def plainProposal (tx : Transaction) (message : SendTransactionMessage) (now : Date) :
    Transaction :=
  { tx with
    status := .draft
    sender := some message.safe
    recipient := some message.toAddress
    data := some message.data
    amount := some (TokenAmount.ether message.value)
    operation := some message.operation
    feeEstimate := some ⟨message.txGas, message.dataGas, message.operationalGas,
      ⟨message.gasPrice, Token.Ether⟩⟩
    fee := some ⟨(message.txGas + message.dataGas) * message.gasPrice, Token.Ether⟩
    nonce := some message.nonce
    updatedDate := some now }

variable {message : SendTransactionMessage}

theorem decodedTransfer_of_not_head (hplain : ¬ ERC20.HasTransferHead services.kit message.data) :
    ERC20.decodedTransfer services.kit message.data = .ok none := by
  rw [ERC20.decodedTransfer_eq, if_neg fun h => hplain h.1, if_neg fun h => hplain h.1]

/-- A plain proposal under a new hash opens a draft, which the check lets pass. -/
theorem messageTransaction_of_new (hnew : store.transactions.findHash message.hash = none)
    (hplain : ¬ ERC20.HasTransferHead services.kit message.data) :
    messageTransaction services store wallet message now =
      .ok ({ store with
        transactions := store.transactions.save
          (draft services store wallet ⟨Token.Ether.id, wallet.id⟩ now) },
        draft services store wallet ⟨Token.Ether.id, wallet.id⟩ now) := by
  simp only [messageTransaction, hnew, tokenAddress, decodedTransfer_of_not_head hplain,
    Trapping.ok_bind, Trapping.pure_eq_ok]
  rfl

/-- Behind the check, a plain proposal is decided by its hash and signature. -/
theorem handleSend_of_plain {store₁ : Store} {tx₁ : Transaction} {accounts : Accounts}
    (hwallet : store.findWallet message.safe = some wallet)
    (hopen : messageTransaction services store wallet message now = .ok (store₁, tx₁))
    (hediting : tx₁.status = .draft ∨ tx₁.status = .signing)
    (hplain : ¬ ERC20.HasTransferHead services.kit message.data)
    (hgas : message.gasToken = Address.zero)
    (hsafe : TransactionService.isDangerous services store₁ tx₁.id now = .ok (accounts, false)) :
    handleSend services store message now =
      (acceptMessage services { store₁ with accounts := accounts } wallet
        (plainProposal tx₁ message now) message now).map fun result => (result.1, .ok result.2) := by
  have hreopened : reopened tx₁ = .ok { tx₁ with status := .draft } := by
    rcases hediting with hdraft | hsigning
    · rw [← hdraft, reopened, if_neg (by simp [hdraft])]
      rfl
    · simp only [reopened, hsigning, ↓reduceIte, Transaction.stepBack, Trapping.pure_eq_ok]
  have htoken : ∀ s : Store, TokenService.token services s message.gasToken =
      .ok (s.accounts, Token.Ether) := by
    intro s
    rw [hgas]
    rfl
  have hupdate : updateMessage services store₁ { tx₁ with status := .draft } message now =
      .ok (store₁, plainProposal tx₁ message now) := by
    simp only [updateMessage, updateCall, TokenService.enhanceWithERC20Data,
      SendTransactionMessage.requiredData, decodedTransfer_of_not_head hplain, estimation, fee,
      htoken, Trapping.ok_bind, Trapping.pure_eq_ok]
    rfl
  simp only [handleSend, hwallet, hopen, Trapping.ok_bind, hreopened, ne_eq, not_true_eq_false,
    ↓reduceIte, hupdate]
  rw [show (plainProposal tx₁ message now).id = tx₁.id from rfl, hsafe]
  simp only [Trapping.ok_bind, Bool.false_eq_true, ↓reduceIte]
  cases acceptMessage services { store₁ with accounts := accounts } wallet
    (plainProposal tx₁ message now) message now <;> rfl

/-- The signer is compared with the authenticator by the number of its address. -/
theorem signedBy_of_recovered {hash : Data} {signature : EthSignature} {signer : Data}
    {owner : Owner} (hrecovered : services.kit.publicKeyAddress hash signature = some signer)
    (howner : wallet.owner .browserExtension = some owner) (hwf : owner.address.WellFormed) :
    signedBy services wallet hash signature =
      if signer.toNat = owner.address.toUInt then some owner.address else none := by
  obtain ⟨hsigner, hvalue⟩ :=
    services.kit.checksummed_spec (services.kit.publicKeyAddress_length hrecovered)
  simp only [signedBy, EthereumKit.recoveredAddress, hrecovered, Option.map_some, howner,
    Option.bind_eq_bind, Option.bind_some, Address.normalized_eq_iff hsigner hwf, hvalue,
    Option.pure_def]

/-- A plain proposal with its own hash and the authenticator's signature is
accepted. -/
theorem acceptMessage_of_signed {tx : Transaction} {extensionAddress : Address}
    (hhash : EncryptionService.hash services store (plainProposal tx message now) =
      .ok message.hash)
    (hsigned : signedBy services wallet message.hash message.signature = some extensionAddress)
    (hwf : extensionAddress.WellFormed) :
    ∃ store' id, acceptMessage services store wallet (plainProposal tx message now) message now =
      .ok (store', some id) := by
  simp only [acceptMessage, hhash, Trapping.ok_bind, ne_eq, not_true_eq_false, ↓reduceIte, hsigned]
  obtain ⟨tx', hproceed⟩ : ∃ tx', Transaction.proceed { plainProposal tx message now with
      hash := some message.hash, updatedDate := some now } now = .ok tx' := ⟨_, rfl⟩
  simp only [hproceed, hwf.make, Trapping.ok_bind]
  exact ⟨_, _, rfl⟩

/-- Without the signature its transaction is removed. -/
theorem acceptMessage_of_unsigned {tx : Transaction}
    (hhash : EncryptionService.hash services store tx = .ok message.hash)
    (hsigned : signedBy services wallet message.hash message.signature = none) :
    acceptMessage services store wallet tx message now =
      .ok ({ store with transactions := store.transactions.remove tx.id }, none) := by
  simp only [acceptMessage, hhash, Trapping.ok_bind, ne_eq, not_true_eq_false, ↓reduceIte, hsigned,
    Trapping.pure_eq_ok]

end Steps

end WalletApplication

end SafeWallet
