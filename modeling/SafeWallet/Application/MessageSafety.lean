/-
# What messages can do to stored transactions

Two guarantees are expected of the message handlers: a message that the wallet's
authenticator did not sign changes no stored transaction, and a proposal that is
accepted is not dangerous. Both fail for proposals. An unsigned proposal with the
hash of a stored transaction removes that transaction, because it is refused after
the lookup; and the check for dangerous calls reads the transaction as it was
stored before, while the proposal has only been applied in memory.
-/

import SafeWallet.Application.Messages

namespace SafeWallet

namespace WalletApplication

open EthereumKit (bytes)

variable (services : Services) (store : Store) (now : Date)

/-! ## Unsigned messages -/

/-- The wallet a message is about knows an authenticator, and the message is
signed by it. -/
def SignedByAuthenticator : Message → Prop
  | .confirmed message => ∃ tx wallet,
      store.transactions.findHashStatus message.hash .signing = some tx ∧
      store.wallets.find tx.accountID.walletID = some wallet ∧
      (signedBy services wallet message.hash message.signature).isSome
  | .rejected message => ∃ tx wallet,
      store.transactions.findHashStatus message.hash .signing = some tx ∧
      store.wallets.find tx.accountID.walletID = some wallet ∧
      (signedBy services wallet (rejectionHash services message.hash) message.signature).isSome
  | .send message => ∃ wallet, store.findWallet message.safe = some wallet ∧
      (signedBy services wallet message.hash message.signature).isSome

/-- The message proposes a transaction of a known wallet under the hash of a
stored one that is not yet submitted and that the check lets pass. -/
def HitsStoredTransaction : Message → Prop
  | .send message => (∃ wallet, store.findWallet message.safe = some wallet) ∧
      ∃ tx, store.transactions.findHash message.hash = some tx ∧
        (tx.status = .draft ∨ tx.status = .signing) ∧
        ∃ accounts, TransactionService.isDangerous services store tx.id now = .ok (accounts, false)
  | _ => False

/-- The same transactions are stored, with the same fields. -/
def SameTransactions (store store' : Store) : Prop :=
  ∀ id, store'.transactions.find id = store.transactions.find id

variable {services store now}

/-- A decision is traced to a transaction only if it is signed. -/
theorem decidedTransaction_eq_none {message : TransactionDecisionMessage} {hash : Data}
    (h : ¬ ∃ tx wallet, store.transactions.findHashStatus message.hash .signing = some tx ∧
      store.wallets.find tx.accountID.walletID = some wallet ∧
      (signedBy services wallet hash message.signature).isSome) :
    decidedTransaction services store message hash = none := by
  cases hdecided : decidedTransaction services store message hash with
  | none => rfl
  | some found =>
      simp only [decidedTransaction, Option.bind_eq_bind, Option.bind_eq_some_iff] at hdecided
      obtain ⟨tx, htx, wallet, hwallet, extensionAddress, hsigned, -⟩ := hdecided
      exact absurd ⟨tx, wallet, htx, hwallet, by simp [hsigned]⟩ h

/-- A new draft, which is no call yet, is never dangerous. -/
theorem isDangerous_draft {wallet : Wallet} {accountID : AccountID} {tx : Transaction}
    {transactions : Transactions} {accounts accounts' : Accounts} {answer : Bool}
    (htx : tx = draft services store wallet accountID now)
    (h : TransactionService.isDangerous services
      { store with transactions := transactions.save tx, accounts := accounts } tx.id now =
        .ok (accounts', answer)) : answer = false := by
  have hplain : ∀ a, tx.isDangerous a = false := by
    intro a
    simp [htx, draft, Transaction.new, Transaction.isDangerous]
  have hbatch : TransactionService.batchArguments services tx = .ok none := by
    simp [htx, draft, Transaction.new, TransactionService.batchArguments]
  simp only [TransactionService.isDangerous, Table.find_save_self] at h
  split at h
  · cases h; rfl
  · split at h
    · cases h; rfl
    · simp only [TransactionService.batchedTransactions, hbatch, Trapping.ok_bind,
        Trapping.pure_eq_ok, Except.ok.injEq, Prod.mk.injEq] at h
      rw [← h.2, hplain]

/-- An unsigned proposal either leaves the stored transactions as they are or
removes the one it hits. -/
theorem handleSend_unsigned {message : SendTransactionMessage} {store' : Store}
    {result : Except WalletApplicationServiceError (Option TransactionID)}
    (h : handleSend services store message now = .ok (store', result))
    (hunsigned : ¬ SignedByAuthenticator services store (.send message)) :
    SameTransactions store store' ↔ ¬ HitsStoredTransaction services store now (.send message) := by
  rcases handleSend_spec h with ⟨hwallet, rfl, -⟩ | ⟨wallet, store₁, tx₁, hwallet, hopen, hrest⟩
  · simp [SameTransactions, HitsStoredTransaction, hwallet]
  have hsigned : signedBy services wallet message.hash message.signature = none := by
    cases hs : signedBy services wallet message.hash message.signature with
    | none => rfl
    | some a => exact absurd ⟨wallet, hwallet, by simp [hs]⟩ hunsigned
  rcases messageTransaction_spec hopen with ⟨hfound, rfl⟩ | ⟨hfound, ⟨accountID, -, hdraft⟩, rfl⟩
  · -- The transaction was stored before.
    have hstored : store₁.transactions.find tx₁.id = some tx₁ :=
      Table.find_of_mem (Transactions.findHash_spec hfound).1
    rcases hrest with ⟨hne, hne', rfl, -⟩ | ⟨hediting, store₂, tx₂, accounts, dangerous, hupdate,
      hdangerous, hexit⟩
    · simp [SameTransactions, HitsStoredTransaction, hfound, hne, hne']
    obtain ⟨accounts₂, amount, feeEstimate, fee, rfl, rfl⟩ := updateMessage_spec hupdate
    have hanswer : ∃ a, TransactionService.isDangerous services store₁ tx₁.id now =
        .ok (a, dangerous) := (TransactionService.isDangerous_accounts _ _ _ _).mp ⟨_, hdangerous⟩
    rcases hexit with ⟨rfl, rfl, -⟩ | ⟨rfl, id, -, haccept⟩
    · simp only [SameTransactions, implies_true, true_iff]
      rintro ⟨-, tx, htx, -, accounts', hsafe⟩
      obtain rfl : tx₁ = tx := Option.some.inj (hfound.symm.trans htx)
      obtain ⟨accounts'', hdanger⟩ := hanswer
      rw [hdanger] at hsafe
      cases hsafe
    · rcases acceptMessage_spec haccept with ⟨rfl, -⟩ | ⟨a, _, _, ha, -⟩
      · have hhits : HitsStoredTransaction services store₁ now (.send message) :=
          ⟨⟨wallet, hwallet⟩, tx₁, hfound, hediting, hanswer⟩
        simp only [hhits, not_true_eq_false, iff_false]
        intro hsame
        have := hsame tx₁.id
        rw [hstored] at this
        simp [Table.find_remove] at this
      · rw [hsigned] at ha
        cases ha
  · -- A draft was made for the message.
    have hmiss : ¬ HitsStoredTransaction services store now (.send message) := by
      rintro ⟨-, tx, htx, -⟩
      rw [hfound] at htx
      cases htx
    simp only [hmiss, not_false_eq_true, iff_true]
    rcases hrest with ⟨hne, -⟩ | ⟨-, store₂, tx₂, accounts, dangerous, hupdate, hdangerous, hexit⟩
    · exact absurd (by rw [hdraft]; rfl) hne
    obtain ⟨accounts₂, amount, feeEstimate, fee, rfl, rfl⟩ := updateMessage_spec hupdate
    have hsafe : dangerous = false := isDangerous_draft hdraft hdangerous
    rcases hexit with ⟨hdanger, -⟩ | ⟨-, id, -, haccept⟩
    · rw [hsafe] at hdanger
      cases hdanger
    · rcases acceptMessage_spec haccept with ⟨rfl, -⟩ | ⟨a, _, _, ha, -⟩
      · intro id
        have hnew : store.transactions.find tx₁.id = none := by
          rw [hdraft]
          exact store.find_nextTransactionID services
        rw [Table.remove_save_of_find_eq_none hnew]
      · rw [hsigned] at ha
        cases ha

/-- A message without the authenticator's signature leaves the stored transactions
as they are exactly if it does not hit a stored transaction. -/
theorem unsigned_sameTransactions_iff {message : Message} {store' : Store}
    {result : Except WalletApplicationServiceError (Option TransactionID)}
    (h : receive services store message now = .ok (store', result))
    (hunsigned : ¬ SignedByAuthenticator services store message) :
    SameTransactions store store' ↔ ¬ HitsStoredTransaction services store now message := by
  cases message with
  | confirmed message =>
      have hnone := decidedTransaction_eq_none hunsigned
      simp only [receive, handleConfirmed, hnone, Trapping.pure_eq_ok, Trapping.ok_bind] at h
      cases h
      simp [SameTransactions, HitsStoredTransaction]
  | rejected message =>
      have hnone := decidedTransaction_eq_none hunsigned
      simp only [receive, handleRejected, hnone, Trapping.pure_eq_ok, Trapping.ok_bind] at h
      cases h
      simp [SameTransactions, HitsStoredTransaction]
  | send message => exact handleSend_unsigned h hunsigned

/-! ## Accepted proposals -/

/-- A stored transaction is not dangerous for its wallet: neither by its own
fields, or because it is a batch without dangerous sub-transactions. -/
def StoredSafely (services : Services) (store : Store) (id : TransactionID) (now : Date) : Prop :=
  ∃ tx, store.transactions.find id = some tx ∧
    ∀ wallet walletAddress, store.wallets.find tx.accountID.walletID = some wallet →
      wallet.address = some walletAddress →
      tx.isDangerous walletAddress = false ∨
        ∃ accounts subs, TransactionService.batchedTransactions services store tx wallet.id now =
          .ok (accounts, some subs) ∧ ∀ sub ∈ subs, sub.isDangerous walletAddress = false

/-- The wallet of the transaction a proposal ends up in: the one with its hash,
or a new one of the proposal's wallet. -/
def targetWallet (store : Store) (message : SendTransactionMessage) : Option Wallet :=
  match store.transactions.findHash message.hash with
  | some tx => store.wallets.find tx.accountID.walletID
  | none => store.findWallet message.safe

/-- The type of that transaction. -/
def targetType (store : Store) (message : SendTransactionMessage) : TransactionType :=
  match store.transactions.findHash message.hash with
  | some tx => tx.type
  | none => .transfer

/-- The proposed call is a plain call that does not send data to the address shown
as the wallet's, or it fills a stored batch with calls that look harmless. -/
def Harmless (services : Services) (store : Store) (message : SendTransactionMessage)
    (walletAddress : Address) : Prop :=
  let recipient := shownRecipient services message.requiredData
  (message.operation = .call ∧ (recipient ≠ walletAddress ∨ message.data = [])) ∨
    (targetType store message = .batched ∧ message.operation = .delegateCall ∧
      message.data ≠ [] ∧ MultiSend.isMultiSend services.metadata.multiSend recipient ∧
      ∃ calls, MultiSend.decodeMultiSendArguments services.kit
          services.metadata.multiSendContractAddress services.metadata.multiSend recipient
          message.data = .ok (some calls) ∧
        ∀ call ∈ calls, TransactionService.Showable services store call ∧
          ¬ TransactionService.looksDangerous services call walletAddress)

/-- The fields a proposal leaves in the transaction it ends up in. -/
structure CarriesProposal (services : Services) (store : Store) (message : SendTransactionMessage)
    (tx : Transaction) : Prop where
  type : tx.type = targetType store message
  operation : tx.operation = some message.operation
  recipient : tx.recipient = some (shownRecipient services message.requiredData)
  data : tx.data = (some message.data).filter (· ≠ [])

/-- The checks on a transaction that carries a proposal are checks on the
proposal. -/
theorem CarriesProposal.safe_iff {message : SendTransactionMessage} {tx : Transaction}
    (h : CarriesProposal services store message tx) {store' : Store}
    (htokens : store'.tokenListItems = store.tokenListItems) (walletID : WalletID)
    (walletAddress : Address) :
    (tx.isDangerous walletAddress = false ∨
      ∃ accounts subs, TransactionService.batchedTransactions services store' tx walletID now =
        .ok (accounts, some subs) ∧ ∀ sub ∈ subs, sub.isDangerous walletAddress = false) ↔
      Harmless services store message walletAddress := by
  rw [TransactionService.exists_batchedTransactions_iff]
  simp only [TransactionService.showable_congr htokens]
  apply or_congr
  · by_cases hempty : message.data = []
    · simp [Transaction.isDangerous, Transaction.hasData, h.operation, h.recipient, h.data, hempty,
        Option.filter_some]
    · simp [Transaction.isDangerous, Transaction.hasData, h.operation, h.recipient, h.data, hempty,
        Option.filter_some]
  · simp only [TransactionService.batchArguments, TransactionService.isMultiSend, h.type,
      h.operation, h.recipient, h.data, Option.filter_some]
    by_cases hempty : message.data = []
    · simp [hempty]
    · simp only [hempty, ne_eq, not_false_eq_true, decide_true, ↓reduceIte, Option.isSome_some,
        true_and, Option.some.injEq, Option.any_some, decide_eq_true_eq]
      constructor
      · rintro ⟨calls, hcalls, hsafe⟩
        split at hcalls
        · rename_i hmulti
          exact ⟨hmulti.1, hmulti.2.1, hmulti.2.2, calls, hcalls, hsafe⟩
        · cases hcalls
      · rintro ⟨htype, hoperation, hmulti, calls, hcalls, hsafe⟩
        exact ⟨calls, by rw [if_pos ⟨htype, hoperation, hmulti⟩, hcalls], hsafe⟩

/-- What an accepted proposal stores. -/
theorem handleSend_accepted {message : SendTransactionMessage} {store' : Store}
    {id : TransactionID} (h : handleSend services store message now = .ok (store', .ok (some id))) :
    ∃ tx, store'.transactions.find id = some tx ∧ CarriesProposal services store message tx ∧
      store'.wallets.find tx.accountID.walletID = targetWallet store message ∧
      store'.tokenListItems = store.tokenListItems := by
  rcases handleSend_spec h with ⟨-, -, h⟩ | ⟨wallet, store₁, tx₁, hwallet, hopen, hrest⟩
  · cases h
  rcases hrest with ⟨-, -, -, h⟩ | ⟨-, store₂, tx₂, accounts, dangerous, hupdate, -, hexit⟩
  · cases h
  rcases hexit with ⟨-, -, h⟩ | ⟨-, id', hid, haccept⟩
  · cases h
  cases hid
  obtain ⟨accounts₂, amount, feeEstimate, fee, rfl, rfl⟩ := updateMessage_spec hupdate
  rcases acceptMessage_spec haccept with ⟨-, h⟩ | ⟨a, proceeded, signed, -, -, hproceed, hsigned,
    rfl, hresult⟩
  · cases h
  have hfields : signed.id = tx₁.id ∧ signed.type = tx₁.type ∧ signed.accountID = tx₁.accountID ∧
      signed.operation = some message.operation ∧ signed.data = some message.data ∧
      signed.recipient = some (shownRecipient services message.requiredData) := by
    have hproceeded := Transaction.proceed_of_draft hproceed rfl
    obtain ⟨signatures, date, hadd⟩ := proceeded.add_spec
      ⟨services.kit.calculateSignature message.signature, a⟩ now
    rw [hsigned, hadd, hproceeded]
    simp
  obtain ⟨hsid, htype, haccount, hoperation, hdata, hrecipient⟩ := hfields
  refine ⟨Transactions.persisted signed, ?_, ?_, ?_, ?_⟩
  · rw [Option.some.inj hresult]
    exact Table.find_save_self
  · refine ⟨?_, hoperation, hrecipient, by simp [Transactions.persisted, hdata]⟩
    show signed.type = _
    rcases messageTransaction_spec hopen with ⟨hfound, -⟩ | ⟨hfound, ⟨_, -, hdraft⟩, -⟩
    · rw [htype, targetType, hfound]
    · rw [htype, targetType, hfound, hdraft]
      rfl
  · show store₁.wallets.find signed.accountID.walletID = _
    rw [haccount]
    rcases messageTransaction_spec hopen with ⟨hfound, rfl⟩ | ⟨hfound, ⟨_, hid, hdraft⟩, rfl⟩
    · rw [targetWallet, hfound]
    · have hmem : wallet ∈ store.wallets.rows := List.mem_of_find?_eq_some hwallet
      rw [targetWallet, hfound, hdraft]
      show store.wallets.find _ = _
      rw [hwallet, ← Table.find_of_mem hmem, ← hid]
      rfl
  · rcases messageTransaction_spec hopen with ⟨-, rfl⟩ | ⟨-, -, rfl⟩ <;> rfl

/-- An accepted proposal is stored safely exactly if the call it proposes is
harmless for the wallet it ends up with. -/
theorem accepted_storedSafely_iff {message : SendTransactionMessage} {store' : Store}
    {id : TransactionID} (h : handleSend services store message now = .ok (store', .ok (some id))) :
    StoredSafely services store' id now ↔
      ∀ wallet walletAddress, targetWallet store message = some wallet →
        wallet.address = some walletAddress → Harmless services store message walletAddress := by
  obtain ⟨tx, hfind, hcarries, hwallet, htokens⟩ := handleSend_accepted h
  constructor
  · rintro ⟨tx', hfind', hsafe⟩ wallet walletAddress htarget haddress
    obtain rfl : tx = tx' := Option.some.inj (hfind.symm.trans hfind')
    exact (hcarries.safe_iff htokens wallet.id walletAddress).mp
      (hsafe wallet walletAddress (hwallet.trans htarget) haddress)
  · intro hharmless
    refine ⟨tx, hfind, fun wallet walletAddress hfound haddress => ?_⟩
    exact (hcarries.safe_iff htokens wallet.id walletAddress).mpr
      (hharmless wallet walletAddress (hwallet.symm.trans hfound) haddress)

/-! ## A recorded exchange -/

/-- The data that is hashed for a call of the recorded exchange. -/
def recordedValueData (value operation : ℕ) (dataHash : Data) : Data :=
  [EncryptionService.defaultTxTypeHash,
    ContractProxy.encodeUInt 0x6810e776880c02933d47db1b9fc05908e5386b96,
    ContractProxy.encodeUInt value, dataHash, ContractProxy.encodeUInt operation,
    ContractProxy.encodeUInt 21000, ContractProxy.encodeUInt 5000, ContractProxy.encodeUInt 1,
    ContractProxy.encodeUInt 0, ContractProxy.encodeUInt 0, ContractProxy.encodeUInt 0].flatten

/-- The hash of a `delegateCall` with data `0102`. -/
def delegateCallHash : Data :=
  bytes 32 0xb981da56dbe78ee1851c8da7c35c18500278979e8f5b2bfb7b64b4715871be30

/-- Its signature by the authenticator. -/
def delegateCallSignature : EthSignature :=
  ⟨0xdf194b493ae83a9662753a62d997ae470dc416693c1e7fa248370181dcfaf6b6,
    0x7333c183b87f62e0122e6164876e1ab06839d39014bf0b7154853c8b54826422, 27⟩

/-- The hash of a transfer of one wei. -/
def transferHash : Data :=
  bytes 32 0x28ef172f89b4b58b8bfa50e9a3f9b331c42ca7f4327f7ad18d6c2e3192c51265

/-- Its signature by the authenticator. -/
def transferSignature : EthSignature :=
  ⟨0x8650e4f71b6d8155c2671607d24332dc18cc37d2f8137a884e81356732b2bbbf,
    0x1256cb01bdce667e27dda14c9df73a02b88083e5de121141fe198e56e0343d5c, 28⟩

/-- The signature of the same hash by another key. -/
def foreignSignature : EthSignature :=
  ⟨0xad3c2e0776fd05eb9ea09795c28f064cb3ca84a043f453282711c6cd5f17535f,
    0x389b3475a5c1f42fbb602f45f7ac14d80a5ad2c92eec7711da76e00bb26c727a, 27⟩

/-- What the library computes in the exchange. -/
def exchangeKit : EthereumKit := .ofRecording
  { hashes :=
      [(ContractProxy.ascii "transfer(address,uint256)",
        bytes 32 0xa9059cbb2ab09eb219583f4a59a5d0623ade346d962bcd4e46b11da047c9049b),
      (EncryptionService.defaultDomainSeparatorTypeHash ++
          ContractProxy.encodeUInt 0x5aaeb6053f3e94c9b9a09f33669435e7ef1beaed,
        bytes 32 0x8ae276c23bfd4f25180adb7df405e67416b906bf213fe587cd2994bc92e6607f),
      ([0x01, 0x02],
        bytes 32 0x22ae6da6b482f9b1b19b0b897c3fd43884180a1c5ee361e1107a1bc635649dda),
      ([], bytes 32 0xc5d2460186f7233c927e7db2dcc703c0e500b653ca82273b7bfad8045d85a470),
      (recordedValueData 0 1
          (bytes 32 0x22ae6da6b482f9b1b19b0b897c3fd43884180a1c5ee361e1107a1bc635649dda),
        bytes 32 0xf9afc82457bf4ec0785a3b102c6bfd5d631aef5eba97b1dbeaa592e08488e15c),
      (recordedValueData 1 0
          (bytes 32 0xc5d2460186f7233c927e7db2dcc703c0e500b653ca82273b7bfad8045d85a470),
        bytes 32 0x861aec9fd86399b014fb8c2485671e321bd16ab4038dde7cac21e5650f70da80),
      ([0x19, 0x01] ++
          bytes 32 0x8ae276c23bfd4f25180adb7df405e67416b906bf213fe587cd2994bc92e6607f ++
          bytes 32 0xf9afc82457bf4ec0785a3b102c6bfd5d631aef5eba97b1dbeaa592e08488e15c,
        delegateCallHash),
      ([0x19, 0x01] ++
          bytes 32 0x8ae276c23bfd4f25180adb7df405e67416b906bf213fe587cd2994bc92e6607f ++
          bytes 32 0x861aec9fd86399b014fb8c2485671e321bd16ab4038dde7cac21e5650f70da80,
        transferHash)]
    checksums :=
      [(bytes 20 0x2b5ad5c4795c026514f8317c7a215e218dccd6cf,
        "2B5AD5c4795c026514f8317c7a215E218DcCD6cF".toList),
      (bytes 20 0x6813eb9362372eef6200f3b1dbc3f819671cba69,
        "6813Eb9362372EEF6200f3b1dbC3f819671cBA69".toList)]
    signers :=
      [((delegateCallHash, delegateCallSignature),
        bytes 20 0x2b5ad5c4795c026514f8317c7a215e218dccd6cf),
      ((transferHash, transferSignature), bytes 20 0x2b5ad5c4795c026514f8317c7a215e218dccd6cf),
      ((transferHash, foreignSignature), bytes 20 0x6813eb9362372eef6200f3b1dbc3f819671cba69)]
    signatures := [] }

/-- Services of the exchange. -/
def exchangeServices : Services := .offline exchangeKit ⟨Address.zero, [], []⟩

/-- A wallet with an authenticator. -/
def exchangeWallet : Wallet where
  id := "wallet"
  state := .readyToUse
  owners := [⟨⟨"0x2B5AD5c4795c026514f8317c7a215E218DcCD6cF"⟩, .browserExtension⟩]
  address := some ⟨"0x5aAeb6053F3E94C9b9A09f33669435E7Ef1BeAed"⟩
  feePaymentTokenAddress := none
  confirmationCount := 2
  masterCopyAddress := none

/-- The transfer of one wei, proposed and signed by the authenticator. -/
def transferMessage : SendTransactionMessage where
  hash := transferHash
  safe := ⟨"0x5aAeb6053F3E94C9b9A09f33669435E7Ef1BeAed"⟩
  toAddress := ⟨"0x6810e776880C02933D47DB1b9fc05908e5386b96"⟩
  value := 1
  data := []
  operation := .call
  txGas := 21000
  dataGas := 5000
  operationalGas := 0
  gasPrice := 1
  gasToken := Address.zero
  nonce := 0
  signature := transferSignature

/-- A `delegateCall`, proposed and signed by the authenticator. -/
def delegateCallMessage : SendTransactionMessage :=
  { transferMessage with
    hash := delegateCallHash
    value := 0
    data := [0x01, 0x02]
    operation := .delegateCall
    signature := delegateCallSignature }

/-- The wallet without transactions. -/
def exchangeStore : Store := .ofWallets (Table.empty.save exchangeWallet) Table.empty

/-- The draft a proposal of the exchange is written to. -/
def exchangeDraft : Transaction :=
  draft exchangeServices exchangeStore exchangeWallet ⟨Token.Ether.id, exchangeWallet.id⟩ 0

/-- The repositories with that draft. -/
def exchangeDraftStore : Store :=
  { exchangeStore with transactions := exchangeStore.transactions.save exchangeDraft }

/-- A proposal of the exchange under a new hash is decided by its hash and
signature. -/
theorem exchange_handleSend (message : SendTransactionMessage)
    (hsafe : message.safe = transferMessage.safe) (hgas : message.gasToken = Address.zero)
    (hplain : ¬ ERC20.HasTransferHead exchangeKit message.data) :
    handleSend exchangeServices exchangeStore message 0 =
      (acceptMessage exchangeServices exchangeDraftStore exchangeWallet
        (plainProposal exchangeDraft message 0) message 0).map
        fun result => (result.1, .ok result.2) := by
  have hwallet : exchangeStore.findWallet message.safe = some exchangeWallet := by
    rw [hsafe]
    decide
  have hopen : messageTransaction exchangeServices exchangeStore exchangeWallet message 0 =
      .ok (exchangeDraftStore, exchangeDraft) := messageTransaction_of_new rfl hplain
  have hdraft : TransactionService.isDangerous exchangeServices exchangeDraftStore
      exchangeDraft.id 0 = .ok (exchangeDraftStore.accounts, false) := by
    have hfind : exchangeDraftStore.transactions.find exchangeDraft.id = some exchangeDraft :=
      Table.find_save_self
    have hfindWallet : exchangeDraftStore.wallets.find exchangeDraft.accountID.walletID =
        some exchangeWallet := by decide
    exact TransactionService.isDangerous_of_not_batch hfind hfindWallet rfl rfl
  have := handleSend_of_plain hwallet hopen (.inl rfl) hplain hgas hdraft
  exact this

/-- The authenticator of the exchange. -/
def exchangeExtension : Owner :=
  ⟨⟨"0x2B5AD5c4795c026514f8317c7a215E218DcCD6cF"⟩, .browserExtension⟩

theorem exchangeExtension_wellFormed : exchangeExtension.address.WellFormed := by decide

/-- A proposal with its own hash and the authenticator's signature is accepted. -/
theorem exchange_accepts (message : SendTransactionMessage)
    (hsafe : message.safe = transferMessage.safe) (hgas : message.gasToken = Address.zero)
    (hplain : ¬ ERC20.HasTransferHead exchangeKit message.data)
    (hhash : EncryptionService.hash exchangeServices exchangeDraftStore
      (plainProposal exchangeDraft message 0) = .ok message.hash)
    (hsigner : exchangeKit.publicKeyAddress message.hash message.signature =
      some (bytes 20 0x2b5ad5c4795c026514f8317c7a215e218dccd6cf)) :
    ∃ store' id, handleSend exchangeServices exchangeStore message 0 =
      .ok (store', .ok (some id)) := by
  have hsigned : signedBy exchangeServices exchangeWallet message.hash message.signature =
      some exchangeExtension.address := by
    have howner : exchangeWallet.owner .browserExtension = some exchangeExtension := rfl
    rw [signedBy_of_recovered hsigner howner exchangeExtension_wellFormed]
    exact if_pos (by decide)
  obtain ⟨store', id, haccept⟩ :=
    acceptMessage_of_signed hhash hsigned exchangeExtension_wellFormed
  refine ⟨store', id, ?_⟩
  rw [exchange_handleSend message hsafe hgas hplain, haccept]
  rfl

/-- The transfer as it waits for the device's signature. -/
def waitingTransfer : Transaction :=
  { plainProposal exchangeDraft transferMessage 0 with
    status := .signing
    signatures := [⟨exchangeKit.calculateSignature transferSignature, exchangeExtension.address⟩]
    data := none
    hash := some transferHash }

/-- The wallet with that transaction. -/
def waitingStore : Store :=
  .ofWallets (Table.empty.save exchangeWallet) (Table.empty.save waitingTransfer)

/-- A copy of the proposal signed by another key. -/
def foreignMessage : SendTransactionMessage :=
  { transferMessage with signature := foreignSignature }

/-- The copy is not signed by the authenticator. -/
theorem signedBy_foreignMessage : signedBy exchangeServices exchangeWallet foreignMessage.hash
    foreignMessage.signature = none := by
  have hsigner : exchangeKit.publicKeyAddress foreignMessage.hash foreignMessage.signature =
      some (bytes 20 0x6813eb9362372eef6200f3b1dbc3f819671cba69) := by decide
  have howner : exchangeWallet.owner .browserExtension = some exchangeExtension := rfl
  rw [signedBy_of_recovered hsigner howner exchangeExtension_wellFormed]
  exact if_neg (by decide)

theorem findWallet_waitingStore :
    waitingStore.findWallet foreignMessage.safe = some exchangeWallet := by decide

theorem not_signedByAuthenticator_foreignMessage (store : Store)
    (hwallet : store.findWallet foreignMessage.safe = some exchangeWallet) :
    ¬ SignedByAuthenticator exchangeServices store (.send foreignMessage) := by
  rintro ⟨wallet, hfound, hsigned⟩
  obtain rfl : exchangeWallet = wallet := Option.some.inj (hwallet.symm.trans hfound)
  rw [signedBy_foreignMessage] at hsigned
  cases hsigned

/-- The hashes of the two proposals are those of their fields. -/
theorem exchange_hashes :
    EncryptionService.hash exchangeServices exchangeDraftStore
      (plainProposal exchangeDraft delegateCallMessage 0) = .ok delegateCallHash ∧
    EncryptionService.hash exchangeServices exchangeDraftStore
      (plainProposal exchangeDraft transferMessage 0) = .ok transferHash := by
  decide +kernel

/-- The `delegateCall` is accepted and stored, although it is dangerous. -/
theorem delegateCallMessage_accepted_dangerous :
    ∃ store' id, handleSend exchangeServices exchangeStore delegateCallMessage 0 =
        .ok (store', .ok (some id)) ∧ ¬ StoredSafely exchangeServices store' id 0 := by
  obtain ⟨store', id, h⟩ := exchange_accepts delegateCallMessage rfl rfl (by decide)
    exchange_hashes.1 (by decide)
  refine ⟨store', id, h, ?_⟩
  obtain ⟨tx, hfind, hcarries, hwallet, htokens⟩ := handleSend_accepted h
  rintro ⟨tx', hfind', hsafe⟩
  obtain rfl : tx = tx' := Option.some.inj (hfind.symm.trans hfind')
  have hharmless := (hcarries.safe_iff htokens _ _).mp
    (hsafe exchangeWallet _ (hwallet.trans (by decide)) rfl)
  rcases hharmless with ⟨hcall, -⟩ | ⟨htype, -⟩
  · cases hcall
  · exact absurd htype (by decide)

/-- The transfer is accepted and stored safely. -/
theorem transferMessage_accepted_storedSafely :
    ∃ store' id, handleSend exchangeServices exchangeStore transferMessage 0 =
        .ok (store', .ok (some id)) ∧ StoredSafely exchangeServices store' id 0 := by
  obtain ⟨store', id, h⟩ := exchange_accepts transferMessage rfl rfl (by decide)
    exchange_hashes.2 (by decide)
  exact ⟨store', id, h, (accepted_storedSafely_iff h).mpr fun _ _ _ _ => .inl ⟨rfl, .inr rfl⟩⟩

/-- The copy is refused, and the waiting transaction is gone. -/
theorem foreignMessage_removes_waitingTransfer :
    ¬ SignedByAuthenticator exchangeServices waitingStore (.send foreignMessage) ∧
      ∃ store', receive exchangeServices waitingStore (.send foreignMessage) 0 =
          .ok (store', .ok none) ∧ ¬ SameTransactions waitingStore store' := by
  refine ⟨not_signedByAuthenticator_foreignMessage waitingStore findWallet_waitingStore, ?_⟩
  have hopen : messageTransaction exchangeServices waitingStore exchangeWallet foreignMessage 0 =
      .ok (waitingStore, waitingTransfer) := by
    have hfound : waitingStore.transactions.findHash foreignMessage.hash = some waitingTransfer := by
      decide
    simp only [messageTransaction, hfound, Trapping.pure_eq_ok]
  have hstored : waitingStore.transactions.find waitingTransfer.id = some waitingTransfer :=
    Table.find_save_self
  have hsafe : TransactionService.isDangerous exchangeServices waitingStore waitingTransfer.id 0 =
      .ok (waitingStore.accounts, false) := by
    have hfindWallet : waitingStore.wallets.find waitingTransfer.accountID.walletID =
        some exchangeWallet := by decide
    have hcall : waitingTransfer.isDangerous
        ⟨"0x5aAeb6053F3E94C9b9A09f33669435E7Ef1BeAed"⟩ = false := by decide
    rw [TransactionService.isDangerous_of_not_batch hstored hfindWallet rfl rfl, hcall]
  have hhash : EncryptionService.hash exchangeServices waitingStore
      (plainProposal waitingTransfer foreignMessage 0) = .ok foreignMessage.hash :=
    exchange_hashes.2
  have hsend : handleSend exchangeServices waitingStore foreignMessage 0 =
      (acceptMessage exchangeServices waitingStore exchangeWallet
        (plainProposal waitingTransfer foreignMessage 0) foreignMessage 0).map
        fun result => (result.1, .ok result.2) := by
    have hplain : ¬ ERC20.HasTransferHead exchangeKit foreignMessage.data := by decide
    have := handleSend_of_plain findWallet_waitingStore hopen (.inr rfl) hplain rfl hsafe
    exact this
  have hrefused : acceptMessage exchangeServices waitingStore exchangeWallet
      (plainProposal waitingTransfer foreignMessage 0) foreignMessage 0 =
        .ok ({ waitingStore with
          transactions := waitingStore.transactions.remove waitingTransfer.id }, none) :=
    acceptMessage_of_unsigned hhash signedBy_foreignMessage
  refine ⟨{ waitingStore with
    transactions := waitingStore.transactions.remove waitingTransfer.id }, ?_, fun hsame => ?_⟩
  · rw [receive, hsend, hrefused]
    rfl
  · have hremoved : (waitingStore.transactions.remove waitingTransfer.id).find waitingTransfer.id =
        none := Table.find_remove.trans (if_pos rfl)
    have hkept := hsame waitingTransfer.id
    rw [hstored, hremoved] at hkept
    cases hkept

/-- Under a new hash the copy only opens a draft and drops it again. -/
theorem foreignMessage_sameTransactions :
    ∃ store', receive exchangeServices exchangeStore (.send foreignMessage) 0 =
        .ok (store', .ok none) ∧ SameTransactions exchangeStore store' := by
  have hhash : EncryptionService.hash exchangeServices exchangeDraftStore
      (plainProposal exchangeDraft foreignMessage 0) = .ok foreignMessage.hash :=
    exchange_hashes.2
  have hrefused : acceptMessage exchangeServices exchangeDraftStore exchangeWallet
      (plainProposal exchangeDraft foreignMessage 0) foreignMessage 0 =
        .ok ({ exchangeDraftStore with
          transactions := exchangeDraftStore.transactions.remove exchangeDraft.id }, none) :=
    acceptMessage_of_unsigned hhash signedBy_foreignMessage
  have hreceive : receive exchangeServices exchangeStore (.send foreignMessage) 0 =
      .ok ({ exchangeDraftStore with
        transactions := exchangeDraftStore.transactions.remove exchangeDraft.id }, .ok none) := by
    rw [receive, exchange_handleSend foreignMessage rfl rfl (by decide), hrefused]
    rfl
  refine ⟨_, hreceive, (unsigned_sameTransactions_iff hreceive ?_).mpr ?_⟩
  · exact not_signedByAuthenticator_foreignMessage exchangeStore (by decide)
  · rintro ⟨-, tx, htx, -⟩
    cases htx

end WalletApplication

end SafeWallet
