/-
# Transactions and the wallets that send them

The sender of a transaction goes into the hash that is signed, and the contract accepts a
signature only for its own address. A stored draft should therefore name as its sender the
wallet of its account. Two paths break this: a dApp's request is copied with the sender that
it names, and a wallet whose address changes keeps the drafts made for the old one. The
synchronisation relies on the services it asks: a transaction that still has to be signed
is stored with the sender that is reported, and a refreshed wallet gets the reported address.
-/

import SafeWallet.Application.Drafts
import SafeWallet.Application.OutgoingTransactions
import SafeWallet.Transaction.Submission
import SafeWallet.Wallet.AddressBookRuns
import SafeWallet.Wallet.BackgroundRefresh
import SafeWallet.Wallet.Portfolio

namespace SafeWallet

namespace Store

variable {store store' : Store} {statuses : List TransactionStatus} {wallet : Wallet}
  {tx : Transaction}

/-- The sender of a transaction has the bytes of the address of the wallet of its account. -/
def Binds (store : Store) (tx : Transaction) : Prop :=
  ∃ wallet, store.wallets.find tx.accountID.walletID = some wallet ∧
    tx.sender.map Address.data = wallet.address.map Address.data

/-- All stored transactions with one of the statuses are bound to their wallets. -/
def Bound (statuses : List TransactionStatus) (store : Store) : Prop :=
  ∀ tx ∈ store.transactions.rows, tx.status ∈ statuses → store.Binds tx

/-- A wallet may get the address: it has its bytes already, or no transaction with one of the
statuses. -/
def MayMove (statuses : List TransactionStatus) (store : Store) (wallet : Wallet)
    (address : Address) : Prop :=
  wallet.address.map Address.data = some address.data ∨
    ∀ tx ∈ store.transactions.rows, tx.status ∈ statuses → tx.accountID.walletID ≠ wallet.id

/-- The hash that is signed for a bound transaction is one of its wallet. -/
theorem Binds.domainData (h : store.Binds tx) (services : Services) {sender : Address}
    (hsender : tx.sender = some sender) (hwf : sender.WellFormed) :
    ∃ wallet address, store.wallets.find tx.accountID.walletID = some wallet ∧
      wallet.address = some address ∧
      EncryptionService.domainData services store tx =
        .ok (EncryptionService.domainSeparatorTypeHash services store tx ++
          SubmitTransactionRequest.word address.toUInt) := by
  obtain ⟨wallet, hfind, hdata⟩ := h
  rw [hsender, Option.map_some, eq_comm, Option.map_eq_some_iff] at hdata
  obtain ⟨address, haddress, hdata⟩ := hdata
  refine ⟨wallet, address, hfind, haddress, ?_⟩
  have hvalue : address.toUInt = sender.toUInt := by rw [Address.toUInt, hdata, Address.toUInt]
  simp only [EncryptionService.domainData, hsender, Trapping.unwrap_some, Trapping.ok_bind,
    SubmitTransactionRequest.addressWord_eq_word hwf, Trapping.pure_eq_ok, hvalue]

/-! ## Writes -/

theorem Bound.of_eq (h : store.Bound statuses) (hwallets : store'.wallets = store.wallets)
    (htransactions : store'.transactions = store.transactions) : store'.Bound statuses := by
  intro tx htx hstatus
  rw [htransactions] at htx
  rw [Binds, hwallets]
  exact h tx htx hstatus

/-- A saved transaction is bound, if its status asks for it. -/
theorem Bound.saveRow (h : store.Bound statuses) (tx : Transaction)
    (htx : tx.status ∈ statuses → store.Binds tx) :
    Bound statuses { store with transactions := store.transactions.save tx } := by
  intro row hrow hstatus
  rcases Table.mem_rows_save.mp hrow with rfl | ⟨hold, -⟩
  · exact htx hstatus
  · exact h row hold hstatus

theorem Bound.saveTransaction (h : store.Bound statuses) (tx : Transaction)
    (htx : tx.status ∈ statuses → store.Binds tx) :
    Bound statuses { store with transactions := store.transactions.store tx } :=
  h.saveRow (Transactions.persisted tx) htx

theorem Bound.removeTransaction (h : store.Bound statuses) (id : TransactionID) :
    Bound statuses { store with transactions := store.transactions.remove id } := by
  intro row hrow hstatus
  exact h row (Table.mem_rows_remove.mp hrow).1 hstatus

/-- A wallet that is saved keeps its address, or it has no such transactions. -/
theorem Bound.saveWallet (h : store.Bound statuses)
    (hkeeps : ∀ old, store.wallets.find wallet.id = some old →
      wallet.address.map Address.data = old.address.map Address.data ∨
        ∀ tx ∈ store.transactions.rows, tx.status ∈ statuses →
          tx.accountID.walletID ≠ wallet.id) :
    Bound statuses { store with wallets := store.wallets.save wallet } := by
  intro tx htx hstatus
  obtain ⟨owner, hfind, hdata⟩ := h tx htx hstatus
  by_cases hsame : wallet.id = tx.accountID.walletID
  · rcases hkeeps owner (hsame ▸ hfind) with heq | hnone
    · refine ⟨wallet, ?_, hdata.trans heq.symm⟩
      rw [← hsame]
      exact Table.find_save_self
    · exact absurd hsame.symm (hnone tx htx hstatus)
  · refine ⟨owner, ?_, hdata⟩
    rw [Table.find_save, if_neg hsame, hfind]

/-- No such transaction belongs to an unused identifier. -/
theorem Bound.walletID_ne (h : store.Bound statuses) {walletID : WalletID}
    (hnew : walletID ∉ store.wallets.rows.map Wallet.id) :
    ∀ tx ∈ store.transactions.rows, tx.status ∈ statuses → tx.accountID.walletID ≠ walletID := by
  intro tx htx hstatus heq
  obtain ⟨owner, hfind, -⟩ := h tx htx hstatus
  obtain ⟨hmem, hid⟩ := Table.mem_of_find hfind
  apply hnew
  rw [← heq, ← hid]
  exact List.mem_map_of_mem hmem

/-- A removed wallet takes its transactions along. -/
theorem Bound.withoutWallet (h : store.Bound statuses) (walletID : WalletID) :
    (store.withoutWallet walletID).Bound statuses := by
  have hother : ∀ tx ∈ (store.withoutWallet walletID).transactions.rows,
      tx ∈ store.transactions.rows ∧ tx.accountID.walletID ≠ walletID := by
    intro tx htx
    have hnone : (store.withoutWallet walletID).transactions.findWallet walletID = [] :=
      removed_withoutWallet.2
    have hne : tx.accountID.walletID ≠ walletID := by
      intro hsame
      have hmem : tx ∈ (store.withoutWallet walletID).transactions.findWallet walletID :=
        List.mem_filter.mpr ⟨htx, decide_eq_true hsame⟩
      rw [hnone] at hmem
      cases hmem
    refine ⟨?_, hne⟩
    unfold Store.withoutWallet at htx
    split at htx <;> exact (Table.mem_rows_removeAll.mp htx).1
  intro tx htx hstatus
  obtain ⟨hrow, hne⟩ := hother tx htx
  obtain ⟨owner, hfind, hdata⟩ := h tx hrow hstatus
  refine ⟨owner, ?_, hdata⟩
  unfold Store.withoutWallet
  split
  · exact hfind
  · rename_i removed hremoved
    have hid : removed.id = walletID := (Table.mem_of_find hremoved).2
    have hfind' : (store.wallets.remove removed.id).find tx.accountID.walletID = some owner := by
      rw [Table.find_remove, if_neg (by rw [hid]; exact hne.symm), hfind]
    exact hfind'

end Store

/-- Drafts and transactions that are being signed. -/
def TransactionStatus.editable : List TransactionStatus := [.draft, .signing]

/-- Those and the rejected ones, which can be made drafts again. -/
def TransactionStatus.outgoing : List TransactionStatus := [.draft, .signing, .rejected]

open TransactionStatus (outgoing)
open DeploymentDomainService (creationRequest executeInWallet withContract addAddressBookEntry)

/-! ## Changes of wallets -/

section Wallets

variable {services : Services} {outside : Outside} {store store' : Store}

theorem Wallet.MovesTo.bound {wallet wallet' : Wallet} (h : wallet.MovesTo wallet' store store')
    (hbound : store.Bound outgoing)
    (hkeeps : ∀ old, store.wallets.find wallet.id = some old →
      wallet.address.map Address.data = old.address.map Address.data ∨
        ∀ tx ∈ store.transactions.rows, tx.status ∈ outgoing →
          tx.accountID.walletID ≠ wallet.id) : store'.Bound outgoing := by
  rcases h.stored with ⟨-, rfl⟩ | rfl
  · exact hbound
  · apply hbound.saveWallet
    have hsame := h.same
    rw [hsame]
    exact hkeeps

/-- What is pulled for a recovery does not touch the address. -/
theorem RecoveryDomainService.bound_pullWalletData (h : store.Bound outgoing)
    (hdone : pullWalletData services store = .ok store') : store'.Bound outgoing := by
  rcases pullWalletData_saved hdone with rfl | ⟨wallet, version, hfind, haddress, rfl⟩
  · exact h
  · apply h.saveWallet
    intro old hold
    left
    rw [hfind] at hold
    cases hold
    rw [haddress]

theorem RecoveryDomainService.bound_changeAddress {address : Address} (h : store.Bound outgoing)
    (hmay : ∀ wallet, store.selectedWallet = some wallet → validate services address store = true →
      store.MayMove outgoing wallet address)
    (hdone : changeAddress services address store = .ok store') : store'.Bound outgoing := by
  unfold changeAddress at hdone
  split at hdone
  · rename_i hvalid
    simp only [Trapping.bind_eq_ok_iff, Trapping.unwrap_eq_ok_iff,
      selectedWallet_removeOldAddressBookEntry] at hdone
    obtain ⟨wallet, hselected, hdone⟩ := hdone
    apply bound_pullWalletData _ hdone
    -- The entries of the address book do not matter.
    have htransactions : (removeOldAddressBookEntry store).transactions = store.transactions := by
      unfold removeOldAddressBookEntry
      split <;> rfl
    have hentry : (removeOldAddressBookEntry store).Bound outgoing :=
      h.of_eq wallets_removeOldAddressBookEntry htransactions
    have hsaved : Store.Bound outgoing { removeOldAddressBookEntry store with
        wallets := (removeOldAddressBookEntry store).wallets.save
          { wallet with address := some address } } := by
      apply hentry.saveWallet
      intro old hold
      rw [wallets_removeOldAddressBookEntry, find_selectedWallet hselected] at hold
      cases hold
      rw [htransactions]
      exact (hmay wallet hselected hvalid).imp (fun hsame => hsame.symm) fun hnone => hnone
    exact hsaved.of_eq rfl rfl
  · cases hdone
    exact h

namespace AddressOperation

/-- A wallet that gets another address has no outgoing transactions. -/
def MovesFreely (services : Services) (outside : Outside) (store : Store) : AddressOperation → Prop
  | deploymentStarted walletID => ∀ wallet response,
    store.wallets.find walletID = some wallet →
    outside.deployment.createSafeCreationTransaction
      (creationRequest wallet outside.deployment.randomSaltNonce) = .ok response →
    store.MayMove outgoing wallet response.safeAddress
  | changeAddress address => ∀ wallet, store.selectedWallet = some wallet →
    RecoveryDomainService.validate services address store = true →
    store.MayMove outgoing wallet address
  | _ => True

variable {services : Services} {outside : Outside} {store store' : Store}

theorem bound_saveNewWallet {wallet : Wallet} (h : store.Bound outgoing)
    (hnew : wallet.id ∉ store.wallets.rows.map Wallet.id) :
    Store.Bound outgoing { store with wallets := store.wallets.save wallet } :=
  h.saveWallet fun _ _ => .inr (h.walletID_ne hnew)

/-- The version of a stored wallet with its own address. -/
theorem keeps_of_find {wallet : Wallet} (hfind : store.wallets.find wallet.id = some wallet) :
    ∀ old, store.wallets.find wallet.id = some old →
      wallet.address.map Address.data = old.address.map Address.data ∨
        ∀ tx ∈ store.transactions.rows, tx.status ∈ outgoing →
          tx.accountID.walletID ≠ wallet.id := by
  intro old hold
  rw [hfind] at hold
  cases hold
  exact .inl rfl

theorem resume_bound {wallet : Wallet} {app app' : App}
    (hfind : app.store.wallets.find wallet.id = some wallet) (h : app.store.Bound outgoing)
    (hdone : wallet.resume.alone outside app = (.ok (), app')) : app'.store.Bound outgoing := by
  unfold Wallet.resume at hdone
  split at hdone
  case h_1 =>
    unfold Wallet.resumeDraft at hdone
    simp only at hdone
    split at hdone
    · split at hdone
      · cases hdone
        have hkeeps := keeps_of_find hfind
        exact h.saveWallet hkeeps
      · cases hdone
    · cases hdone
  all_goals
    cases hdone
    exact h

theorem deploymentStarted_bound {walletID : WalletID} (h : store.Bound outgoing)
    (hfree : (deploymentStarted walletID).MovesFreely services outside store)
    (hdone : (executeInWallet services .deploymentStarted walletID).ran outside store =
      .ok store') : store'.Bound outgoing := by
  obtain ⟨result, app, halone, rfl⟩ := Process.ran_eq_ok_iff.mp hdone
  rcases DeploymentDomainService.deploymentStarted_cases halone with
    hsame | ⟨wallet, wallet', hfind, hmoves | ⟨response, hanswer, hproceed⟩⟩
  · rw [hsame]
    exact h
  · have hid : wallet.id = walletID := (Table.mem_of_find hfind).2
    exact hmoves.bound h (keeps_of_find (hid ▸ hfind))
  · have hid : wallet.id = walletID := (Table.mem_of_find hfind).2
    have hmay := hfree wallet response hfind hanswer
    have hentry : ((App.ofStore store).modify
        (addAddressBookEntry services response.safeAddress)).store.Bound outgoing :=
      h.of_eq rfl rfl
    apply (Wallet.movesTo_of_proceed hproceed).bound hentry
    intro old hold
    have hsame : some wallet = some old := by
      rw [← hfind, ← hid]
      exact hold
    cases hsame
    exact hmay.imp (fun hsame => hsame.symm) fun hnone => hnone

/-- The operations on wallets. -/
theorem perform_bound {operation : AddressOperation} (h : store.Bound outgoing)
    (hallowed : operation.Allowed) (hfree : operation.MovesFreely services outside store)
    (hdone : operation.perform services outside store = .ok store') : store'.Bound outgoing := by
  cases operation with
  | createNewDraftWallet account =>
      cases hdone
      exact (bound_saveNewWallet h (services.nextID_not_mem _)).of_eq rfl rfl
  | createRecoverDraftWallet account =>
      cases hdone
      exact (bound_saveNewWallet h (services.nextID_not_mem _)).of_eq rfl rfl
  | edit walletID change =>
      apply onWallet_keeps h _ hdone
      intro wallet hfind hsaved
      cases hsaved
      obtain ⟨hid, haddress⟩ := hallowed wallet
      apply h.saveWallet
      intro old hold
      rw [hid, hfind] at hold
      cases hold
      rw [haddress]
      exact .inl rfl
  | resume walletID =>
      apply onWallet_keeps h _ hdone
      intro wallet hfind hran
      obtain ⟨result, app, halone, rfl⟩ := Process.ran_eq_ok_iff.mp hran
      exact resume_bound hfind h halone
  | proceed walletID =>
      apply onWallet_keeps h _ hdone
      intro wallet hfind hran
      obtain ⟨wallet', app, halone, rfl⟩ := Process.ran_eq_ok_iff.mp hran
      exact (Wallet.movesTo_of_proceed halone).bound h (keeps_of_find hfind)
  | cancel walletID =>
      apply onWallet_keeps h _ hdone
      intro wallet hfind hran
      obtain ⟨wallet', app, halone, rfl⟩ := Process.ran_eq_ok_iff.mp hran
      exact (Wallet.movesTo_of_cancel halone).bound h (keeps_of_find hfind)
  | deploymentStarted walletID => exact deploymentStarted_bound h hfree hdone
  | changeAddress address => exact RecoveryDomainService.bound_changeAddress h hfree hdone
  | removeWallet walletID =>
      obtain ⟨result, app, halone, rfl⟩ := Process.ran_eq_ok_iff.mp hdone
      rw [WalletDomainService.alone_removeWallet] at halone
      cases halone
      exact h.withoutWallet walletID

end AddressOperation

end Wallets

/-! ## Operations -/

/-- What is done with transactions and wallets. -/
inductive OutgoingOperation
  | newDraftTransaction (walletID : WalletID) (token : Address)
  | handleSendTransactionRequest (account : Address) (request : SendTransactionRequiredData)
  | handleMultiSendTransactionRequest (account : Address)
      (subtransactions : List WalletConnectApplicationService.WCMultiSendSubTransaction)
  | receive (message : Message)
  | createTransaction
  | estimateRecoveryTransaction (balancesUpdated : Bool)
  | createRecoveryTransaction (balancesUpdated : Bool)
      (answer : Option EstimateTransactionResponse)
  | edit (id : TransactionID) (change : Transaction → Trapping Transaction)
  | record (tx : Transaction)
  | remove (id : TransactionID)
  | createAndSelectMultisigWallet (address : Address)
  | merge (object : Wallet) (info : SafeInfo)
  | ofWallet (operation : AddressOperation)

namespace OutgoingOperation

open WalletConnectApplicationService (batch)

variable (services : Services) (outside : Outside) (store : Store)

/-- What an operation leaves in the repositories. A synchronisation asks a service between what
it reads and what it saves, so it is the save that counts: a transaction that `sync()` saves is
recorded, and `updateSafeInfo(safe:)` merges an answer into the object that it had read. -/
def perform : OutgoingOperation → Trapping Store
  | newDraftTransaction walletID token => AddressOperation.onWallet walletID (fun wallet => do
    let (store, _) ← WalletApplication.newDraftTransaction services store wallet token outside.now
    return store) store
  | handleSendTransactionRequest account request => do
    let (_, store) ← WalletConnectApplicationService.handleSendTransactionRequest services account
      request outside.now store
    return store
  | handleMultiSendTransactionRequest account subtransactions => do
    let (_, store) ← WalletConnectApplicationService.handleMultiSendTransactionRequest services
      account subtransactions outside.now store
    return store
  | receive message => do
    let (store, _) ← WalletApplication.receive services store message outside.now
    return store
  | createTransaction => do
    let (store, _) ← ContractModification.createTransaction services outside.now store
    return store
  | estimateRecoveryTransaction balancesUpdated =>
    RecoveryDomainService.estimateRecoveryTransaction services balancesUpdated outside.now store
  | createRecoveryTransaction balancesUpdated answer =>
    RecoveryDomainService.createRecoveryTransaction services balancesUpdated answer outside.now
      store
  | edit id change => do
    let tx ← Trapping.unwrap (store.transactions.find id)
    return { store with transactions := store.transactions.store (← change tx) }
  | record tx => return { store with transactions := store.transactions.store tx }
  | remove id => return { store with transactions := store.transactions.remove id }
  | createAndSelectMultisigWallet address => do
    let (_, store) ← WalletDomainService.createAndSelectMultisigWallet services store address
    return store
  | merge object info => return { store with
      wallets := store.wallets.save (TransactionRelayService.withSafeInfo services.kit object info) }
  | ofWallet operation => operation.perform services outside store

/-- A transaction is edited in its other fields and its status, where nothing that was
submitted is opened again. -/
def Allowed : OutgoingOperation → Prop
  | edit _ change => ∀ tx tx', change tx = .ok tx' →
    tx.Keeps tx' ∧ (tx'.status ∈ outgoing → tx.status ∈ outgoing)
  | ofWallet operation => operation.Allowed
  | _ => True

/-- The status changes of the program are such edits: a transaction is rejected, made a draft
again, or moves on. Only a transaction that is being signed is ever stepped back. -/
theorem statusChange_allowed (id : TransactionID) (now : Date) :
    (edit id fun tx => tx.proceed now).Allowed ∧ (edit id fun tx => tx.reject now).Allowed ∧
      (edit id Transaction.reset).Allowed ∧ (edit id WalletApplication.reopened).Allowed := by
  refine ⟨fun tx tx' h => ?_, fun tx tx' h => ?_, fun tx tx' h => ?_, fun tx tx' h => ?_⟩
  · refine ⟨Transaction.proceed_keeps h, fun _ => ?_⟩
    cases hstatus : tx.status <;> simp_all [Transaction.proceed, outgoing]
  · refine ⟨Transaction.reject_keeps h, fun _ => ?_⟩
    cases hstatus : tx.status <;> simp_all [Transaction.reject, outgoing]
  · unfold Transaction.reset at h
    split at h
    · rename_i hstatus
      cases h
      exact ⟨⟨rfl, rfl, rfl⟩, fun _ => by simp [hstatus, outgoing]⟩
    · cases h
  · unfold WalletApplication.reopened at h
    split at h
    · rename_i hstatus
      rw [Transaction.stepBack, hstatus] at h
      cases h
      exact ⟨⟨rfl, rfl, rfl⟩, fun _ => by simp [hstatus, outgoing]⟩
    · cases h
      exact ⟨⟨rfl, rfl, rfl⟩, fun hsame => hsame⟩

/-- A hash that a stored transaction has is not also the hash of something another sender
proposes. -/
def DistinguishesSender (message : SendTransactionMessage) : Prop :=
  ∀ tx proposal : Transaction, store.transactions.findHash message.hash = some tx →
    proposal.accountID = tx.accountID → proposal.sender = some message.safe →
    EncryptionService.hash services store proposal = .ok message.hash →
    tx.sender.map Address.data = some message.safe.data

/-- A dApp's request names the account of its session as the sender, no two senders have
transactions with one hash, no wallet with outgoing transactions gets another address, also
not from the relay, and what a synchronisation saves as outgoing names the wallet's address. -/
def Careful : OutgoingOperation → Prop
  | handleSendTransactionRequest account request =>
    store.findWallet account ≠ none → request.fromAddress.data = account.data
  | receive (.send message) => DistinguishesSender services store message
  | record tx => tx.status ∈ outgoing → store.Binds tx
  | merge object info => ∀ wallet, store.wallets.find object.id = some wallet →
    store.MayMove outgoing wallet (services.kit.address info.address)
  | ofWallet operation => operation.MovesFreely services outside store
  | _ => True

/-- Whatever acts around its read and its request, what `updateSafeInfo(safe:)` does in the end is
to merge an answer, or nothing. -/
theorem updateSafeInfo_merges {services : Services}
    (x : TransactionRelayService.Interleaving services) :
    x.saved.store = x.written.store ∨ ∃ object info,
      (merge object info).perform services x.outside x.written.store = .ok x.saved.store := by
  rcases x.saved_cases with ⟨hsame, -⟩ | ⟨object, info, -, hsaved⟩
  · exact .inl (congrArg App.store hsame)
  · refine .inr ⟨object, info, ?_⟩
    rw [hsaved]
    rfl

/-! ## One operation -/

section Steps

variable {services outside store} {store' : Store} {now : Date} {wallet : Wallet}

theorem find_of_findWallet {address : Address} (h : store.findWallet address = some wallet) :
    store.wallets.find wallet.id = some wallet ∧ wallet.address = some address :=
  ⟨Table.find_of_mem (List.mem_of_find?_eq_some h), by simpa using List.find?_some h⟩

/-- A transaction of a stored wallet that has its address as the sender. -/
theorem binds_of_find {tx : Transaction} (hfind : store.wallets.find wallet.id = some wallet)
    (haccount : tx.accountID.walletID = wallet.id)
    (hsender : tx.sender.map Address.data = wallet.address.map Address.data) : store.Binds tx :=
  ⟨wallet, haccount ▸ hfind, hsender⟩

theorem newDraftTransaction_bound {token : Address} {tx : Transaction} (h : store.Bound outgoing)
    (hfind : store.wallets.find wallet.id = some wallet)
    (hdone : WalletApplication.newDraftTransaction services store wallet token now =
      .ok (store', tx)) :
    store'.Bound outgoing ∧ store'.wallets = store.wallets ∧ tx.accountID.walletID = wallet.id ∧
      tx.sender = wallet.address := by
  obtain ⟨tx', rfl, heq⟩ := WalletApplication.newDraftTransaction_spec hdone
  cases heq
  exact ⟨h.saveRow _ fun _ => binds_of_find hfind rfl rfl, rfl, rfl, rfl⟩

theorem createDraftTransaction_bound {request : SendTransactionRequiredData} {id : TransactionID}
    (h : store.Bound outgoing) (hfind : store.wallets.find wallet.id = some wallet)
    (hfrom : some request.fromAddress.data = wallet.address.map Address.data)
    (hdone : WalletApplication.createDraftTransaction services store wallet request now =
      .ok (store', id)) : store'.Bound outgoing := by
  simp only [WalletApplication.createDraftTransaction, Trapping.bind_eq_ok_iff] at hdone
  obtain ⟨token, -, ⟨drafted, tx⟩, hdraft, ⟨updated, tx'⟩, hupdate, hdone⟩ := hdone
  cases hdone
  obtain ⟨hbound, hwallets, haccount, -⟩ := newDraftTransaction_bound h hfind hdraft
  obtain ⟨accounts, amount, rfl, rfl⟩ := WalletApplication.updateCall_spec hupdate
  have hupdated : Store.Bound outgoing { drafted with accounts := accounts } :=
    hbound.of_eq rfl rfl
  apply hupdated.saveTransaction
  intro _
  refine ⟨wallet, ?_, hfrom⟩
  rw [← haccount] at hfind
  exact hwallets ▸ hfind

theorem handleSendTransactionRequest_bound {account : Address}
    {request : SendTransactionRequiredData} {reviewed : Bool} (h : store.Bound outgoing)
    (hfrom : store.findWallet account ≠ none → request.fromAddress.data = account.data)
    (hdone : WalletConnectApplicationService.handleSendTransactionRequest services account request
      now store = .ok (reviewed, store')) : store'.Bound outgoing := by
  unfold WalletConnectApplicationService.handleSendTransactionRequest at hdone
  split at hdone
  · cases hdone
    exact h
  · rename_i wallet hwallet
    obtain ⟨hfind, haddress⟩ := find_of_findWallet hwallet
    simp only [Trapping.bind_eq_ok_iff] at hdone
    obtain ⟨⟨drafted, id⟩, hdraft, hdone⟩ := hdone
    have hsender : some request.fromAddress.data = wallet.address.map Address.data := by
      rw [haddress, Option.map_some, hfrom (by simp [hwallet])]
    have hdrafted := createDraftTransaction_bound h hfind hsender hdraft
    simp only at hdone
    split at hdone
    · cases hdone
      exact hdrafted
    · simp only [Trapping.bind_eq_ok_iff] at hdone
      obtain ⟨⟨accounts, dangerous⟩, -, hdone⟩ := hdone
      cases hdone
      exact hdrafted.of_eq rfl rfl

theorem handleMultiSendTransactionRequest_bound {account : Address}
    {subtransactions : List WalletConnectApplicationService.WCMultiSendSubTransaction}
    {reviewed : Bool} (h : store.Bound outgoing)
    (hdone : WalletConnectApplicationService.handleMultiSendTransactionRequest services account
      subtransactions now store = .ok (reviewed, store')) : store'.Bound outgoing := by
  unfold WalletConnectApplicationService.handleMultiSendTransactionRequest at hdone
  split at hdone
  · cases hdone
    exact h
  · rename_i wallet hwallet
    simp only [batch, AccountID.make, Trapping.bind_eq_ok_iff] at hdone
    obtain ⟨tx, ⟨accountID, ⟨_, -, haccount⟩, htx⟩, ⟨accounts, dangerous⟩, -, hdone⟩ := hdone
    cases haccount
    cases htx
    cases hdone
    have hfind := (find_of_findWallet hwallet).1
    refine Store.Bound.of_eq (h.saveTransaction _ fun _ => ?_) rfl rfl
    exact binds_of_find hfind rfl rfl

theorem createTransaction_bound {id : TransactionID} (h : store.Bound outgoing)
    (hdone : ContractModification.createTransaction services now store = .ok (store', id)) :
    store'.Bound outgoing := by
  simp only [ContractModification.createTransaction, AccountID.make, Trapping.bind_eq_ok_iff,
    Trapping.unwrap_eq_ok_iff] at hdone
  obtain ⟨wallet, hselected, accountID, ⟨_, -, haccount⟩, hdone⟩ := hdone
  cases haccount
  cases hdone
  have hfind := RecoveryDomainService.find_selectedWallet hselected
  exact h.saveTransaction _ fun _ => binds_of_find hfind rfl rfl

theorem saved_bound (h : store.Bound outgoing)
    (hfind : store.wallets.find wallet.id = some wallet)
    (hsaved : RecoveryTransactionBuilder.Saved wallet store store') : store'.Bound outgoing := by
  rcases hsaved with rfl | ⟨version, tx, hid, haddress, haccount, hsender, rfl⟩
  · exact h
  · have hversion : Store.Bound outgoing { store with wallets := store.wallets.save version } := by
      apply h.saveWallet
      intro old hold
      rw [hid, hfind] at hold
      cases hold
      rw [haddress]
      exact .inl rfl
    apply hversion.saveTransaction tx
    intro _
    apply binds_of_find Table.find_save_self (haccount.trans hid.symm)
    rw [hsender, haddress]

theorem removeRecoveryTransaction_bound (h : store.Bound outgoing)
    (hdone : RecoveryDomainService.removeRecoveryTransaction store = .ok store') :
    store'.Bound outgoing := by
  simp only [RecoveryDomainService.removeRecoveryTransaction, Trapping.bind_eq_ok_iff,
    Trapping.unwrap_eq_ok_iff] at hdone
  obtain ⟨wallet, -, hdone⟩ := hdone
  split at hdone
  · cases hdone
    exact h
  · cases hdone
    exact h.removeTransaction _

/-- A loaded wallet is new. -/
theorem createAndSelectMultisigWallet_bound {address : Address} {loaded : Bool}
    (h : store.Bound outgoing)
    (hdone : WalletDomainService.createAndSelectMultisigWallet services store address =
      .ok (loaded, store')) : store'.Bound outgoing := by
  simp only [WalletDomainService.createAndSelectMultisigWallet, Trapping.bind_eq_ok_iff] at hdone
  obtain ⟨⟨updated, saved⟩, hupdate, hdone⟩ := hdone
  have hnew := services.nextID_not_mem (store.wallets.rows.map Wallet.id)
  rcases Completed.updateWalletWithOnchainData_saved hupdate with
    ⟨rfl, rfl⟩ | ⟨rfl, wallet, hid, rfl⟩
  · cases hdone
    have hnone : store.wallets.find (services.nextID (store.wallets.rows.map Wallet.id)) = none :=
      Table.find_eq_none_iff.mpr fun row hrow heq => hnew (heq ▸ List.mem_map_of_mem hrow)
    exact h.of_eq (Table.remove_save_of_find_eq_none hnone) rfl
  · cases hdone
    set id := services.nextID (store.wallets.rows.map Wallet.id) with hid'
    have hnone : ∀ tx ∈ store.transactions.rows, tx.status ∈ outgoing →
        tx.accountID.walletID ≠ wallet.id := by
      rw [hid]
      exact h.walletID_ne hnew
    have hfirst : Store.Bound outgoing (Completed.saveWallet
        (WalletDomainService.multisigWallet id address) store) :=
      AddressOperation.bound_saveNewWallet h hnew
    have hsecond := hfirst.saveWallet fun old _ => .inr hnone
    exact hsecond.of_eq rfl rfl

/-- A refreshed wallet has its address again, or no outgoing transactions. -/
theorem merge_bound {object : Wallet} {info : SafeInfo} (h : store.Bound outgoing)
    (hmay : ∀ wallet, store.wallets.find object.id = some wallet →
      store.MayMove outgoing wallet (services.kit.address info.address)) :
    Store.Bound outgoing { store with
      wallets := store.wallets.save
        (TransactionRelayService.withSafeInfo services.kit object info) } := by
  obtain ⟨hid, -, haddress⟩ := @TransactionRelayService.withSafeInfo_fields services.kit object info
  apply h.saveWallet
  intro old hold
  rw [hid] at hold ⊢
  have hsame : old.id = object.id := (Table.mem_of_find hold).2
  rw [haddress, ← hsame]
  exact (hmay old hold).imp (fun hdata => hdata.symm) fun hnone => hnone

/-! ### Messages -/

/-- A decision changes the signatures or the status of a transaction that is being signed. -/
theorem decided_bound {message : TransactionDecisionMessage} {hash : Data} {tx tx' : Transaction}
    {extensionAddress : Address} (h : store.Bound outgoing)
    (hdecided : WalletApplication.decidedTransaction services store message hash =
      some (tx, extensionAddress)) (hkeeps : tx.Keeps tx') :
    Store.Bound outgoing { store with transactions := store.transactions.store tx' } := by
  simp only [WalletApplication.decidedTransaction, Option.bind_eq_bind,
    Option.bind_eq_some_iff] at hdecided
  obtain ⟨found, hfound, wallet, -, address, -, hpair⟩ := hdecided
  cases hpair
  obtain ⟨hrow, -, -, hstatus⟩ := Transactions.findHashStatus_spec hfound
  apply h.saveTransaction tx'
  intro _
  have hbinds := h tx hrow (by rw [hstatus]; decide)
  rwa [Store.Binds, ← hkeeps.accountID, ← hkeeps.sender] at hbinds

theorem handleConfirmed_bound {message : TransactionDecisionMessage}
    {result : Option TransactionID} (h : store.Bound outgoing)
    (hdone : WalletApplication.handleConfirmed services store message now =
      .ok (store', result)) : store'.Bound outgoing := by
  unfold WalletApplication.handleConfirmed at hdone
  split at hdone
  · cases hdone
    exact h
  · rename_i tx extensionAddress hdecided
    simp only [Trapping.bind_eq_ok_iff] at hdone
    obtain ⟨address, -, hdone⟩ := hdone
    cases hdone
    obtain ⟨signatures, date, hadd⟩ := Transaction.add_spec tx
      ⟨services.kit.calculateSignature message.signature, address⟩ now
    rw [hadd]
    exact decided_bound h hdecided ⟨rfl, rfl, rfl⟩

theorem handleRejected_bound {message : TransactionDecisionMessage}
    {result : Option TransactionID} (h : store.Bound outgoing)
    (hdone : WalletApplication.handleRejected services store message now =
      .ok (store', result)) : store'.Bound outgoing := by
  unfold WalletApplication.handleRejected at hdone
  split at hdone
  · cases hdone
    exact h
  · rename_i tx extensionAddress hdecided
    simp only [Trapping.bind_eq_ok_iff] at hdone
    obtain ⟨rejected, hreject, hdone⟩ := hdone
    cases hdone
    exact decided_bound h hdecided (Transaction.reject_keeps hreject)

/-- The transaction of a message belongs to the wallet it names, or it was stored with the
message's hash. -/
theorem messageTransaction_bound {message : SendTransactionMessage} {tx : Transaction}
    (h : store.Bound outgoing) (hwallet : store.findWallet message.safe = some wallet)
    (hdone : WalletApplication.messageTransaction services store wallet message now =
      .ok (store', tx)) :
    store'.Bound outgoing ∧ store'.wallets = store.wallets ∧
      (store.transactions.findHash message.hash = some tx ∨ tx.accountID.walletID = wallet.id) := by
  rcases WalletApplication.messageTransaction_spec hdone with
    ⟨hfound, rfl⟩ | ⟨-, ⟨accountID, haccount, rfl⟩, rfl⟩
  · exact ⟨h, rfl, .inl hfound⟩
  · have hfind := (find_of_findWallet hwallet).1
    exact ⟨h.saveRow _ fun _ => binds_of_find hfind haccount rfl, rfl, .inr haccount⟩

/-- The hash reads the wallets only. -/
theorem hash_of_wallets {tx : Transaction} {hash : Data} (hwallets : store'.wallets = store.wallets)
    (h : EncryptionService.hash services store' tx = .ok hash) :
    EncryptionService.hash services store tx = .ok hash := by
  obtain ⟨wallets, transactions, accounts, items, portfolio, keys, book, monitors⟩ := store'
  cases hwallets
  exact h

/-- An accepted proposal is bound, if its hash tells its sender. -/
theorem accepted_binds {message : SendTransactionMessage} {tx proposal : Transaction}
    (h : store.Bound outgoing) (hsender : DistinguishesSender services store message)
    (hwallet : store.findWallet message.safe = some wallet)
    (horigin : store.transactions.findHash message.hash = some tx ∨
      tx.accountID.walletID = wallet.id)
    (hstatus : tx.status ∈ outgoing)
    (hhash : EncryptionService.hash services store proposal = .ok message.hash)
    (haccount : proposal.accountID = tx.accountID)
    (hsafe : proposal.sender = some message.safe) : store.Binds proposal := by
  obtain ⟨hfind, haddress⟩ := find_of_findWallet hwallet
  rcases horigin with hfound | hown
  · have hsame := hsender tx proposal hfound haccount hsafe hhash
    obtain ⟨owner, howner, hdata⟩ := h tx (Transactions.findHash_spec hfound).1 hstatus
    refine ⟨owner, haccount ▸ howner, ?_⟩
    rw [hsafe, ← hdata, hsame, Option.map_some]
  · apply binds_of_find hfind (haccount ▸ hown)
    rw [hsafe, haddress]

theorem handleSend_bound {message : SendTransactionMessage}
    {result : Except WalletApplicationServiceError (Option TransactionID)}
    (h : store.Bound outgoing) (hsender : DistinguishesSender services store message)
    (hdone : WalletApplication.handleSend services store message now = .ok (store', result)) :
    store'.Bound outgoing := by
  rcases WalletApplication.handleSend_spec hdone with
    ⟨-, rfl, -⟩ | ⟨wallet, store₁, tx₁, hwallet, hopen, hcases⟩
  · exact h
  · obtain ⟨hbound, hwallets, horigin⟩ := messageTransaction_bound h hwallet hopen
    rcases hcases with ⟨-, -, rfl, -⟩ | ⟨hediting, store₂, tx₂, accounts, dangerous, hupdate, -, hend⟩
    · exact hbound
    · obtain ⟨accounts₂, amount, feeEstimate, fee, rfl, rfl⟩ :=
        WalletApplication.updateMessage_spec hupdate
      rcases hend with ⟨-, rfl, -⟩ | ⟨-, id, -, haccept⟩
      · exact hbound.of_eq rfl rfl
      · rcases WalletApplication.acceptMessage_spec haccept with
          ⟨rfl, -⟩ | ⟨address, tx', signed, -, hhash, hproceed, rfl, rfl, -⟩
        · exact Store.Bound.of_eq (hbound.removeTransaction tx₁.id) rfl rfl
        · have hstatus : tx₁.status ∈ outgoing := by
            rcases hediting with hdraft | hsigning
            · rw [hdraft]
              decide
            · rw [hsigning]
              decide
          have hkept := Transaction.proceed_keeps hproceed
          obtain ⟨signatures, date, hadd⟩ := Transaction.add_spec tx'
            ⟨services.kit.calculateSignature message.signature, address⟩ now
          have hmatches : store.Binds tx' := by
            have hsame := hash_of_wallets hwallets hhash
            have hproposal := accepted_binds h hsender hwallet horigin hstatus hsame rfl rfl
            rwa [Store.Binds, ← hkept.accountID, ← hkept.sender] at hproposal
          rw [hadd]
          refine Store.Bound.of_eq (hbound.saveTransaction _ fun _ => ?_) rfl rfl
          rw [Store.Binds, hwallets]
          exact hmatches

end Steps

/-- One careful operation keeps the transactions bound. -/
theorem perform_bound {services : Services} {outside : Outside} {store store' : Store}
    {operation : OutgoingOperation} (h : store.Bound outgoing) (hallowed : operation.Allowed)
    (hcareful : operation.Careful services outside store)
    (hdone : operation.perform services outside store = .ok store') : store'.Bound outgoing := by
  cases operation with
  | newDraftTransaction walletID token =>
      apply AddressOperation.onWallet_keeps h _ hdone
      intro wallet hfind hdraft
      simp only [Trapping.bind_eq_ok_iff] at hdraft
      obtain ⟨⟨drafted, tx⟩, hdraft, heq⟩ := hdraft
      cases heq
      exact (newDraftTransaction_bound h hfind hdraft).1
  | handleSendTransactionRequest account request =>
      simp only [perform, Trapping.bind_eq_ok_iff] at hdone
      obtain ⟨⟨reviewed, handled⟩, hhandled, heq⟩ := hdone
      cases heq
      exact handleSendTransactionRequest_bound h hcareful hhandled
  | handleMultiSendTransactionRequest account subtransactions =>
      simp only [perform, Trapping.bind_eq_ok_iff] at hdone
      obtain ⟨⟨reviewed, handled⟩, hhandled, heq⟩ := hdone
      cases heq
      exact handleMultiSendTransactionRequest_bound h hhandled
  | receive message =>
      simp only [perform, Trapping.bind_eq_ok_iff] at hdone
      obtain ⟨⟨received, result⟩, hreceived, heq⟩ := hdone
      cases heq
      cases message with
      | confirmed message =>
          simp only [WalletApplication.receive, Trapping.bind_eq_ok_iff] at hreceived
          obtain ⟨⟨confirmed, id⟩, hconfirmed, heq⟩ := hreceived
          cases heq
          exact handleConfirmed_bound h hconfirmed
      | rejected message =>
          simp only [WalletApplication.receive, Trapping.bind_eq_ok_iff] at hreceived
          obtain ⟨⟨rejected, id⟩, hrejected, heq⟩ := hreceived
          cases heq
          exact handleRejected_bound h hrejected
      | send message => exact handleSend_bound h hcareful hreceived
  | createTransaction =>
      simp only [perform, Trapping.bind_eq_ok_iff] at hdone
      obtain ⟨⟨created, id⟩, hcreated, heq⟩ := hdone
      cases heq
      exact createTransaction_bound h hcreated
  | estimateRecoveryTransaction balancesUpdated =>
      simp only [perform, RecoveryDomainService.estimateRecoveryTransaction,
        Trapping.bind_eq_ok_iff] at hdone
      obtain ⟨removed, hremoved, hbuild⟩ := hdone
      obtain ⟨wallet, hselected, hsaved⟩ := RecoveryTransactionBuilder.build_saved hbuild
      exact saved_bound (removeRecoveryTransaction_bound h hremoved)
        (RecoveryDomainService.find_selectedWallet hselected) hsaved
  | createRecoveryTransaction balancesUpdated answer =>
      simp only [perform, RecoveryDomainService.createRecoveryTransaction,
        Trapping.bind_eq_ok_iff] at hdone
      obtain ⟨removed, hremoved, hmain⟩ := hdone
      obtain ⟨wallet, hselected, hsaved⟩ := RecoveryTransactionBuilder.main_saved hmain
      exact saved_bound (removeRecoveryTransaction_bound h hremoved)
        (RecoveryDomainService.find_selectedWallet hselected) hsaved
  | edit id change =>
      simp only [perform, Trapping.bind_eq_ok_iff, Trapping.unwrap_eq_ok_iff] at hdone
      obtain ⟨tx, hfind, tx', hchange, heq⟩ := hdone
      cases heq
      obtain ⟨hkeeps, hstatus⟩ := hallowed tx tx' hchange
      apply h.saveTransaction tx'
      intro houtgoing
      have hbinds := h tx (Table.mem_of_find hfind).1 (hstatus houtgoing)
      rwa [Store.Binds, ← hkeeps.accountID, ← hkeeps.sender] at hbinds
  | record tx =>
      cases hdone
      exact h.saveTransaction tx hcareful
  | remove id =>
      cases hdone
      exact h.removeTransaction id
  | createAndSelectMultisigWallet address =>
      simp only [perform, Trapping.bind_eq_ok_iff] at hdone
      obtain ⟨⟨loaded, created⟩, hcreated, heq⟩ := hdone
      cases heq
      exact createAndSelectMultisigWallet_bound h hcreated
  | merge object info =>
      cases hdone
      exact merge_bound h hcareful
  | ofWallet operation => exact AddressOperation.perform_bound h hallowed hcareful hdone

end OutgoingOperation

/-! ## Runs -/

/-- One operation. -/
def OutgoingStep (store store' : Store) : Prop :=
  ∃ services outside, ∃ operation : OutgoingOperation, operation.Allowed ∧
    operation.perform services outside store = .ok store'

/-- One careful operation. -/
def CarefulOutgoingStep (store store' : Store) : Prop :=
  ∃ services outside, ∃ operation : OutgoingOperation, operation.Allowed ∧
    operation.Careful services outside store ∧ operation.perform services outside store = .ok store'

theorem CarefulOutgoingStep.step {store store' : Store} (h : CarefulOutgoingStep store store') :
    OutgoingStep store store' := by
  obtain ⟨services, outside, operation, hallowed, -, hdone⟩ := h
  exact ⟨services, outside, operation, hallowed, hdone⟩

/-- Every draft and every transaction that is being signed has the address of its wallet as the
sender, and so has the domain that is hashed for it. -/
def Store.SendersBound (store : Store) : Prop :=
  ∀ tx ∈ store.transactions.rows, tx.status ∈ TransactionStatus.editable →
    store.Binds tx ∧ ∀ services sender, tx.sender = some sender → sender.WellFormed →
      ∃ wallet address, store.wallets.find tx.accountID.walletID = some wallet ∧
        wallet.address = some address ∧
        EncryptionService.domainData services store tx =
          .ok (EncryptionService.domainSeparatorTypeHash services store tx ++
            SubmitTransactionRequest.word address.toUInt)

theorem bound_of_run {store : Store}
    (h : Relation.ReflTransGen CarefulOutgoingStep WalletDomainService.emptyStore store) :
    store.Bound outgoing := by
  induction h with
  | refl =>
      intro tx htx
      cases htx
  | tail _ hstep ih =>
      obtain ⟨services, outside, operation, hallowed, hcareful, hdone⟩ := hstep
      exact OutgoingOperation.perform_bound ih hallowed hcareful hdone

/-- In every careful run all outgoing transactions are bound to their wallets. -/
theorem outgoing_transactions_bound {store : Store}
    (h : Relation.ReflTransGen CarefulOutgoingStep WalletDomainService.emptyStore store) :
    store.SendersBound := by
  intro tx htx hstatus
  have hsub : ∀ status ∈ TransactionStatus.editable, status ∈ outgoing := by decide
  have hbinds : store.Binds tx := bound_of_run h tx htx (hsub _ hstatus)
  exact ⟨hbinds, fun services sender hsender hwf => hbinds.domainData services hsender hwf⟩

/-! ## A request with a foreign sender -/

section Example

open WalletDomainService (emptyStore deviceAccount loadedServices)
open RecoveryDomainService (offline)
open WalletApplication (transferServices)

/-- The wallet moves on to another state. -/
def movedStore (store : Store) (state : WalletState) : Store :=
  withVersion store { offeredWallet with state := state }

/-- The wallet is in use. -/
def readyStore : Store :=
  movedStore (movedStore (movedStore (movedStore offeredStore .notEnoughFunds) .creationStarted)
    .finalizingDeployment) .readyToUse

/-- A dApp asks for a plain call. -/
def dAppRequest (sender : Address) : SendTransactionRequiredData := ⟨sender, .ofUInt 5, 1, []⟩

/-- The draft for the request. -/
def requestedDraft (sender : Address) : Transaction :=
  { Transaction.new "A" .transfer ⟨Token.Ether.id, "A"⟩ 0 with
    sender := some sender
    recipient := some (.ofUInt 5)
    amount := some (TokenAmount.ether 1) }

/-- The repositories with the draft, which was saved empty first. -/
def requestedStore (sender : Address) : Store :=
  { readyStore with
    transactions := (readyStore.transactions.save
      (WalletApplication.draft transferServices readyStore { offeredWallet with state := .readyToUse }
        ⟨Token.Ether.id, "A"⟩ 0)).save (requestedDraft sender) }

theorem requestedStore_eq (sender : Address) :
    (OutgoingOperation.handleSendTransactionRequest (.ofUInt 21) (dAppRequest sender)).perform
      transferServices offline readyStore = .ok (requestedStore sender) := rfl

/-- The run up to the request: the wallet has no transactions when it gets its address. -/
theorem readyStore_run : Relation.ReflTransGen CarefulOutgoingStep emptyStore readyStore := by
  have hcreated : CarefulOutgoingStep emptyStore draftStore :=
    ⟨loadedServices, offline, .ofWallet (.createNewDraftWallet deviceAccount), trivial, trivial,
      rfl⟩
  have hedited : CarefulOutgoingStep draftStore (withVersion draftStore completeDraft) :=
    ⟨loadedServices, offline,
      .ofWallet (.edit "A" fun wallet => { wallet with owners := completeDraft.owners }),
      fun _ => ⟨rfl, rfl⟩, trivial, rfl⟩
  have hresumed : (AddressOperation.resume "A").perform loadedServices offline
      (withVersion draftStore completeDraft) = .ok deployedStore :=
    resume_draft completeDraft rfl rfl rfl rfl
  have hdeployed : CarefulOutgoingStep (withVersion draftStore completeDraft) deployedStore :=
    ⟨loadedServices, offline, .ofWallet (.resume "A"), trivial, trivial, hresumed⟩
  have hoffered : CarefulOutgoingStep deployedStore offeredStore := by
    refine ⟨loadedServices, offeringAddress 21, .ofWallet (.deploymentStarted "A"), trivial, ?_, rfl⟩
    intro wallet response _ _
    right
    intro tx htx
    cases htx
  have hproceeded : ∀ {store store' : Store},
      (AddressOperation.proceed "A").perform loadedServices offline store = .ok store' →
        CarefulOutgoingStep store store' := fun h =>
    ⟨loadedServices, offline, .ofWallet (.proceed "A"), trivial, trivial, h⟩
  have hready : Relation.ReflTransGen CarefulOutgoingStep offeredStore readyStore :=
    (((Relation.ReflTransGen.single (hproceeded rfl)).tail (hproceeded rfl)).tail
      (hproceeded rfl)).tail (hproceeded rfl)
  exact ((((Relation.ReflTransGen.single hcreated).tail hedited).tail hdeployed).tail
    hoffered).trans hready

/-- A request that names the wallet itself. -/
theorem requestedStore_bound :
    (requestedStore (.ofUInt 21)).transactions.rows = [requestedDraft (.ofUInt 21)] ∧
      (requestedStore (.ofUInt 21)).SendersBound := by
  refine ⟨rfl, outgoing_transactions_bound (readyStore_run.tail ?_)⟩
  exact ⟨transferServices, offline, .handleSendTransactionRequest (.ofUInt 21) (dAppRequest (.ofUInt 21)),
    trivial, fun _ => rfl, requestedStore_eq (.ofUInt 21)⟩

/-- A request that names another sender is stored with that sender. -/
theorem foreignSender_not_bound : ¬ ∀ store,
    Relation.ReflTransGen OutgoingStep emptyStore store → store.SendersBound := by
  intro h
  have hrun : Relation.ReflTransGen OutgoingStep emptyStore readyStore :=
    Relation.ReflTransGen.mono (fun _ _ => CarefulOutgoingStep.step) _ _ readyStore_run
  have hrequested : OutgoingStep readyStore (requestedStore (.ofUInt 9)) :=
    ⟨transferServices, offline, .handleSendTransactionRequest (.ofUInt 21) (dAppRequest (.ofUInt 9)),
      trivial, requestedStore_eq (.ofUInt 9)⟩
  have hrow : requestedDraft (.ofUInt 9) ∈ (requestedStore (.ofUInt 9)).transactions.rows :=
    List.mem_singleton.mpr rfl
  obtain ⟨⟨wallet, hfind, hdata⟩, -⟩ := h _ (hrun.tail hrequested) _ hrow (by decide)
  have hwallet : some { offeredWallet with state := .readyToUse } = some wallet := hfind
  cases hwallet
  exact absurd hdata (by decide +kernel)

end Example

end SafeWallet
