/-
# State transitions and removal of wallets

`WalletState` and its subclasses: the same call `proceed()` or `cancel()` means
something else in each state, and each transition saves the wallet before it
publishes what has happened. Removing a wallet goes through six repositories, one
row at a time.
-/

import SafeWallet.Application.Runtime

namespace SafeWallet

namespace Wallet

/-- Enter a state: the wallet is saved, then the event is published. -/
def enter (wallet : Wallet) (state : WalletState) (event : Option DomainEvent) : Call Wallet := do
  Process.update (.moving wallet state) fun app => app.saveWallet { wallet with state := state }
  match event with
  | none => pure ()
  | some event => Call.publish event
  return { wallet with state := state }

/-- The account from which fees are paid. -/
def feeAccountID (wallet : Wallet) : AccountID :=
  ⟨(wallet.feePaymentTokenAddress.getD Token.Ether.address).value, wallet.id⟩

/-- `WaitingForFirstDepositState.proceed()`. -/
def proceedWithFirstDeposit (wallet : Wallet) : Call Wallet :=
  match wallet.minimumDeploymentTransactionAmount with
  | none => .trap .precondition
  | some minimumBalance => do
    match ← Call.read fun store => store.accounts.find wallet.feeAccountID with
    | none => return wallet
    | some account =>
      if account.balance.getD 0 < minimumBalance then
        wallet.enter .notEnoughFunds (some (.startedWaitingForRemainingFeeAmount wallet.id))
      else wallet.enter .creationStarted (some (.deploymentFunded wallet.id))

/-- `proceed()`. -/
def proceed (wallet : Wallet) : Call Wallet :=
  match wallet.state with
  | .draft => wallet.enter .deploying (some (.deploymentStarted wallet.id))
  | .deploying =>
    wallet.enter .waitingForFirstDeposit (some (.startedWaitingForFirstDeposit wallet.id))
  | .waitingForFirstDeposit => wallet.proceedWithFirstDeposit
  | .notEnoughFunds => wallet.enter .creationStarted (some (.deploymentFunded wallet.id))
  | .creationStarted => wallet.enter .finalizingDeployment (some (.creationStarted wallet.id))
  | .finalizingDeployment => wallet.enter .readyToUse (some (.walletCreated wallet.id))
  | .readyToUse => return wallet
  | .recoveryDraft => wallet.enter .recoveryInProgress (some .recoveryStarted)
  | .recoveryInProgress => wallet.enter .recoveryPostProcessing none
  | .recoveryPostProcessing => wallet.enter .readyToUse (some .walletRecovered)

/-- `cancel()`. -/
def cancel (wallet : Wallet) : Call Wallet :=
  match wallet.state with
  | .draft | .readyToUse | .recoveryDraft => return wallet
  | .deploying | .waitingForFirstDeposit | .notEnoughFunds | .creationStarted =>
    wallet.enter .draft (some (.deploymentAborted wallet.id))
  | .finalizingDeployment => do
    Call.publish (.walletCreationFailed wallet.id)
    return wallet
  | .recoveryInProgress => wallet.enter .recoveryDraft (some .recoveryAborted)
  | .recoveryPostProcessing => wallet.enter .recoveryDraft (some .walletRecoveryFailed)

end Wallet

/-- `Portfolio.removeWallet(_:)`. -/
def Portfolio.removeWallet (portfolio : Portfolio) (walletID : WalletID) : Portfolio :=
  if walletID ∈ portfolio.wallets then
    let wallets := portfolio.wallets.erase walletID
    { wallets := wallets
      selectedWallet :=
        if wallets = [] then none
        else portfolio.selectedWallet.bind fun id => if id ∈ wallets then some id else wallets.head? }
  else portfolio

namespace Store

/-- `AddressBookRepository.find(address:types:)` for wallets. The case of the texts
does not matter. -/
def walletEntries (store : Store) (address : Address) : List AddressBookEntry :=
  store.addressBook.rows.filter fun entry =>
    entry.address.toLower = address.value.toLower ∧ entry.type = .wallet

/-- `AddressBookRepository.save(_:)`: an address that has an entry of type wallet gets no
second one, but the entry itself may be saved again. -/
def saveEntry (entry : AddressBookEntry) (store : Store) : Store :=
  { store with addressBook :=
      if entry.type = .wallet ∧ ((store.walletEntries ⟨entry.address⟩).head?.any fun existing =>
        existing.id ≠ entry.id) then store.addressBook
      else store.addressBook.save entry }

/-- `AccountRepository.filter(walletID:)`. -/
def accountsOf (store : Store) (walletID : WalletID) : List Account :=
  store.accounts.rows.filter fun account => account.id.walletID = walletID

/-- Remove a wallet's row. -/
def removeWalletRow (walletID : WalletID) (store : Store) : Store :=
  { store with wallets := store.wallets.remove walletID }

/-- Remove a private key. -/
def removeKey (address : Address) (store : Store) : Store :=
  { store with externallyOwnedAccounts := store.externallyOwnedAccounts.remove address }

/-- Remove an entry of the address book. -/
def removeEntry (entry : AddressBookEntry) (store : Store) : Store :=
  { store with addressBook := store.addressBook.remove entry.id }

/-- Remove an account. -/
def removeAccount (account : Account) (store : Store) : Store :=
  { store with accounts := store.accounts.remove account.id }

/-- Remove a transaction. -/
def removeTransaction (tx : Transaction) (store : Store) : Store :=
  { store with transactions := store.transactions.remove tx.id }

/-- Remove the monitor of a transaction, if there is one. -/
def removeMonitor (tx : Transaction) (store : Store) : Store :=
  { store with transactionMonitors := store.transactionMonitors.filter (· ≠ tx.id) }

/-- Take a wallet out of the portfolio, if there is one. -/
def removeFromPortfolio (walletID : WalletID) (store : Store) : Store :=
  { store with portfolio := store.portfolio.map fun portfolio => portfolio.removeWallet walletID }

end Store

/-! ## Removing a wallet -/

namespace WalletDomainService

/-- `removeAccounts(for:)`. -/
def removeAccounts (walletID : WalletID) : Call Unit := do
  let accounts ← Call.read fun store => store.accountsOf walletID
  Process.each accounts fun account => Call.write (Store.removeAccount account)

/-- `removeTransactions(for:)`. -/
def removeTransactions (walletID : WalletID) : Call Unit := do
  let transactions ← Call.read fun store => store.transactions.findWallet walletID
  Process.each transactions fun tx => do
    Call.write (Store.removeTransaction tx)
    Call.write (Store.removeMonitor tx)

/-- The keys of a wallet's owners and its entries in the address book. -/
def removeWalletData (wallet : Wallet) : Call Unit := do
  Call.write (Store.removeWalletRow wallet.id)
  Process.each (wallet.allOwners.map Owner.address) fun owner => Call.write (Store.removeKey owner)
  match wallet.address with
  | none => return
  | some address =>
    let entries ← Call.read fun store => store.walletEntries address
    Process.each entries fun entry => Call.write (Store.removeEntry entry)

/-- What belongs to a wallet's identifier. -/
def removeWalletID (walletID : WalletID) : Call Unit := do
  Call.write (Store.removeFromPortfolio walletID)
  removeAccounts walletID
  removeTransactions walletID

/-- `removeWallet(_:)`. -/
def removeWallet (walletID : WalletID) : Call Unit := do
  match ← Call.findWallet walletID .elsewhere with
  | none => removeWalletID walletID
  | some wallet =>
    removeWalletData wallet
    removeWalletID walletID

end WalletDomainService

/-! ## Transitions and removal without interference -/

namespace Wallet

/-- A transition changes the state of the wallet, and of the repositories at most
its row. -/
structure MovesTo (wallet wallet' : Wallet) (store store' : Store) : Prop where
  same : wallet' = { wallet with state := wallet'.state }
  stored : (wallet' = wallet ∧ store' = store) ∨
    store' = { store with wallets := store.wallets.save wallet' }

variable {wallet wallet' : Wallet} {store store' : Store} {outside : Outside} {app : App}

theorem MovesTo.find (h : MovesTo wallet wallet' store store')
    (hfind : store.wallets.find wallet.id = some wallet) :
    store'.wallets.find wallet.id = some wallet' := by
  rcases h.stored with ⟨rfl, rfl⟩ | hsaved
  · exact hfind
  · have hid : wallet'.id = wallet.id := by rw [h.same]
    rw [hsaved, ← hid]
    exact Table.find_save_self

theorem MovesTo.transactions (h : MovesTo wallet wallet' store store') :
    store'.transactions = store.transactions := by
  rcases h.stored with ⟨-, hsame⟩ | hsaved
  · rw [hsame]
  · rw [hsaved]

/-- A call that ends with a transition when nobody else is at work. -/
def EndsMoved (call : Call Wallet) (wallet : Wallet) (outside : Outside) (app : App) : Prop :=
  ∃ wallet' app', call.alone outside app = (.ok wallet', app') ∧
    MovesTo wallet wallet' app.store app'.store

theorem enter_ends (state : WalletState) (event : Option DomainEvent) :
    EndsMoved (wallet.enter state event) wallet outside app := by
  cases event with
  | none => exact ⟨_, _, rfl, rfl, .inr rfl⟩
  | some event => exact ⟨_, _, rfl, rfl, .inr rfl⟩

theorem pure_ends : EndsMoved (.pure wallet) wallet outside app := ⟨_, _, rfl, rfl, .inl ⟨rfl, rfl⟩⟩

/-- `cancel()` always ends. -/
theorem cancel_ends : EndsMoved wallet.cancel wallet outside app := by
  unfold cancel
  split
  · exact pure_ends
  · exact pure_ends
  · exact pure_ends
  · exact enter_ends _ _
  · exact enter_ends _ _
  · exact enter_ends _ _
  · exact enter_ends _ _
  · exact ⟨_, _, rfl, rfl, .inl ⟨rfl, rfl⟩⟩
  · exact enter_ends _ _
  · exact enter_ends _ _

/-- `proceed()` stops the program at most while a new wallet waits for its first
deposit. -/
theorem proceed_ends : EndsMoved wallet.proceed wallet outside app ∨
    (wallet.state = .waitingForFirstDeposit ∧
      ∃ reason, wallet.proceed.alone outside app = (.error reason, app)) := by
  unfold proceed
  split <;> rename_i hstate
  · exact .inl (enter_ends _ _)
  · exact .inl (enter_ends _ _)
  · unfold proceedWithFirstDeposit
    split
    · exact .inr ⟨hstate, _, rfl⟩
    · left
      unfold EndsMoved
      rw [Call.read, Process.alone_query_bind]
      split
      · exact pure_ends
      · split <;> exact enter_ends _ _
  · exact .inl (enter_ends _ _)
  · exact .inl (enter_ends _ _)
  · exact .inl (enter_ends _ _)
  · exact .inl pure_ends
  · exact .inl (enter_ends _ _)
  · exact .inl (enter_ends _ _)
  · exact .inl (enter_ends _ _)

end Wallet

namespace Store

/-- The repositories without a wallet's row, keys and entries. -/
def withoutWalletData (store : Store) (wallet : Wallet) : Store :=
  { store with
    wallets := store.wallets.remove wallet.id
    externallyOwnedAccounts :=
      store.externallyOwnedAccounts.removeAll (wallet.allOwners.map Owner.address)
    addressBook := match wallet.address with
      | none => store.addressBook
      | some address =>
        store.addressBook.removeAll ((store.walletEntries address).map AddressBookEntry.id) }

/-- The repositories without what belongs to a wallet identifier. -/
def withoutWalletID (store : Store) (walletID : WalletID) : Store :=
  let transactions := (store.transactions.findWallet walletID).map Transaction.id
  { store with
    portfolio := store.portfolio.map fun portfolio => portfolio.removeWallet walletID
    accounts := store.accounts.removeAll ((store.accountsOf walletID).map Account.id)
    transactions := store.transactions.removeAll transactions
    transactionMonitors := store.transactionMonitors.filter (· ∉ transactions) }

/-- The repositories without a wallet. -/
def withoutWallet (store : Store) (walletID : WalletID) : Store :=
  match store.wallets.find walletID with
  | none => store.withoutWalletID walletID
  | some wallet => (store.withoutWalletData wallet).withoutWalletID walletID

variable {store : Store} {walletID : WalletID}

/-- The row is gone. -/
theorem find_withoutWallet : (store.withoutWallet walletID).wallets.find walletID = none := by
  unfold withoutWallet
  split
  · assumption
  · rename_i wallet hfind
    obtain ⟨-, hid⟩ := Table.mem_of_find hfind
    simp [withoutWalletID, withoutWalletData, Table.find_remove, hid]

/-- Accounts and transactions go with it. -/
theorem removed_withoutWallet : (store.withoutWallet walletID).accountsOf walletID = [] ∧
    (store.withoutWallet walletID).transactions.findWallet walletID = [] := by
  unfold withoutWallet
  split <;>
  · simp only [withoutWalletID, withoutWalletData, accountsOf, Transactions.findWallet,
      List.filter_eq_nil_iff, Table.mem_rows_removeAll, List.mem_map, List.mem_filter,
      decide_eq_true_eq]
    constructor
    · exact fun account h heq => h.2 ⟨account, ⟨h.1, heq⟩, rfl⟩
    · exact fun tx h heq => h.2 ⟨tx, ⟨h.1, heq⟩, rfl⟩

end Store

namespace WalletDomainService

variable {outside : Outside} {app : App} {walletID : WalletID}

/-- A loop of writes is one write, if the writes fold to it. -/
theorem alone_each_write {β : Type} {bs : List β} {f : β → Call Unit} {g : β → Store → Store}
    (h : ∀ b app, (f b).alone outside app = (.ok (), app.modify (g b))) :
    (Process.each bs f).alone outside app =
      (.ok (), app.modify fun store => bs.foldl (fun store b => g b store) store) := by
  rw [Process.alone_each h]
  congr 1
  induction bs generalizing app with
  | nil => rfl
  | cons b rest ih => exact ih

theorem alone_removeAccounts : (removeAccounts walletID).alone outside app =
    (.ok (), app.modify fun store => { store with
      accounts := store.accounts.removeAll ((store.accountsOf walletID).map Account.id) }) := by
  have hfold : ∀ (accounts : List Account) (store : Store),
      accounts.foldl (fun store account => store.removeAccount account) store =
        { store with accounts := store.accounts.removeAll (accounts.map Account.id) } := by
    intro accounts
    induction accounts with
    | nil => exact fun _ => rfl
    | cons account rest ih => exact fun store => ih _
  rw [removeAccounts, Call.read, Process.alone_query_bind, alone_each_write fun _ _ => rfl]
  simp only [hfold]
  rfl

theorem alone_removeTransactions : (removeTransactions walletID).alone outside app =
    (.ok (), app.modify fun store =>
      let transactions := (store.transactions.findWallet walletID).map Transaction.id
      { store with
        transactions := store.transactions.removeAll transactions
        transactionMonitors := store.transactionMonitors.filter (· ∉ transactions) }) := by
  have hfold : ∀ (transactions : List Transaction) (store : Store),
      transactions.foldl (fun store tx => (store.removeTransaction tx).removeMonitor tx) store =
        { store with
          transactions := store.transactions.removeAll (transactions.map Transaction.id)
          transactionMonitors := store.transactionMonitors.filter
            (· ∉ transactions.map Transaction.id) } := by
    intro transactions
    induction transactions with
    | nil => simp [Table.removeAll]
    | cons tx rest ih =>
        intro store
        rw [List.foldl_cons, ih]
        simp only [Store.removeTransaction, Store.removeMonitor, List.filter_filter]
        congr 1
        apply List.filter_congr
        intro id _
        rw [Bool.eq_iff_iff, Bool.and_eq_true, decide_eq_true_iff, decide_eq_true_iff,
          decide_eq_true_iff, List.map_cons, List.mem_cons, not_or, and_comm]
  rw [removeTransactions, Call.read, Process.alone_query_bind,
    alone_each_write (g := fun tx store => (store.removeTransaction tx).removeMonitor tx)
      fun _ _ => rfl]
  simp only [hfold]
  rfl

theorem alone_removeWalletData (wallet : Wallet) : (removeWalletData wallet).alone outside app =
    (.ok (), app.modify fun store => store.withoutWalletData wallet) := by
  have hkeys : ∀ (addresses : List Address) (store : Store),
      addresses.foldl (fun store address => store.removeKey address) store =
        { store with
          externallyOwnedAccounts := store.externallyOwnedAccounts.removeAll addresses } := by
    intro addresses
    induction addresses with
    | nil => exact fun _ => rfl
    | cons address rest ih => exact fun store => ih _
  have hentries : ∀ (entries : List AddressBookEntry) (store : Store),
      entries.foldl (fun store entry => store.removeEntry entry) store =
        { store with
          addressBook := store.addressBook.removeAll (entries.map AddressBookEntry.id) } := by
    intro entries
    induction entries with
    | nil => exact fun _ => rfl
    | cons entry rest ih => exact fun store => ih _
  rw [removeWalletData, Call.write, Process.alone_update_bind,
    Process.alone_bind_of_ok (alone_each_write fun _ _ => rfl)]
  simp only [hkeys]
  cases haddress : wallet.address with
  | none =>
      simp only [Store.withoutWalletData, haddress]
      rfl
  | some address =>
      simp only [Call.read, Process.alone_query_bind]
      rw [alone_each_write fun _ _ => rfl]
      simp only [hentries, Store.withoutWalletData, haddress]
      rfl

theorem alone_removeWalletID : (removeWalletID walletID).alone outside app =
    (.ok (), app.modify fun store => store.withoutWalletID walletID) := by
  rw [removeWalletID, Call.write, Process.alone_update_bind,
    Process.alone_bind_of_ok alone_removeAccounts, alone_removeTransactions]
  rfl

/-- Removing a wallet with nobody else at work. -/
theorem alone_removeWallet : (removeWallet walletID).alone outside app =
    (.ok (), app.modify fun store => store.withoutWallet walletID) := by
  rw [removeWallet, Call.findWallet, Process.alone_query_bind]
  cases hfind : app.store.wallets.find walletID with
  | none =>
      rw [alone_removeWalletID]
      simp [App.modify, Store.withoutWallet, hfind]
  | some wallet =>
      simp only [Process.alone_bind_of_ok (alone_removeWalletData wallet), alone_removeWalletID]
      simp [App.modify, Store.withoutWallet, hfind]

end WalletDomainService

end SafeWallet
