/-
# What a removed wallet takes along

`WalletDomainService.removeWallet` deletes what belongs to a wallet from six
repositories. Rows, accounts, transactions and their monitors are selected by the
wallet's identifier, which is its own. Private keys are selected by the addresses of
all its owners, and entries of the address book by its address, and these may belong
to other wallets too: a loaded wallet has the keys of others among its owners.
-/

import SafeWallet.Deployment.DeploymentService
import SafeWallet.Recovery.FailedCheck

namespace SafeWallet

namespace WalletDomainService

/-! ## Stores of the program -/

/-- The wallet that `createAndSelectMultisigWallet(walletData:)` saves first. -/
def multisigWallet (walletID : WalletID) (address : Address) : Wallet where
  id := walletID
  state := .readyToUse
  owners := []
  address := some address
  feePaymentTokenAddress := none
  confirmationCount := 1
  masterCopyAddress := none
  type := .multisig

/-- `createAndSelectMultisigWallet(walletData:)`. -/
def createAndSelectMultisigWallet (services : Services) (store : Store) (address : Address) :
    Trapping (Bool × Store) := do
  let walletID := services.nextID (store.wallets.rows.map Wallet.id)
  let saved := { store with wallets := store.wallets.save (multisigWallet walletID address) }
  let (updated, store) ← updateWalletWithOnchainData services saved walletID
  if updated then
    let store := RecoveryDomainService.addToPortfolio walletID store
    return (true,
      { store with accounts := store.accounts.save ⟨⟨Token.Ether.id, walletID⟩, none⟩ })
  else return (false, { store with wallets := store.wallets.remove walletID })

/-- Repositories before the first wallet. -/
def emptyStore : Store := .ofWallets .empty .empty

/-- The stores reached by creating, recovering, loading and removing wallets. The steps
of creation and recovery save other versions of a wallet with the same device owner. -/
inductive Reached : Store → Prop
  | empty : Reached emptyStore
  | createNewDraftWallet {store : Store} (h : Reached store) (services : Services)
      (account : ExternallyOwnedAccount) (outside : Outside) {app : App}
      (hrun : (DeploymentDomainService.createNewDraftWallet services account).alone outside
        (.ofStore store) = (.ok (), app)) : Reached app.store
  | createRecoverDraftWallet {store : Store} (h : Reached store) (services : Services)
      (account : ExternallyOwnedAccount) (outside : Outside) {app : App}
      (hrun : (RecoveryDomainService.createRecoverDraftWallet services account).alone outside
        (.ofStore store) = (.ok (), app)) : Reached app.store
  | save {store : Store} (h : Reached store) {old new : Wallet}
      (hfind : store.wallets.find new.id = some old)
      (hdevice : new.owner .thisDevice = old.owner .thisDevice) :
      Reached { store with wallets := store.wallets.save new }
  | load {store store' : Store} (h : Reached store) (services : Services) (address : Address)
      {loaded : Bool}
      (hrun : createAndSelectMultisigWallet services store address = .ok (loaded, store')) :
      Reached store'
  | remove {store : Store} (h : Reached store) (walletID : WalletID) (outside : Outside) {app : App}
      (hrun : (removeWallet walletID).alone outside (.ofStore store) = (.ok (), app)) :
      Reached app.store

/-! ## What stays of the others -/

/-- The other wallets are as before, with what belongs to them and the keys of their
device owners. -/
structure LeavesOthers (walletID : WalletID) (before after : Store) : Prop where
  row : ∀ id, id ≠ walletID → after.wallets.find id = before.wallets.find id
  accounts : ∀ id, id ≠ walletID → after.accountsOf id = before.accountsOf id
  transactions : ∀ id, id ≠ walletID →
    after.transactions.findWallet id = before.transactions.findWallet id
  monitors : ∀ id, id ≠ walletID → ∀ tx ∈ before.transactions.findWallet id,
    tx.id ∈ after.transactionMonitors ↔ tx.id ∈ before.transactionMonitors
  entries : ∀ other address, before.wallets.find other.id = some other → other.id ≠ walletID →
    other.address = some address → after.walletEntries address = before.walletEntries address
  keys : ∀ other owner, before.wallets.find other.id = some other → other.id ≠ walletID →
    other.owner .thisDevice = some owner →
    after.externallyOwnedAccounts.find owner.address =
      before.externallyOwnedAccounts.find owner.address

/-- No owner of the wallet has the key of another wallet's device, and no other wallet
with an entry in the address book has its address. -/
structure Separate (walletID : WalletID) (store : Store) : Prop where
  keys : ∀ wallet other owner, store.wallets.find walletID = some wallet →
    store.wallets.find other.id = some other → other.id ≠ walletID →
    other.owner .thisDevice = some owner →
    store.externallyOwnedAccounts.find owner.address ≠ none →
    owner.address ∉ wallet.owners.map Owner.address
  entries : ∀ wallet other address address', store.wallets.find walletID = some wallet →
    store.wallets.find other.id = some other → other.id ≠ walletID →
    wallet.address = some address → other.address = some address' →
    address'.value.toLower = address.value.toLower → store.walletEntries address' = []

variable {store : Store} {walletID : WalletID}

/-- What is selected by the identifier is the wallet's own. -/
theorem accountsOf_withoutWalletID {id : WalletID} (h : id ≠ walletID) :
    (store.withoutWalletID walletID).accountsOf id = store.accountsOf id := by
  apply Table.filter_removeAll
  intro account _ haccount
  simp only [decide_eq_true_eq] at haccount
  simp [haccount, h.symm]

theorem findWallet_withoutWalletID {id : WalletID} (h : id ≠ walletID) :
    (store.withoutWalletID walletID).transactions.findWallet id =
      store.transactions.findWallet id := by
  apply Table.filter_removeAll
  intro tx _ htx
  simp only [decide_eq_true_eq] at htx
  simp [htx, h.symm]

theorem monitors_withoutWalletID {id : WalletID} (h : id ≠ walletID) {tx : Transaction}
    (htx : tx ∈ store.transactions.findWallet id) :
    tx.id ∈ (store.withoutWalletID walletID).transactionMonitors ↔
      tx.id ∈ store.transactionMonitors := by
  obtain ⟨hrow, hid⟩ := List.mem_filter.mp htx
  have hother : tx.id ∉ (store.transactions.findWallet walletID).map Transaction.id := by
    intro hmem
    have hsame := Table.eq_of_key_mem hrow (fun r hr => (List.mem_filter.mp hr).1) hmem
    have hwallet := (List.mem_filter.mp hsame).2
    simp only [decide_eq_true_eq] at hid hwallet
    exact h (hid.symm.trans hwallet)
  simp only [Store.withoutWalletID, List.mem_filter, decide_eq_true_eq, and_iff_left_iff_imp]
  exact fun _ => hother

/-- The entries under an address after those of another one were removed. -/
theorem walletEntries_withoutWalletData {wallet : Wallet} {address' : Address} :
    (store.withoutWalletData wallet).walletEntries address' = store.walletEntries address' ↔
      ∀ address, wallet.address = some address →
        address'.value.toLower = address.value.toLower → store.walletEntries address' = [] := by
  cases haddress : wallet.address with
  | none => simp [Store.withoutWalletData, haddress, Store.walletEntries]
  | some address =>
      by_cases hsame : address'.value.toLower = address.value.toLower
      · have hentries : store.walletEntries address' = store.walletEntries address := by
          simp [Store.walletEntries, hsame]
        have hgone : (store.withoutWalletData wallet).walletEntries address' = [] := by
          rw [Store.walletEntries, List.filter_eq_nil_iff]
          intro entry hentry
          simp only [Store.withoutWalletData, haddress, Table.mem_rows_removeAll] at hentry
          rw [← hentries] at hentry
          intro hmatch
          exact hentry.2 (List.mem_map_of_mem (List.mem_filter.mpr ⟨hentry.1, hmatch⟩))
        rw [hgone]
        constructor
        · exact fun hempty _ _ _ => hempty.symm
        · exact fun hempty => (hempty address rfl hsame).symm
      · have hkept : (store.withoutWalletData wallet).walletEntries address' =
            store.walletEntries address' := by
          simp only [Store.walletEntries, Store.withoutWalletData, haddress]
          apply Table.filter_removeAll
          intro entry _ hentry
          simp only [decide_eq_true_eq] at hentry
          simp [hentry.1, Ne.symm hsame]
        simp [hkept, hsame]

/-- Removing a wallet leaves the others exactly if they share neither a key nor an
address with it. -/
theorem withoutWallet_leavesOthers_iff :
    LeavesOthers walletID store (store.withoutWallet walletID) ↔ Separate walletID store := by
  cases hfind : store.wallets.find walletID with
  | none =>
      have heq : store.withoutWallet walletID = store.withoutWalletID walletID := by
        simp [Store.withoutWallet, hfind]
      rw [heq]
      constructor
      · exact fun _ => ⟨by simp [hfind], by simp [hfind]⟩
      · intro _
        exact ⟨fun _ _ => rfl, fun _ h => accountsOf_withoutWalletID h,
          fun _ h => findWallet_withoutWalletID h, fun _ h _ htx => monitors_withoutWalletID h htx,
          fun _ _ _ _ _ => rfl, fun _ _ _ _ _ => rfl⟩
  | some wallet =>
      have heq : store.withoutWallet walletID =
          (store.withoutWalletData wallet).withoutWalletID walletID := by
        simp [Store.withoutWallet, hfind]
      have hid : wallet.id = walletID := (Table.mem_of_find hfind).2
      have hkey : ∀ address : Address,
          (store.withoutWallet walletID).externallyOwnedAccounts.find address =
            if address ∈ wallet.owners.map Owner.address then none
            else store.externallyOwnedAccounts.find address := by
        intro address
        rw [heq]
        simp only [Store.withoutWalletID, Store.withoutWalletData, Table.find_removeAll,
          List.mem_map, Wallet.mem_allOwners]
      have hentries : ∀ address : Address, (store.withoutWallet walletID).walletEntries address =
          (store.withoutWalletData wallet).walletEntries address := by
        intro address
        rw [heq]
        rfl
      constructor
      · intro hleaves
        constructor
        · intro removed other owner hremoved hother hne hdevice hstored hmem
          cases hfind.symm.trans hremoved
          have hkept := hleaves.keys other owner hother hne hdevice
          rw [hkey, if_pos hmem] at hkept
          exact hstored hkept.symm
        · intro removed other address address' hremoved hother hne haddress haddress' hsame
          cases hfind.symm.trans hremoved
          have hkept := hleaves.entries other address' hother hne haddress'
          rw [hentries] at hkept
          exact walletEntries_withoutWalletData.mp hkept address haddress hsame
      · intro hseparate
        refine ⟨?_, ?_, ?_, ?_, ?_, ?_⟩
        · intro id hne
          rw [heq]
          simp [Store.withoutWalletID, Store.withoutWalletData, Table.find_remove, hid, hne.symm]
        · intro id hne
          rw [heq, accountsOf_withoutWalletID hne]
          rfl
        · intro id hne
          rw [heq, findWallet_withoutWalletID hne]
          rfl
        · intro id hne tx htx
          have hmonitor : tx.id ∈ ((store.withoutWalletData wallet).withoutWalletID
              walletID).transactionMonitors ↔
                tx.id ∈ (store.withoutWalletData wallet).transactionMonitors :=
            monitors_withoutWalletID hne htx
          rw [heq]
          exact hmonitor
        · intro other address' hother hne haddress'
          rw [hentries, walletEntries_withoutWalletData]
          intro address haddress hsame
          exact hseparate.entries wallet other address address' hfind hother hne haddress
            haddress' hsame
        · intro other owner hother hne hdevice
          rw [hkey]
          split
          · rename_i hmem
            by_contra hstored
            exact hseparate.keys wallet other owner hfind hother hne hdevice (Ne.symm hstored) hmem
          · rfl

/-- `removeWallet` returns, and leaves the other wallets usable exactly if they share
neither a key nor an address with the removed one. -/
theorem removeWallet_leavesOthers_iff (outside : Outside) (app : App) (walletID : WalletID) :
    ∃ app', (removeWallet walletID).alone outside app = (.ok (), app') ∧
      (LeavesOthers walletID app.store app'.store ↔ Separate walletID app.store) :=
  ⟨_, alone_removeWallet, withoutWallet_leavesOthers_iff⟩

/-! ## A key that is lost -/

section Example

open RecoveryDomainService (offline)

/-- The key of this device for the first wallet. -/
def deviceAccount : ExternallyOwnedAccount := ⟨.ofChain 2, [1]⟩

/-- The program after a recovery was begun. -/
def recoveringApp : App :=
  ((RecoveryDomainService.createRecoverDraftWallet loadedServices deviceAccount).alone offline
    (.ofStore emptyStore)).2

/-- The recovered wallet, whose address is an owner of the loaded contract. -/
def recoveredWallet : Wallet :=
  { RecoveryDomainService.draftWallet "A" deviceAccount.address with
    state := .readyToUse
    owners := [⟨deviceAccount.address, .thisDevice⟩, ⟨.ofChain 6, .paperWallet⟩,
      ⟨.ofChain 7, .paperWalletDerived⟩]
    address := some (.ofChain 3) }

/-- The repositories after the recovery. -/
def recoveredStore : Store :=
  { recoveringApp.store with wallets := recoveringApp.store.wallets.save recoveredWallet }

/-- The wallet of a contract that this wallet and its device key own, as saved first. -/
def newMultisig : Wallet := multisigWallet "AA" (.ofChain 5)

/-- The repositories while it is loaded. -/
def loadingStore : Store :=
  { recoveredStore with wallets := recoveredStore.wallets.save newMultisig }

/-- The wallet with the owners of its contract. -/
def sharedWallet : Wallet :=
  { withRemoteOwners loadedServices loadingStore.wallets.rows (newMultisig.additional loadedSafe.remote)
      { newMultisig with owners := newMultisig.known loadedSafe.remote } with
    masterCopyAddress := some (.ofChain 4)
    confirmationCount := 2
    contractVersion := none }

/-- The repositories after it was loaded. -/
def sharedStore : Store :=
  let store := RecoveryDomainService.addToPortfolio "AA"
    { loadingStore with wallets := loadingStore.wallets.save sharedWallet }
  { store with accounts := store.accounts.save ⟨⟨Token.Ether.id, "AA"⟩, none⟩ }

theorem recoveredStore_reached : Reached recoveredStore := by
  have hbegun : Reached recoveringApp.store :=
    .createRecoverDraftWallet .empty loadedServices deviceAccount offline rfl
  have hfind : recoveringApp.store.wallets.find "A" =
      some (RecoveryDomainService.draftWallet "A" deviceAccount.address) := by decide +kernel
  exact .save hbegun hfind rfl

theorem sharedStore_reached : Reached sharedStore := by
  have hid : loadedServices.nextID (recoveredStore.wallets.rows.map Wallet.id) = "AA" := by
    decide +kernel
  have hscan : ∀ address, Scannable loadingStore.wallets.rows address := by
    intro address before wallet after hsplit hnone
    have hall : ∀ stored ∈ loadingStore.wallets.rows, stored.address ≠ none := by decide +kernel
    exact absurd hnone (hall wallet (by simp [hsplit]))
  have hwith : withOnchainData loadedServices loadingStore.wallets.rows newMultisig loadedSafe.remote
      loadedSafe.manager.threshold.toNat (.ofChain loadedSafe.masterCopy) = .ok sharedWallet :=
    withOnchainData_eq_ok_iff.mpr ⟨fun address _ => hscan address, rfl⟩
  have hupdate : updateWalletWithOnchainData loadedServices loadingStore "AA" =
      .ok (true, { loadingStore with wallets := loadingStore.wallets.save sharedWallet }) := by
    have hfind : loadingStore.wallets.find "AA" = some newMultisig := by decide +kernel
    rcases update_eq hfind rfl (loadedServices_reports (.ofChain 5)) with ⟨hnot, -⟩ | ⟨-, heq⟩
    · refine absurd ⟨?_, ?_, rfl⟩ hnot
      · decide +kernel
      · decide +kernel
    · rw [heq, hwith]
      rfl
  apply Reached.load recoveredStore_reached loadedServices (.ofChain 5)
  rw [createAndSelectMultisigWallet, hid]
  exact congrArg (· >>= _) hupdate

/-- Removing a loaded wallet deletes the device key of the wallet that owns it. -/
theorem sharedKey_not_leavesOthers :
    Reached sharedStore ∧
    ∃ app, (removeWallet "AA").alone offline (.ofStore sharedStore) = (.ok (), app) ∧
      app.store.wallets.find "A" = some recoveredWallet ∧
      recoveredWallet.owner .thisDevice = some ⟨deviceAccount.address, .thisDevice⟩ ∧
      sharedStore.externallyOwnedAccounts.find deviceAccount.address = some deviceAccount ∧
      app.store.externallyOwnedAccounts.find deviceAccount.address = none ∧
      ¬ LeavesOthers "AA" sharedStore app.store := by
  have hshared : sharedStore.wallets.find "AA" = some sharedWallet := by decide +kernel
  have hrecovered : sharedStore.wallets.find "A" = some recoveredWallet := by decide +kernel
  have hdevice : recoveredWallet.owner .thisDevice = some ⟨deviceAccount.address, .thisDevice⟩ :=
    rfl
  have hkey : sharedStore.externallyOwnedAccounts.find deviceAccount.address =
      some deviceAccount := by decide +kernel
  have howner : deviceAccount.address ∈ sharedWallet.owners.map Owner.address := by decide +kernel
  have hstore : sharedStore.withoutWallet "AA" =
      (sharedStore.withoutWalletData sharedWallet).withoutWalletID "AA" := by
    simp [Store.withoutWallet, hshared]
  refine ⟨sharedStore_reached, _, alone_removeWallet, ?_, hdevice, hkey, ?_, ?_⟩
  · have hid : sharedWallet.id = "AA" := (Table.mem_of_find hshared).2
    simp only [App.modify_store, App.ofStore, hstore]
    simp [Store.withoutWalletID, Store.withoutWalletData, Table.find_remove, hid, hrecovered]
  · simp only [App.modify_store, App.ofStore, hstore]
    have hremoved : deviceAccount.address ∈ sharedWallet.allOwners.map Owner.address := by
      simpa using howner
    simp only [Store.withoutWalletID, Store.withoutWalletData, Table.find_removeAll, hremoved,
      if_true]
  · intro hleaves
    have hseparate := withoutWallet_leavesOthers_iff.mp hleaves
    exact hseparate.keys sharedWallet recoveredWallet _ hshared hrecovered (by decide) hdevice
      (by simp [hkey]) howner

end Example

end WalletDomainService

end SafeWallet
