/-
# The wallets in the address book

A wallet that gets an address gets an entry in the address book under it. The recovery of
another address removes the entry of the old one first, and so does the removal of the
wallet. The preparation of a deployment does not: a draft that is deployed again after an
abort leaves the entry of its former address behind.
-/

import SafeWallet.Recovery.TransactionBuilder
import SafeWallet.Wallet.WalletRemoval

namespace SafeWallet

namespace Store

variable {store store' : Store} {wallet : Wallet}

/-- Every entry of type wallet has the address of a stored wallet, and no two of them have
the same, ignoring letter case. -/
structure Mirrored (store : Store) : Prop where
  owned : ∀ entry ∈ store.addressBook.rows, entry.type = .wallet →
    ∃ wallet ∈ store.wallets.rows, wallet.address = some ⟨entry.address⟩
  distinct : ∀ entry ∈ store.addressBook.rows, ∀ other ∈ store.addressBook.rows,
    entry.type = .wallet → other.type = .wallet →
      entry.address.toLower = other.address.toLower → entry = other

/-! ## Writes -/

theorem mem_walletEntries {address : Address} {entry : AddressBookEntry} :
    entry ∈ store.walletEntries address ↔ entry ∈ store.addressBook.rows ∧
      entry.address.toLower = address.value.toLower ∧ entry.type = .wallet := by
  simp only [walletEntries, List.mem_filter, decide_eq_true_eq]

/-- A new entry is saved if its address has none. -/
theorem saveEntry_of_new {entry : AddressBookEntry} (hwallet : entry.type = .wallet)
    (hnew : entry.id ∉ store.addressBook.rows.map AddressBookEntry.id) :
    (store.walletEntries ⟨entry.address⟩ = [] ∧
        store.saveEntry entry = { store with addressBook := store.addressBook.save entry }) ∨
      (store.walletEntries ⟨entry.address⟩ ≠ [] ∧ store.saveEntry entry = store) := by
  cases hentries : store.walletEntries ⟨entry.address⟩ with
  | nil => exact .inl ⟨rfl, by simp [saveEntry, hentries]⟩
  | cons first rest =>
      have hfirst : first ∈ store.addressBook.rows :=
        (mem_walletEntries.mp (hentries ▸ List.mem_cons_self)).1
      have hne : first.id ≠ entry.id := by
        intro heq
        exact hnew (heq ▸ List.mem_map_of_mem hfirst)
      exact .inr ⟨by simp, by simp [saveEntry, hentries, hwallet, hne]⟩

variable (services : Services) {address : Address}

/-- The entry that a wallet gets with its address. -/
def newEntry (store : Store) (address : Address) : AddressBookEntry where
  id := services.nextID (store.addressBook.rows.map AddressBookEntry.id)
  name := DeploymentDomainService.walletName store address
  address := address.value
  type := .wallet

/-- What an entry for an address does to the address book. -/
theorem mem_addAddressBookEntry {entry : AddressBookEntry} :
    entry ∈ (DeploymentDomainService.addAddressBookEntry services address store).addressBook.rows ↔
      entry ∈ store.addressBook.rows ∨
        (store.walletEntries address = [] ∧ entry = store.newEntry services address) := by
  have hnew : (store.newEntry services address).id ∉
      store.addressBook.rows.map AddressBookEntry.id := services.nextID_not_mem _
  have hadd : DeploymentDomainService.addAddressBookEntry services address store =
      store.saveEntry (store.newEntry services address) := rfl
  rcases saveEntry_of_new rfl hnew with ⟨hnone, heq⟩ | ⟨hsome, heq⟩
  · rw [hadd, heq, Table.mem_rows_save]
    constructor
    · rintro (hsame | ⟨hold, -⟩)
      · exact .inr ⟨hnone, hsame⟩
      · exact .inl hold
    · rintro (hold | ⟨-, hsame⟩)
      · refine .inr ⟨hold, fun hid => hnew ?_⟩
        rw [← hid]
        exact List.mem_map_of_mem hold
      · exact .inl hsame
  · rw [hadd, heq]
    exact ⟨.inl, fun h => h.elim (fun hold => hold) fun hnone => absurd hnone.1 hsome⟩

/-- An entry for the address of a stored wallet. -/
theorem Mirrored.addEntry (h : store.Mirrored)
    (howned : ∃ wallet ∈ store.wallets.rows, wallet.address = some address) :
    (DeploymentDomainService.addAddressBookEntry services address store).Mirrored := by
  -- A new entry has an address that no other entry has.
  have hnone : ∀ entry ∈ store.addressBook.rows, entry.type = .wallet →
      entry.address.toLower = address.value.toLower → store.walletEntries address ≠ [] :=
    fun entry hentry hwallet hsame =>
      List.ne_nil_of_mem (mem_walletEntries.mpr ⟨hentry, hsame, hwallet⟩)
  constructor
  · intro entry hentry hwallet
    rcases (mem_addAddressBookEntry services).mp hentry with hold | ⟨-, rfl⟩
    · exact h.owned entry hold hwallet
    · exact howned
  · intro entry hentry other hother hwallet hwallet' hsame
    rcases (mem_addAddressBookEntry services).mp hentry with hold | ⟨hempty, rfl⟩ <;>
      rcases (mem_addAddressBookEntry services).mp hother with hold' | ⟨hempty', rfl⟩
    · exact h.distinct entry hold other hold' hwallet hwallet' hsame
    · exact absurd hempty' (hnone entry hold hwallet hsame)
    · exact absurd hempty (hnone other hold' hwallet' hsame.symm)
    · rfl

/-- Fewer entries. -/
theorem Mirrored.mono (h : store.Mirrored) (hwallets : store'.wallets = store.wallets)
    (hsub : ∀ entry ∈ store'.addressBook.rows, entry ∈ store.addressBook.rows) :
    store'.Mirrored where
  owned entry hentry := by
    rw [hwallets]
    exact h.owned entry (hsub entry hentry)
  distinct entry hentry other hother :=
    h.distinct entry (hsub entry hentry) other (hsub other hother)

/-- Another stored wallet has the address, too. -/
def SharesAddress (store : Store) (walletID : WalletID) (address : Address) : Prop :=
  ∃ other ∈ store.wallets.rows, other.id ≠ walletID ∧ other.address = some address

/-- A wallet that is saved keeps its address, if an entry has it and no other wallet does. -/
theorem Mirrored.saveWallet (h : store.Mirrored)
    (hkeeps : ∀ old, store.wallets.find wallet.id = some old →
      ∀ entry ∈ store.addressBook.rows, entry.type = .wallet → old.address = some ⟨entry.address⟩ →
        wallet.address = old.address ∨ store.SharesAddress wallet.id ⟨entry.address⟩) :
    Mirrored { store with wallets := store.wallets.save wallet } := by
  refine ⟨fun entry hentry hwallet => ?_, h.distinct⟩
  obtain ⟨owner, howner, haddress⟩ := h.owned entry hentry hwallet
  by_cases hsame : owner.id = wallet.id
  · have hfind : store.wallets.find wallet.id = some owner := hsame ▸ Table.find_of_mem howner
    rcases hkeeps owner hfind entry hentry hwallet haddress with heq | ⟨other, hother, hne, hother'⟩
    · exact ⟨wallet, Table.mem_rows_save.mpr (.inl rfl), heq.trans haddress⟩
    · exact ⟨other, Table.mem_rows_save.mpr (.inr ⟨hother, hne⟩), hother'⟩
  · exact ⟨owner, Table.mem_rows_save.mpr (.inr ⟨howner, hsame⟩), haddress⟩

/-- A removed wallet takes the entries of its address along. -/
theorem Mirrored.withoutWallet (h : store.Mirrored) (walletID : WalletID) :
    (store.withoutWallet walletID).Mirrored := by
  unfold Store.withoutWallet
  split
  · exact h.mono rfl fun entry hentry => hentry
  · rename_i removed hfind
    have hid : removed.id = walletID := (Table.mem_of_find hfind).2
    have hsub : ∀ entry ∈ (store.withoutWalletData removed).addressBook.rows,
        entry ∈ store.addressBook.rows ∧
          ∀ old, removed.address = some old → entry ∉ store.walletEntries old := by
      intro entry hentry
      cases haddress : removed.address with
      | none =>
          simp only [withoutWalletData, haddress] at hentry
          exact ⟨hentry, fun old hold => by cases hold⟩
      | some old =>
          simp only [withoutWalletData, haddress, Table.mem_rows_removeAll] at hentry
          refine ⟨hentry.1, fun old' hold hmem => hentry.2 ?_⟩
          cases hold
          exact List.mem_map_of_mem hmem
    constructor
    · intro entry hentry hwallet
      obtain ⟨hold, hnot⟩ := hsub entry hentry
      obtain ⟨owner, howner, haddress⟩ := h.owned entry hold hwallet
      have hne : owner.id ≠ removed.id := by
        intro hsame
        have hfound := Table.find_of_mem howner
        rw [hsame, hid, hfind] at hfound
        cases hfound
        exact hnot _ haddress (mem_walletEntries.mpr ⟨hold, rfl, hwallet⟩)
      exact ⟨owner, Table.mem_rows_remove.mpr ⟨howner, hne⟩, haddress⟩
    · intro entry hentry other hother
      exact h.distinct entry (hsub entry hentry).1 other (hsub other hother).1

end Store

/-! ## Another address for a recovery -/

namespace RecoveryDomainService

variable (services : Services)

/-- The wallets in use with an address. -/
def walletsWithAddress (address : Address) (store : Store) : List Wallet :=
  store.wallets.rows.filter fun wallet =>
    (wallet.address.any fun other => other.value.toLower = address.value.toLower) ∧
      wallet.state ≠ .recoveryDraft ∧ wallet.state ≠ .draft

/-- `validate(address:)`: no error is thrown. -/
def validate (address : Address) (store : Store) : Bool :=
  walletsWithAddress address store = [] ∧
    (GnosisSafeContractProxy.masterCopyAddress services address).any fun masterCopy =>
      services.metadata.masterCopy.any fun copy =>
        copy.address.value.toLower = masterCopy.value.toLower

/-- `removeOldAddressBookEntry()`. -/
def removeOldAddressBookEntry (store : Store) : Store :=
  match store.selectedWallet >>= Wallet.address with
  | none => store
  | some existingAddress =>
    let entries := (store.walletEntries existingAddress).map AddressBookEntry.id
    { store with addressBook := store.addressBook.removeAll entries }

/-- `pullWalletData()`. What it throws is caught by its caller. -/
def pullWalletData (store : Store) : Trapping Store := do
  let wallet ← Trapping.unwrap store.selectedWallet
  let address ← Trapping.unwrap wallet.address
  match ← SafeOwnerManagerContractProxy.getOwners services address with
  | none => return store
  | some existingOwnerAddresses =>
    match ← SafeOwnerManagerContractProxy.getThreshold services address with
    | none => return store
    | some confirmationCount =>
      let scheme : WalletScheme := ⟨confirmationCount, existingOwnerAddresses.length⟩
      if scheme = .withoutExtension ∨ scheme = .withExtension then
        let wallet := existingOwnerAddresses.foldl
          (fun wallet address => wallet.addOwner ⟨address, .unknown⟩) wallet
        match GnosisSafeContractProxy.masterCopyAddress services address with
        | none => return store
        | some masterCopy =>
          return { store with wallets := store.wallets.save { wallet with
            confirmationCount := confirmationCount
            masterCopyAddress := some masterCopy
            contractVersion := services.metadata.version masterCopy } }
      else return store

/-- `change(address:)`. -/
def changeAddress (address : Address) (store : Store) : Trapping Store :=
  if validate services address store then do
    let store := removeOldAddressBookEntry store
    let wallet ← Trapping.unwrap store.selectedWallet
    let store :=
      { store with wallets := store.wallets.save { wallet with address := some address } }
    let store := DeploymentDomainService.addAddressBookEntry services address store
    pullWalletData services store
  else return store

variable {services} {store store' : Store} {address : Address}

theorem mirrored_removeOldAddressBookEntry (h : store.Mirrored) :
    (removeOldAddressBookEntry store).Mirrored := by
  unfold removeOldAddressBookEntry
  split
  · exact h
  · exact h.mono rfl fun entry hentry => (Table.mem_rows_removeAll.mp hentry).1

theorem selectedWallet_removeOldAddressBookEntry :
    (removeOldAddressBookEntry store).selectedWallet = store.selectedWallet := by
  unfold removeOldAddressBookEntry
  split <;> rfl

theorem find_selectedWallet {wallet : Wallet} (h : store.selectedWallet = some wallet) :
    store.wallets.find wallet.id = some wallet := by
  simp only [Store.selectedWallet, Option.bind_eq_bind, Option.bind_eq_some_iff] at h
  obtain ⟨id, -, hfind⟩ := h
  rw [(Table.mem_of_find hfind).2, hfind]

theorem wallets_removeOldAddressBookEntry :
    (removeOldAddressBookEntry store).wallets = store.wallets := by
  unfold removeOldAddressBookEntry
  split <;> rfl

/-- No entry of the selected wallet's address is left. -/
theorem address_ne_of_mem {wallet : Wallet} {entry : AddressBookEntry}
    (hselected : store.selectedWallet = some wallet)
    (hentry : entry ∈ (removeOldAddressBookEntry store).addressBook.rows)
    (hwallet : entry.type = .wallet) : wallet.address ≠ some ⟨entry.address⟩ := by
  intro haddress
  simp only [removeOldAddressBookEntry, hselected, Option.bind_eq_bind, Option.bind_some, haddress,
    Table.mem_rows_removeAll] at hentry
  exact hentry.2 (List.mem_map_of_mem (Store.mem_walletEntries.mpr ⟨hentry.1, rfl, hwallet⟩))

theorem foldl_addOwner_spec (addresses : List Address) (wallet : Wallet) :
    (addresses.foldl (fun wallet address => wallet.addOwner ⟨address, .unknown⟩) wallet).id =
        wallet.id ∧
      (addresses.foldl (fun wallet address => wallet.addOwner ⟨address, .unknown⟩) wallet).address =
        wallet.address := by
  induction addresses generalizing wallet with
  | nil => exact ⟨rfl, rfl⟩
  | cons first rest ih => exact ih _

/-- What is pulled is saved with the wallet's own address. -/
theorem pullWalletData_saved (hdone : pullWalletData services store = .ok store') :
    store' = store ∨ ∃ wallet version : Wallet, store.wallets.find version.id = some wallet ∧
      version.address = wallet.address ∧
      store' = { store with wallets := store.wallets.save version } := by
  simp only [pullWalletData, Trapping.bind_eq_ok_iff, Trapping.unwrap_eq_ok_iff] at hdone
  obtain ⟨wallet, hselected, contract, -, answer, -, hdone⟩ := hdone
  cases answer with
  | none =>
      cases hdone
      exact .inl rfl
  | some owners =>
      simp only [Trapping.bind_eq_ok_iff] at hdone
      obtain ⟨answer, -, hdone⟩ := hdone
      cases answer with
      | none =>
          cases hdone
          exact .inl rfl
      | some count =>
          simp only at hdone
          split at hdone
          · split at hdone
            · cases hdone
              exact .inl rfl
            · cases hdone
              obtain ⟨hid, haddress⟩ := foldl_addOwner_spec owners wallet
              refine .inr ⟨wallet, _, ?_, ?_, rfl⟩
              · simp only [hid]
                exact find_selectedWallet hselected
              · exact haddress
          · cases hdone
            exact .inl rfl

/-- What is pulled does not touch the addresses. -/
theorem mirrored_pullWalletData (h : store.Mirrored)
    (hdone : pullWalletData services store = .ok store') : store'.Mirrored := by
  rcases pullWalletData_saved hdone with rfl | ⟨wallet, version, hfind, haddress, rfl⟩
  · exact h
  · apply h.saveWallet
    intro old hold entry _ _ _
    left
    rw [hfind] at hold
    cases hold
    exact haddress

theorem mirrored_changeAddress (h : store.Mirrored)
    (hdone : changeAddress services address store = .ok store') : store'.Mirrored := by
  unfold changeAddress at hdone
  split at hdone
  · simp only [Trapping.bind_eq_ok_iff, Trapping.unwrap_eq_ok_iff,
      selectedWallet_removeOldAddressBookEntry] at hdone
    obtain ⟨wallet, hselected, hdone⟩ := hdone
    apply mirrored_pullWalletData _ hdone
    apply Store.Mirrored.addEntry
    · apply (mirrored_removeOldAddressBookEntry h).saveWallet
      intro old hold entry hentry hwallet haddress
      rw [wallets_removeOldAddressBookEntry, find_selectedWallet hselected] at hold
      cases hold
      -- The entries of the old address are gone.
      exact absurd haddress (address_ne_of_mem hselected hentry hwallet)
    · exact ⟨_, Table.mem_rows_save.mpr (.inl rfl), rfl⟩
  · cases hdone
    exact h

end RecoveryDomainService

/-! ## A deployment -/

namespace Wallet

variable {wallet wallet' : Wallet} {outside : Outside} {app app' : App}

/-- `proceed()` saves the wallet. -/
def Proceeds (wallet : Wallet) (store : Store) : Prop :=
  wallet.state ≠ .readyToUse ∧
    (wallet.state = .waitingForFirstDeposit → store.accounts.find wallet.feeAccountID ≠ none)

theorem enter_saves {state : WalletState} {event : Option DomainEvent}
    (h : (wallet.enter state event).alone outside app = (.ok wallet', app')) :
    wallet' = { wallet with state := wallet'.state } ∧
      app'.store = { app.store with wallets := app.store.wallets.save wallet' } := by
  cases event <;>
  · cases h
    exact ⟨rfl, rfl⟩

theorem proceed_saves (hproceeds : wallet.Proceeds app.store)
    (h : wallet.proceed.alone outside app = (.ok wallet', app')) :
    wallet' = { wallet with state := wallet'.state } ∧
      app'.store = { app.store with wallets := app.store.wallets.save wallet' } := by
  unfold proceed at h
  split at h <;> rename_i hstate
  case h_3 =>
    have haccount := hproceeds.2 hstate
    unfold proceedWithFirstDeposit at h
    split at h
    · cases h
    · rw [Call.read, Process.alone_query_bind] at h
      cases hfind : app.store.accounts.find wallet.feeAccountID with
      | none => exact absurd hfind haccount
      | some account =>
          simp only [hfind] at h
          split at h <;> exact enter_saves h
  case h_7 => exact absurd hstate hproceeds.1
  all_goals exact enter_saves h

/-- A completed transition changes the state of the wallet only. -/
theorem movesTo_of_proceed (h : wallet.proceed.alone outside app = (.ok wallet', app')) :
    wallet.MovesTo wallet' app.store app'.store := by
  have hends : EndsMoved wallet.proceed wallet outside app ∨ _ := proceed_ends
  rcases hends with ⟨moved, next, hdone, hmoves⟩ | ⟨-, reason, hstop⟩
  · rw [hdone] at h
    cases h
    exact hmoves
  · rw [hstop] at h
    cases h

theorem movesTo_of_cancel (h : wallet.cancel.alone outside app = (.ok wallet', app')) :
    wallet.MovesTo wallet' app.store app'.store := by
  have hends : EndsMoved wallet.cancel wallet outside app := cancel_ends
  obtain ⟨moved, next, hdone, hmoves⟩ := hends
  rw [hdone] at h
  cases h
  exact hmoves

/-- A transition of a stored wallet keeps all addresses. -/
theorem MovesTo.mirrored {store store' : Store} (h : wallet.MovesTo wallet' store store')
    (hfind : store.wallets.find wallet.id = some wallet) (hstore : store.Mirrored) :
    store'.Mirrored := by
  rcases h.stored with ⟨-, rfl⟩ | rfl
  · exact hstore
  · apply hstore.saveWallet
    intro old hold entry _ _ _
    left
    rw [h.same] at hold ⊢
    rw [hfind] at hold
    cases hold
    rfl

end Wallet

namespace DeploymentDomainService

variable {services : Services} {outside : Outside} {app app' : App} {walletID : WalletID}

/-- The handler leaves the address book alone, or adds an entry and lets the wallet proceed
with its address. -/
theorem deploymentStarted_cases
    (h : (executeInWallet services .deploymentStarted walletID).alone outside app = (.ok (), app')) :
    app'.store = app.store ∨
      ∃ wallet wallet', app.store.wallets.find walletID = some wallet ∧
        (wallet.MovesTo wallet' app.store app'.store ∨
          ∃ response, outside.deployment.createSafeCreationTransaction
              (creationRequest wallet outside.deployment.randomSaltNonce) = .ok response ∧
            (withContract services wallet response).proceed.alone outside
              (app.modify (addAddressBookEntry services response.safeAddress)) =
                (.ok wallet', app')) := by
  rw [executeInWallet, Call.findWallet, Process.alone_query_bind] at h
  cases hfind : app.store.wallets.find walletID with
  | none =>
      simp only [hfind] at h
      cases h
      exact .inl rfl
  | some wallet =>
      right
      simp only [hfind, action] at h
      cases hanswer : outside.deployment.createSafeCreationTransaction
          (creationRequest wallet outside.deployment.randomSaltNonce) with
      | error error =>
          have hprepare : (prepareSafeCreationTransaction services wallet).alone outside app =
              (.ok ⟨wallet, some error⟩, app) := by
            rw [prepareSafeCreationTransaction, Process.alone_query_bind]
            simp only [hanswer]
            rfl
          rw [Process.alone_bind_of_ok hprepare] at h
          cases error with
          | network =>
              cases h
              exact ⟨wallet, wallet, rfl, .inl ⟨rfl, .inl ⟨rfl, rfl⟩⟩⟩
          | other =>
              have hends : Wallet.EndsMoved wallet.cancel wallet outside app := Wallet.cancel_ends
              obtain ⟨wallet', canceled, hcancel, hmoves⟩ := hends
              simp only [handleError, Process.alone_bind_of_ok hcancel] at h
              cases h
              exact ⟨wallet, wallet', rfl, .inl hmoves⟩
      | ok response =>
          have hprepare : (prepareSafeCreationTransaction services wallet).alone outside app =
              ((withContract services wallet response).proceed >>= fun wallet' =>
                (Process.pure ⟨wallet', none⟩ : Call Outcome)).alone outside
                  (app.modify (addAddressBookEntry services response.safeAddress)) := by
            rw [prepareSafeCreationTransaction, Process.alone_query_bind]
            simp only [hanswer]
            rfl
          cases hproceed : (withContract services wallet response).proceed.alone outside
              (app.modify (addAddressBookEntry services response.safeAddress)) with
          | mk result moved =>
              cases result with
              | error reason =>
                  rw [Process.alone_bind_of_error hproceed] at hprepare
                  rw [Process.alone_bind_of_error hprepare] at h
                  cases h
              | ok wallet' =>
                  rw [Process.alone_bind_of_ok hproceed] at hprepare
                  rw [Process.alone_bind_of_ok hprepare] at h
                  cases h
                  exact ⟨wallet, wallet', rfl, .inr ⟨response, hanswer, hproceed⟩⟩

/-- The address that a wallet gives up has no entry, or another wallet has it, too. -/
def Vacates (store : Store) (wallet : Wallet) (address : Address) : Prop :=
  ∀ entry ∈ store.addressBook.rows, entry.type = .wallet → wallet.address = some ⟨entry.address⟩ →
    entry.address = address.value ∨ store.SharesAddress wallet.id ⟨entry.address⟩

/-- A wallet that proceeds with its new address leaves the address book in order exactly if no
entry of the old one is left. -/
theorem mirrored_prepared_iff {wallet wallet' : Wallet} {response : SafeCreationResponse}
    (h : app.store.Mirrored) (hfind : app.store.wallets.find walletID = some wallet)
    (hproceeds : wallet.Proceeds app.store)
    (hdone : (withContract services wallet response).proceed.alone outside
      (app.modify (addAddressBookEntry services response.safeAddress)) = (.ok wallet', app')) :
    app'.store.Mirrored ↔ Vacates app.store wallet response.safeAddress := by
  have hmodified : (withContract services wallet response).Proceeds
      (app.modify (addAddressBookEntry services response.safeAddress)).store := hproceeds
  obtain ⟨hsame, hstore⟩ := Wallet.proceed_saves hmodified hdone
  have hid : wallet'.id = wallet.id := by rw [hsame, withContract]
  have haddress : wallet'.address = some response.safeAddress := by rw [hsame, withContract]
  have hkey : wallet.id = walletID := (Table.mem_of_find hfind).2
  -- The entry and the row are in different repositories.
  have hswap : app'.store = addAddressBookEntry services response.safeAddress
      { app.store with wallets := app.store.wallets.save wallet' } := by
    rw [hstore]
    rfl
  constructor
  · intro hmirrored entry hentry hwallet howned
    have hkept : entry ∈ app'.store.addressBook.rows := by
      rw [hswap]
      exact (Store.mem_addAddressBookEntry services).mpr (.inl hentry)
    obtain ⟨owner, howner, howner'⟩ := hmirrored.owned entry hkept hwallet
    rw [hstore] at howner
    rcases Table.mem_rows_save.mp howner with rfl | ⟨hold, hne⟩
    · left
      rw [haddress] at howner'
      rw [Option.some.inj howner']
    · exact .inr ⟨owner, hold, hid ▸ hne, howner'⟩
  · intro hvacates
    rw [hswap]
    apply Store.Mirrored.addEntry
    · apply h.saveWallet
      intro old hold entry hentry hwallet howned
      rw [hid, hkey, hfind] at hold
      cases hold
      rcases hvacates entry hentry hwallet howned with hsame' | hshares
      · left
        rw [haddress, howned, hsame']
      · right
        rw [hid]
        exact hshares
    · exact ⟨wallet', Table.mem_rows_save.mpr (.inl rfl), haddress⟩

end DeploymentDomainService

end SafeWallet
