/-
# Runs over the address book

Wallets are created, deployed, aborted and deployed again, recovered under changing addresses
and removed. Their entries stay in order as long as no deployment gives a wallet a new address
while the address book still has its old one.
-/

import SafeWallet.Wallet.AddressBook

namespace SafeWallet

open DeploymentDomainService (Vacates creationRequest executeInWallet)

/-- A call that runs to its end with nobody else at work. -/
def Process.ran {α : Type} (call : Call α) (outside : Outside) (store : Store) : Trapping Store :=
  match call.alone outside (.ofStore store) with
  | (.ok _, app) => .ok app.store
  | (.error reason, _) => .error reason

theorem Process.ran_eq_ok_iff {α : Type} {call : Call α} {outside : Outside}
    {store store' : Store} : call.ran outside store = .ok store' ↔
      ∃ a app, call.alone outside (.ofStore store) = (.ok a, app) ∧ app.store = store' := by
  unfold ran
  constructor
  · intro h
    split at h
    · rename_i a app hdone
      cases h
      exact ⟨a, app, hdone, rfl⟩
    · cases h
  · rintro ⟨a, app, hdone, rfl⟩
    rw [hdone]

/-- What happens to wallets and their addresses. -/
inductive AddressOperation
  | createNewDraftWallet (account : ExternallyOwnedAccount)
  | createRecoverDraftWallet (account : ExternallyOwnedAccount)
  | edit (walletID : WalletID) (change : Wallet → Wallet)
  | resume (walletID : WalletID)
  | proceed (walletID : WalletID)
  | cancel (walletID : WalletID)
  | deploymentStarted (walletID : WalletID)
  | changeAddress (address : Address)
  | removeWallet (walletID : WalletID)

namespace AddressOperation

/-- An operation on a wallet that is read from the repository. -/
def onWallet (walletID : WalletID) (f : Wallet → Trapping Store) (store : Store) :
    Trapping Store :=
  match store.wallets.find walletID with
  | none => return store
  | some wallet => f wallet

/-- What an operation leaves in the repositories. -/
def perform (services : Services) (outside : Outside) (store : Store) :
    AddressOperation → Trapping Store
  | createNewDraftWallet account =>
    (DeploymentDomainService.createNewDraftWallet services account).ran outside store
  | createRecoverDraftWallet account =>
    (RecoveryDomainService.createRecoverDraftWallet services account).ran outside store
  | edit walletID change => onWallet walletID (fun wallet =>
    return { store with wallets := store.wallets.save (change wallet) }) store
  | resume walletID => onWallet walletID (fun wallet => wallet.resume.ran outside store) store
  | proceed walletID => onWallet walletID (fun wallet => wallet.proceed.ran outside store) store
  | cancel walletID => onWallet walletID (fun wallet => wallet.cancel.ran outside store) store
  | deploymentStarted walletID =>
    (executeInWallet services .deploymentStarted walletID).ran outside store
  | changeAddress address => RecoveryDomainService.changeAddress services address store
  | removeWallet walletID => (WalletDomainService.removeWallet walletID).ran outside store

/-- Owners, fee token and data of the chain are edited, not the address. -/
def Allowed : AddressOperation → Prop
  | edit _ change => ∀ wallet, (change wallet).id = wallet.id ∧
    (change wallet).address = wallet.address
  | _ => True

/-- A wallet that is offered an address gets it, and its old one has no entry left. -/
def Careful (outside : Outside) (store : Store) : AddressOperation → Prop
  | deploymentStarted walletID => ∀ wallet response,
    store.wallets.find walletID = some wallet →
    outside.deployment.createSafeCreationTransaction
      (creationRequest wallet outside.deployment.randomSaltNonce) = .ok response →
    wallet.Proceeds store ∧ Vacates store wallet response.safeAddress
  | _ => True

variable {services : Services} {outside : Outside} {store store' : Store}

theorem resume_mirrored {wallet : Wallet} {app app' : App}
    (hfind : app.store.wallets.find wallet.id = some wallet) (h : app.store.Mirrored)
    (hdone : wallet.resume.alone outside app = (.ok (), app')) : app'.store.Mirrored := by
  unfold Wallet.resume at hdone
  split at hdone
  case h_1 =>
    unfold Wallet.resumeDraft at hdone
    simp only at hdone
    split at hdone
    · split at hdone
      · cases hdone
        apply h.saveWallet
        intro old hold entry _ _ _
        left
        rw [hfind] at hold
        cases hold
        rfl
      · cases hdone
    · cases hdone
  all_goals
    cases hdone
    exact h

/-- A new wallet has no address. -/
theorem saveWallet_new_mirrored {wallet : Wallet} (h : store.Mirrored)
    (hnew : wallet.id ∉ store.wallets.rows.map Wallet.id) :
    Store.Mirrored { store with wallets := store.wallets.save wallet } := by
  apply h.saveWallet
  intro old hold
  obtain ⟨hmem, hid⟩ := Table.mem_of_find hold
  exact absurd (hid ▸ List.mem_map_of_mem hmem) hnew

/-- An operation on a wallet keeps what it keeps for every stored wallet. -/
theorem onWallet_keeps {p : Store → Prop} {walletID : WalletID} {f : Wallet → Trapping Store}
    (h : p store)
    (hf : ∀ wallet, store.wallets.find wallet.id = some wallet → f wallet = .ok store' → p store')
    (hdone : onWallet walletID f store = .ok store') : p store' := by
  unfold onWallet at hdone
  split at hdone
  · cases hdone
    exact h
  · rename_i wallet hfind
    have hid : wallet.id = walletID := (Table.mem_of_find hfind).2
    exact hf wallet (hid ▸ hfind) hdone

/-- The handler of a started deployment. -/
theorem deploymentStarted_mirrored {walletID : WalletID} (h : store.Mirrored)
    (hcareful : (deploymentStarted walletID).Careful outside store)
    (hdone : (executeInWallet services .deploymentStarted walletID).ran outside store =
      .ok store') : store'.Mirrored := by
  obtain ⟨result, app, halone, rfl⟩ := Process.ran_eq_ok_iff.mp hdone
  rcases DeploymentDomainService.deploymentStarted_cases halone with
    hsame | ⟨wallet, wallet', hfind, hmoves | ⟨response, hanswer, hproceed⟩⟩
  · rw [hsame]
    exact h
  · have hid : wallet.id = walletID := (Table.mem_of_find hfind).2
    exact hmoves.mirrored (hid ▸ hfind) h
  · obtain ⟨hproceeds, hvacates⟩ := hcareful wallet response hfind hanswer
    have hstore : (App.ofStore store).store.Mirrored := h
    exact (DeploymentDomainService.mirrored_prepared_iff hstore hfind hproceeds hproceed).mpr
      hvacates

/-- One careful operation keeps the entries in order. -/
theorem perform_mirrored {operation : AddressOperation} (h : store.Mirrored)
    (hallowed : operation.Allowed) (hcareful : operation.Careful outside store)
    (hdone : operation.perform services outside store = .ok store') : store'.Mirrored := by
  cases operation with
  | createNewDraftWallet account =>
      cases hdone
      exact (saveWallet_new_mirrored h (services.nextID_not_mem _)).mono rfl fun _ hentry => hentry
  | createRecoverDraftWallet account =>
      cases hdone
      exact (saveWallet_new_mirrored h (services.nextID_not_mem _)).mono rfl fun _ hentry => hentry
  | edit walletID change =>
      apply onWallet_keeps h _ hdone
      intro wallet hfind hsaved
      cases hsaved
      obtain ⟨hid, haddress⟩ := hallowed wallet
      apply h.saveWallet
      intro old hold entry _ _ _
      rw [hid, hfind] at hold
      cases hold
      exact .inl haddress
  | resume walletID =>
      apply onWallet_keeps h _ hdone
      intro wallet hfind hran
      obtain ⟨result, app, halone, rfl⟩ := Process.ran_eq_ok_iff.mp hran
      exact resume_mirrored hfind h halone
  | proceed walletID =>
      apply onWallet_keeps h _ hdone
      intro wallet hfind hran
      obtain ⟨wallet', app, halone, rfl⟩ := Process.ran_eq_ok_iff.mp hran
      exact (Wallet.movesTo_of_proceed halone).mirrored hfind h
  | cancel walletID =>
      apply onWallet_keeps h _ hdone
      intro wallet hfind hran
      obtain ⟨wallet', app, halone, rfl⟩ := Process.ran_eq_ok_iff.mp hran
      exact (Wallet.movesTo_of_cancel halone).mirrored hfind h
  | deploymentStarted walletID => exact deploymentStarted_mirrored h hcareful hdone
  | changeAddress address => exact RecoveryDomainService.mirrored_changeAddress h hdone
  | removeWallet walletID =>
      obtain ⟨result, app, halone, rfl⟩ := Process.ran_eq_ok_iff.mp hdone
      rw [WalletDomainService.alone_removeWallet] at halone
      cases halone
      exact h.withoutWallet walletID

end AddressOperation

/-! ## Runs -/

/-- One operation. -/
def AddressStep (store store' : Store) : Prop :=
  ∃ services outside, ∃ operation : AddressOperation, operation.Allowed ∧
    operation.perform services outside store = .ok store'

/-- One careful operation. -/
def CarefulAddressStep (store store' : Store) : Prop :=
  ∃ services outside, ∃ operation : AddressOperation, operation.Allowed ∧
    operation.Careful outside store ∧ operation.perform services outside store = .ok store'

theorem CarefulAddressStep.step {store store' : Store} (h : CarefulAddressStep store store') :
    AddressStep store store' := by
  obtain ⟨services, outside, operation, hallowed, -, hdone⟩ := h
  exact ⟨services, outside, operation, hallowed, hdone⟩

theorem mirrored_emptyStore : WalletDomainService.emptyStore.Mirrored := by
  constructor <;> simp [WalletDomainService.emptyStore, Store.ofWallets, Table.empty]

/-- In every careful run the wallet entries of the address book are those of the wallets. -/
theorem wallet_entries_mirror_wallets {store : Store}
    (h : Relation.ReflTransGen CarefulAddressStep WalletDomainService.emptyStore store) :
    store.Mirrored := by
  induction h with
  | refl => exact mirrored_emptyStore
  | tail _ hstep ih =>
      obtain ⟨services, outside, operation, hallowed, hcareful, hdone⟩ := hstep
      exact AddressOperation.perform_mirrored ih hallowed hcareful hdone

/-! ## A draft that is deployed twice -/

section Example

open WalletDomainService (emptyStore deviceAccount loadedServices)
open RecoveryDomainService (offline)

/-- A server that offers an address for a new contract. -/
def offeringAddress (address : ℕ) : Outside :=
  { offline with
    deployment := {
      createSafeCreationTransaction := fun _ => .ok ⟨.ofUInt address, .ofUInt 4, 100⟩ } }

/-- A draft with all owners. -/
def completeDraft : Wallet :=
  { DeploymentDomainService.draftWallet "A" deviceAccount.address with
    owners := [⟨deviceAccount.address, .thisDevice⟩, ⟨.ofUInt 6, .paperWallet⟩,
      ⟨.ofUInt 7, .paperWalletDerived⟩] }

/-- The wallet with the address of its first contract. -/
def offeredWallet : Wallet :=
  { completeDraft with
    state := .waitingForFirstDeposit
    address := some (.ofUInt 21)
    minimumDeploymentTransactionAmount := some 100
    masterCopyAddress := some (.ofUInt 4) }

/-- The repositories with another version of a wallet. -/
def withVersion (store : Store) (wallet : Wallet) : Store :=
  { store with wallets := store.wallets.save wallet }

/-- The repositories with a new draft. -/
def draftStore : Store :=
  ((DeploymentDomainService.createNewDraftWallet loadedServices deviceAccount).alone
    offline (.ofStore emptyStore)).2.store

/-- The draft has its owners and is deployed. -/
def deployedStore : Store :=
  withVersion (withVersion draftStore completeDraft) { completeDraft with state := .deploying }

/-- It was offered an address. -/
def offeredStore : Store :=
  ((executeInWallet loadedServices .deploymentStarted "A").alone (offeringAddress 21)
    (.ofStore deployedStore)).2.store

/-- The deployment was aborted and started again. -/
def redeployedStore : Store :=
  withVersion (withVersion offeredStore { offeredWallet with state := .draft })
    { offeredWallet with state := .deploying }

/-- Another address was offered. -/
def reofferedStore : Store :=
  ((executeInWallet loadedServices .deploymentStarted "A").alone (offeringAddress 22)
    (.ofStore redeployedStore)).2.store

/-- A complete draft is deployed. -/
theorem resume_draft (wallet : Wallet) {store : Store}
    (hfind : store.wallets.find wallet.id = some wallet) (hstate : wallet.state = .draft)
    (hroles : wallet.hasAllRoles = true) (hlength : wallet.owners.length = 3) :
    (AddressOperation.resume wallet.id).perform loadedServices offline store =
      .ok (withVersion store { wallet with state := .deploying, confirmationCount := 1 }) := by
  have hall : wallet.allOwners.length = 3 := by simpa [Wallet.allOwners] using hlength
  simp only [AddressOperation.perform, AddressOperation.onWallet, hfind]
  rw [Process.ran_eq_ok_iff]
  simp only [Wallet.resume, hstate, Wallet.resumeDraft, hroles, hall]
  exact ⟨_, _, rfl, rfl⟩

/-- The run up to the first offer is careful: the draft has no address yet. -/
theorem offeredStore_run : Relation.ReflTransGen CarefulAddressStep emptyStore offeredStore := by
  have hcreated : CarefulAddressStep emptyStore draftStore :=
    ⟨loadedServices, offline, .createNewDraftWallet deviceAccount, trivial, trivial, rfl⟩
  have hedited : CarefulAddressStep draftStore (withVersion draftStore completeDraft) :=
    ⟨loadedServices, offline, .edit "A" fun wallet => { wallet with owners := completeDraft.owners },
      fun _ => ⟨rfl, rfl⟩, trivial, rfl⟩
  have hdeployed : CarefulAddressStep (withVersion draftStore completeDraft) deployedStore :=
    ⟨loadedServices, offline, .resume "A", trivial, trivial,
      resume_draft completeDraft rfl rfl rfl rfl⟩
  have hoffered : CarefulAddressStep deployedStore offeredStore := by
    refine ⟨loadedServices, offeringAddress 21, .deploymentStarted "A", trivial, ?_, rfl⟩
    intro wallet response hfind _
    have hwallet : wallet = { completeDraft with state := .deploying } :=
      (Option.some.inj hfind).symm
    rw [hwallet]
    refine ⟨⟨by decide, fun hstate => by cases hstate⟩, ?_⟩
    intro entry hentry
    cases hentry
  exact (((Relation.ReflTransGen.single hcreated).tail hedited).tail hdeployed).tail hoffered

theorem offeredStore_mirrored :
    offeredStore.addressBook.rows.map AddressBookEntry.address = [(Address.ofUInt 21).value] ∧
      offeredStore.Mirrored := ⟨rfl, wallet_entries_mirror_wallets offeredStore_run⟩

/-- The entry of the first address outlives the second deployment. -/
theorem reoffered_not_mirrored : ¬ ∀ store,
    Relation.ReflTransGen AddressStep emptyStore store → store.Mirrored := by
  intro h
  have hoffered : Relation.ReflTransGen AddressStep emptyStore offeredStore :=
    Relation.ReflTransGen.mono (fun _ _ => CarefulAddressStep.step) _ _ offeredStore_run
  have haborted : AddressStep offeredStore
      (withVersion offeredStore { offeredWallet with state := .draft }) :=
    ⟨loadedServices, offline, .cancel "A", trivial, rfl⟩
  have hredeployed : AddressStep (withVersion offeredStore { offeredWallet with state := .draft })
      redeployedStore :=
    ⟨loadedServices, offline, .resume "A", trivial,
      resume_draft { offeredWallet with state := .draft } rfl rfl rfl rfl⟩
  have hreoffered : AddressStep redeployedStore reofferedStore :=
    ⟨loadedServices, offeringAddress 22, .deploymentStarted "A", trivial, rfl⟩
  have hmirrored := h reofferedStore (((hoffered.tail haborted).tail hredeployed).tail hreoffered)
  have hentry : ⟨"A", "Safe", (Address.ofUInt 21).value, .wallet⟩ ∈
      reofferedStore.addressBook.rows := by
    have hold : ⟨"A", "Safe", (Address.ofUInt 21).value, .wallet⟩ ∈
        redeployedStore.addressBook.rows := List.mem_singleton.mpr rfl
    exact (Store.mem_addAddressBookEntry loadedServices).mpr (.inl hold)
  obtain ⟨wallet, hwallet, haddress⟩ := hmirrored.owned _ hentry rfl
  have haddresses : reofferedStore.wallets.rows.map Wallet.address = [some (.ofUInt 22)] := rfl
  have hmem := List.mem_map_of_mem (f := Wallet.address) hwallet
  rw [haddresses, haddress, List.mem_singleton] at hmem
  exact absurd hmem (by decide)

end Example

end SafeWallet
