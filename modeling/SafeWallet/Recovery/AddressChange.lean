/-
# The address of a recovery draft

Before a recovery the user enters the address of the Safe and then its recovery phrase.
`change(address:)` validates the address, writes it to the wallet and to the address book
and only then asks the contract for its owners; what fails after the writes leaves them
behind. The owners it gets are added to those of the addresses entered before, and
`provide(recoveryPhrase:)` looks the accounts of the phrase up among all of them.

The implementation behind the contract is asked for twice, before the writes and after them,
and the node may answer differently by then.

The operations are written with the errors they report. Without these, `change` is the
operation of the same name in the module about the address book.
-/

import SafeWallet.Recovery.RecoveredOwners
import SafeWallet.Wallet.AddressBook

namespace SafeWallet

open SafeOwnerManagerContractProxy

/-- `RecoveryServiceError`, as far as the operations report it, and an error of the node. -/
inductive RecoveryServiceError
  | invalidContractAddress
  | walletAlreadyExists
  | recoveryAccountsNotFound
  | recoveryPhraseInvalid
  | unsupportedWalletConfiguration (message : String)
  | requestFailed
  deriving DecidableEq, Repr

namespace RecoveryDomainService

/-! ## The operations -/

section Operations

variable (services : Services)

/-- `validate(address:)`. -/
def validateOrThrow (address : Address) (store : Store) : Except RecoveryServiceError Unit :=
  if walletsWithAddress address store ≠ [] then .error .walletAlreadyExists
  else
    match GnosisSafeContractProxy.masterCopyAddress services address with
    | none => .error .requestFailed
    | some masterCopy =>
      if services.metadata.masterCopy.any fun copy =>
          copy.address.value.toLower = masterCopy.value.toLower then .ok ()
      else .error .invalidContractAddress

/-- The wallet with what was pulled. -/
def pulledWallet (wallet : Wallet) (existingOwnerAddresses : List Address)
    (confirmationCount : ℕ) (masterCopy : Address) : Wallet :=
  let wallet := existingOwnerAddresses.foldl
    (fun wallet address => wallet.addOwner ⟨address, .unknown⟩) wallet
  { wallet with
    confirmationCount := confirmationCount
    masterCopyAddress := some masterCopy
    contractVersion := services.metadata.version masterCopy }

/-- `pullWalletData()`. -/
def pullWalletDataOrThrow (store : Store) : Trapping (Except RecoveryServiceError Store) := do
  let wallet ← Trapping.unwrap store.selectedWallet
  let address ← Trapping.unwrap wallet.address
  match ← getOwners services address with
  | none => return .error .requestFailed
  | some existingOwnerAddresses =>
    match ← getThreshold services address with
    | none => return .error .requestFailed
    | some confirmationCount =>
      let scheme : WalletScheme := ⟨confirmationCount, existingOwnerAddresses.length⟩
      let errorMessage := "Configuration " ++ toString scheme.confirmations ++ "/" ++
        toString scheme.owners ++ " is not supported"
      if scheme = .withoutExtension ∨ scheme = .withExtension then
        match GnosisSafeContractProxy.masterCopyAddress services address with
        | none => return .error .requestFailed
        | some masterCopy =>
          let wallet :=
            pulledWallet services wallet existingOwnerAddresses confirmationCount masterCopy
          return .ok { store with wallets := store.wallets.save wallet }
      else return .error (.unsupportedWalletConfiguration errorMessage)

/-- The writes of `change(address:)` before the contract is asked. -/
def enterAddress (address : Address) (wallet : Wallet) (store : Store) : Store :=
  let store := removeOldAddressBookEntry store
  let store := { store with wallets := store.wallets.save { wallet with address := some address } }
  DeploymentDomainService.addAddressBookEntry services address store

/-- `change(address:)`, with the error that is posted, for what the node answers before the
writes and what it answers later. -/
def change (later : Services) (address : Address) (store : Store) :
    Trapping (Store × Option RecoveryServiceError) :=
  match validateOrThrow services address store with
  | .error error => return (store, some error)
  | .ok _ => do
    let wallet ← Trapping.unwrap (removeOldAddressBookEntry store).selectedWallet
    let store := enterAddress services address wallet store
    match ← pullWalletDataOrThrow later store with
    | .error error => return (store, some error)
    | .ok store => return (store, none)

/-- The accounts of a phrase: the first one, if the phrase is valid, and the one derived from
an account. -/
structure PhraseDerivation where
  fromPhrase : String → Option ExternallyOwnedAccount
  derived : ExternallyOwnedAccount → ExternallyOwnedAccount

/-- `verifyRecovery(wallet:recoveryPhrase:)`. -/
def verifyRecovery (derivation : PhraseDerivation) (wallet : Wallet) (recoveryPhrase : String) :
    Except RecoveryServiceError (ExternallyOwnedAccount × ExternallyOwnedAccount) :=
  match derivation.fromPhrase recoveryPhrase with
  | none => .error .recoveryPhraseInvalid
  | some recoveryAccount =>
    let derivedAccount := derivation.derived recoveryAccount
    let recoveryOwner : Owner :=
      if wallet.state = .recoveryDraft then ⟨recoveryAccount.address.normalized, .unknown⟩
      else ⟨recoveryAccount.address, .paperWallet⟩
    let derivedOwner : Owner :=
      if wallet.state = .recoveryDraft then ⟨derivedAccount.address.normalized, .unknown⟩
      else ⟨derivedAccount.address, .paperWalletDerived⟩
    if recoveryOwner ∈ wallet.owners ∧ derivedOwner ∈ wallet.owners then
      .ok (recoveryAccount, derivedAccount)
    else .error .recoveryAccountsNotFound

/-- `save(_:)` of an account. -/
def saveAccount (account : ExternallyOwnedAccount) (store : Store) : Store :=
  if store.externallyOwnedAccounts.find account.address = none then
    { store with externallyOwnedAccounts := store.externallyOwnedAccounts.save account }
  else store

/-- `provide(recoveryPhrase:)`, with the error that is posted. Without an error the phrase is
accepted. -/
def provide (derivation : PhraseDerivation) (recoveryPhrase : String) (store : Store) :
    Trapping (Store × Option RecoveryServiceError) := do
  let wallet ← Trapping.unwrap store.selectedWallet
  match verifyRecovery derivation wallet recoveryPhrase with
  | .error error => return (store, some error)
  | .ok (recoveryAccount, derivedAccount) =>
    let store := saveAccount derivedAccount (saveAccount recoveryAccount store)
    let wallet := wallet.addOwner ⟨recoveryAccount.address, .paperWallet⟩
    let wallet := wallet.addOwner ⟨derivedAccount.address, .paperWalletDerived⟩
    return ({ store with wallets := store.wallets.save wallet }, none)

end Operations

/-! ## Without the errors -/

variable {services later : Services} {address : Address} {store store' : Store} {wallet : Wallet}

theorem validate_eq_true_iff : validate services address store = true ↔
    validateOrThrow services address store = .ok () := by
  unfold validate validateOrThrow
  by_cases hwallets : walletsWithAddress address store = []
  · cases GnosisSafeContractProxy.masterCopyAddress services address <;> simp [hwallets]
  · simp [hwallets]

theorem pullWalletData_eq (services : Services) (store : Store) :
    pullWalletData services store =
      (pullWalletDataOrThrow services store).map fun result => result.toOption.getD store := by
  unfold pullWalletData pullWalletDataOrThrow
  cases store.selectedWallet with
  | none => rfl
  | some wallet =>
      simp only [Trapping.unwrap_some, Trapping.ok_bind]
      cases wallet.address with
      | none => rfl
      | some address =>
          simp only [Trapping.unwrap_some, Trapping.ok_bind]
          rcases getOwners services address with trap | _ | owners
          · rfl
          · rfl
          · simp only [Trapping.ok_bind]
            rcases getThreshold services address with trap | _ | count
            · rfl
            · rfl
            · simp only [Trapping.ok_bind]
              split
              · cases GnosisSafeContractProxy.masterCopyAddress services address <;> rfl
              · rfl

/-- The errors apart, `change` is the operation on the wallets and the address book, when the
node answers the same all along. -/
theorem changeAddress_eq (services : Services) (address : Address) (store : Store) :
    changeAddress services address store =
      (change services services address store).map Prod.fst := by
  cases hvalidate : validateOrThrow services address store with
  | error error =>
      have hfalse : ¬ validate services address store = true := by
        rw [validate_eq_true_iff, hvalidate]
        simp
      simp only [changeAddress, if_neg hfalse, change, hvalidate]
      rfl
  | ok _ =>
      have hpull : changeAddress services address store =
          Trapping.unwrap (removeOldAddressBookEntry store).selectedWallet >>= fun wallet =>
            pullWalletData services (enterAddress services address wallet store) := by
        rw [changeAddress, if_pos (validate_eq_true_iff.mpr hvalidate)]
        rfl
      simp only [hpull, change, hvalidate]
      cases (removeOldAddressBookEntry store).selectedWallet with
      | none => rfl
      | some wallet =>
          simp only [Trapping.unwrap_some, Trapping.ok_bind, pullWalletData_eq]
          rcases pullWalletDataOrThrow services (enterAddress services address wallet store) with
            trap | error | store' <;> rfl

/-! ## What a change comes to -/

/-- A saved version of the selected wallet is the selected wallet. -/
theorem selectedWallet_saveWallet {version : Wallet} (h : store.selectedWallet = some wallet)
    (hid : version.id = wallet.id) :
    Store.selectedWallet { store with wallets := store.wallets.save version } = some version := by
  simp only [Store.selectedWallet, Option.bind_eq_bind, Option.bind_eq_some_iff] at h ⊢
  obtain ⟨id, hid', hfind⟩ := h
  refine ⟨id, hid', ?_⟩
  rw [Table.find_save, if_pos (hid.trans (Table.mem_of_find hfind).2)]

theorem addAddressBookEntry_selectedWallet :
    (DeploymentDomainService.addAddressBookEntry services address store).selectedWallet =
      store.selectedWallet := rfl

theorem selectedWallet_enterAddress (h : store.selectedWallet = some wallet) :
    (enterAddress services address wallet store).selectedWallet =
      some { wallet with address := some address } := by
  rw [enterAddress, addAddressBookEntry_selectedWallet]
  exact selectedWallet_saveWallet (selectedWallet_removeOldAddressBookEntry.trans h) rfl

/-- The contract does not answer, or has a scheme that is not supported, or its implementation
cannot be asked for again. -/
def PullFails (services : Services) (address : Address) : Prop :=
  getOwners services address = .ok none ∨
    ∃ owners, getOwners services address = .ok (some owners) ∧
      (getThreshold services address = .ok none ∨
        ∃ confirmations, getThreshold services address = .ok (some confirmations) ∧
          (((⟨confirmations, owners.length⟩ : WalletScheme) ≠ .withoutExtension ∧
            (⟨confirmations, owners.length⟩ : WalletScheme) ≠ .withExtension) ∨
          GnosisSafeContractProxy.masterCopyAddress services address = none))

/-- A change is refused, or stops half-way, or is completed. -/
inductive ChangeOutcome (services later : Services) (address : Address) (wallet : Wallet)
    (store : Store) : Store × Option RecoveryServiceError → Prop
  | refused (error : RecoveryServiceError)
      (hvalidate : validateOrThrow services address store = .error error) :
      ChangeOutcome services later address wallet store (store, some error)
  | interrupted (error : RecoveryServiceError)
      (hvalidate : validateOrThrow services address store = .ok ())
      (hfails : PullFails later address) :
      ChangeOutcome services later address wallet store
        (enterAddress services address wallet store, some error)
  | completed (owners : List Address) (confirmations : ℕ) (masterCopy : Address)
      (hvalidate : validateOrThrow services address store = .ok ())
      (howners : getOwners later address = .ok (some owners))
      (hsucceeds : ¬ PullFails later address) :
      ChangeOutcome services later address wallet store
        ({ enterAddress services address wallet store with
          wallets := (enterAddress services address wallet store).wallets.save
            (pulledWallet later { wallet with address := some address } owners confirmations
              masterCopy) }, none)

theorem change_outcome (hselected : store.selectedWallet = some wallet)
    {result : Store × Option RecoveryServiceError}
    (hdone : change services later address store = .ok result) :
    ChangeOutcome services later address wallet store result := by
  unfold change at hdone
  cases hvalidate : validateOrThrow services address store with
  | error error =>
      rw [hvalidate] at hdone
      cases hdone
      exact .refused error hvalidate
  | ok _ =>
      simp only [hvalidate, selectedWallet_removeOldAddressBookEntry, hselected,
        Trapping.unwrap_some, Trapping.ok_bind, pullWalletDataOrThrow,
        selectedWallet_enterAddress hselected, bind_assoc] at hdone
      obtain ⟨answer, howners, hdone⟩ := Trapping.bind_eq_ok_iff.mp hdone
      cases answer with
      | none =>
          cases hdone
          exact .interrupted _ hvalidate (.inl howners)
      | some owners =>
          simp only [bind_assoc] at hdone
          obtain ⟨answer, hthreshold, hdone⟩ := Trapping.bind_eq_ok_iff.mp hdone
          cases answer with
          | none =>
              cases hdone
              exact .interrupted _ hvalidate (.inr ⟨owners, howners, .inl hthreshold⟩)
          | some confirmations =>
              simp only at hdone
              split at hdone
              · rename_i hscheme
                cases hcopy : GnosisSafeContractProxy.masterCopyAddress later address with
                | none =>
                    rw [hcopy] at hdone
                    cases hdone
                    exact .interrupted _ hvalidate (.inr ⟨owners, howners, .inr
                      ⟨confirmations, hthreshold, .inr hcopy⟩⟩)
                | some masterCopy =>
                    rw [hcopy] at hdone
                    cases hdone
                    refine .completed owners confirmations masterCopy hvalidate howners ?_
                    rintro (hnone | ⟨owners', howners', hnone | ⟨confirmations', hthreshold',
                      hne | hnone⟩⟩)
                    · cases howners.symm.trans hnone
                    · cases hthreshold.symm.trans hnone
                    · cases howners.symm.trans howners'
                      cases hthreshold.symm.trans hthreshold'
                      exact hscheme.elim hne.1 hne.2
                    · cases hcopy.symm.trans hnone
              · rename_i hscheme
                cases hdone
                exact .interrupted _ hvalidate (.inr ⟨owners, howners, .inr
                  ⟨confirmations, hthreshold, .inl (not_or.mp hscheme)⟩⟩)

/-- What fails after the writes is reported. -/
theorem change_of_pullFails (hselected : store.selectedWallet = some wallet)
    (hvalidate : validateOrThrow services address store = .ok ())
    (hfails : PullFails later address) :
    ∃ error, change services later address store =
      .ok (enterAddress services address wallet store, some error) := by
  simp only [change, hvalidate, selectedWallet_removeOldAddressBookEntry, hselected,
    Trapping.unwrap_some, Trapping.ok_bind, pullWalletDataOrThrow,
    selectedWallet_enterAddress hselected]
  rcases hfails with howners | ⟨owners, howners, hthreshold | ⟨confirmations, hthreshold, hlast⟩⟩
  · simp only [howners, Trapping.ok_bind]
    exact ⟨_, rfl⟩
  · simp only [howners, Trapping.ok_bind, hthreshold]
    exact ⟨_, rfl⟩
  · simp only [howners, Trapping.ok_bind, hthreshold]
    split
    · rename_i hscheme
      have hcopy : GnosisSafeContractProxy.masterCopyAddress later address = none :=
        hlast.resolve_left fun hne => hscheme.elim hne.1 hne.2
      rw [hcopy]
      exact ⟨_, rfl⟩
    · exact ⟨_, rfl⟩

/-- A contract that answers with a supported scheme is entered. -/
theorem change_of_answers (hselected : store.selectedWallet = some wallet)
    (hvalidate : validateOrThrow services address store = .ok ()) {owners : List Address}
    (howners : getOwners later address = .ok (some owners)) {confirmations : ℕ}
    (hthreshold : getThreshold later address = .ok (some confirmations))
    (hscheme : (⟨confirmations, owners.length⟩ : WalletScheme) = .withoutExtension ∨
      (⟨confirmations, owners.length⟩ : WalletScheme) = .withExtension) {masterCopy : Address}
    (hcopy : GnosisSafeContractProxy.masterCopyAddress later address = some masterCopy) :
    change services later address store =
      .ok ({ enterAddress services address wallet store with
        wallets := (enterAddress services address wallet store).wallets.save
          (pulledWallet later { wallet with address := some address } owners confirmations
            masterCopy) }, none) := by
  simp only [change, hvalidate, selectedWallet_removeOldAddressBookEntry, hselected,
    Trapping.unwrap_some, Trapping.ok_bind, pullWalletDataOrThrow,
    selectedWallet_enterAddress hselected, howners, hthreshold, hscheme, ↓reduceIte, hcopy]
  rfl

/-! ## Failed changes -/

/-- A change that reports an error leaves the selected wallet and the address book as they are. -/
def KeepsOnError (services later : Services) (address : Address) (store : Store) : Prop :=
  ∀ store' error, change services later address store = .ok (store', some error) →
    store'.selectedWallet = store.selectedWallet ∧ store'.addressBook = store.addressBook

/-- Identifiers are random: none is one that an entry has. -/
def NewIdentifiers (services : Services) (store : Store) : Prop :=
  ∀ known, services.nextID known ∉ store.addressBook.rows.map AddressBookEntry.id

/-- The writes are seen: the wallet has another address, or its entry is another one. -/
theorem enterAddress_changes (hselected : store.selectedWallet = some wallet)
    (hnew : NewIdentifiers services store) :
    ¬ ((enterAddress services address wallet store).selectedWallet = store.selectedWallet ∧
      (enterAddress services address wallet store).addressBook = store.addressBook) := by
  rintro ⟨hwallet, hbook⟩
  rw [selectedWallet_enterAddress hselected, hselected, Option.some.injEq] at hwallet
  have haddress : wallet.address = some address := by rw [← hwallet]
  let emptied : Store := { removeOldAddressBookEntry store with
    wallets := (removeOldAddressBookEntry store).wallets.save
      { wallet with address := some address } }
  -- no entry of the address is left, so that a new one is made
  have hnone : emptied.walletEntries address = [] := by
    rw [List.eq_nil_iff_forall_not_mem]
    intro entry hentry
    obtain ⟨hmem, hsame, htype⟩ := Store.mem_walletEntries.mp hentry
    simp only [emptied, removeOldAddressBookEntry, hselected, Option.bind_eq_bind,
      Option.bind_some, haddress, Table.mem_rows_removeAll] at hmem
    exact hmem.2 (List.mem_map_of_mem (Store.mem_walletEntries.mpr ⟨hmem.1, hsame, htype⟩))
  have hentry : emptied.newEntry services address ∈
      (enterAddress services address wallet store).addressBook.rows :=
    (Store.mem_addAddressBookEntry services).mpr (.inr ⟨hnone, rfl⟩)
  rw [hbook] at hentry
  exact hnew _ (List.mem_map_of_mem hentry)

/-- A failed change changes nothing, exactly when it is refused or does not fail after that. -/
theorem change_keeps_iff {services : Services} {store : Store} {wallet : Wallet}
    (later : Services) (address : Address) (hselected : store.selectedWallet = some wallet)
    (hnew : NewIdentifiers services store) :
    KeepsOnError services later address store ↔
      (validateOrThrow services address store ≠ .ok () ∨ ¬ PullFails later address) := by
  constructor
  · intro hkeeps
    by_contra hnot
    simp only [not_or, ne_eq, not_not] at hnot
    obtain ⟨error, hdone⟩ := change_of_pullFails hselected hnot.1 hnot.2
    exact enterAddress_changes hselected hnew (hkeeps _ error hdone)
  · intro hcondition store' error hdone
    cases change_outcome hselected hdone with
    | refused _ hvalidate => exact ⟨rfl, rfl⟩
    | interrupted _ hvalidate hfails =>
        exact absurd hcondition (not_or.mpr ⟨not_not.mpr hvalidate, not_not.mpr hfails⟩)

section Example

open RecoveryTransactionBuilder

/-- The implementation behind every Safe of the examples. -/
def masterCopyAddress : ChainAddress := 0x34cfac646f301356faa8b21e94227e3583fe3f5f

/-- A node that also knows the implementation. -/
def withMasterCopy (services : Services) : Services :=
  { services with
    metadata := { services.metadata with
      masterCopy := [⟨.ofChain masterCopyAddress, "1.1.1", [], []⟩] }
    eth_getStorageAt := fun _ _ => some (ContractProxy.encodeUInt masterCopyAddress.toNat) }

/-- A recovery draft without an address. -/
def newDraft : Wallet := draftWallet "wallet" (.ofChain deviceAddress)

/-- The store with the draft. -/
def draftStore : Store :=
  { Store.ofWallets ⟨[newDraft], List.nodup_singleton _⟩ Table.empty with
    portfolio := some ⟨["wallet"], some "wallet"⟩ }

theorem walletsWithAddress_of_drafts
    (hdrafts : ∀ wallet ∈ store.wallets.rows, wallet.state = .recoveryDraft) :
    walletsWithAddress address store = [] := by
  rw [walletsWithAddress, List.filter_eq_nil_iff]
  intro wallet hmem
  simp [hdrafts wallet hmem]

theorem masterCopyAddress_withMasterCopy (services : Services) (address : Address) :
    GnosisSafeContractProxy.masterCopyAddress (withMasterCopy services) address =
      some (.ofChain masterCopyAddress) := by
  have hword := ContractProxy.decodeUInt_encodeUInt masterCopyAddress.toNat []
  rw [List.append_nil, Nat.mod_eq_of_lt (masterCopyAddress.isLt.trans (by norm_num))] at hword
  simp only [GnosisSafeContractProxy.masterCopyAddress, withMasterCopy, Option.map_some,
    ContractProxy.decodeAddress, hword]
  rfl

theorem validate_withMasterCopy (services : Services) (address : Address)
    (hdrafts : ∀ wallet ∈ store.wallets.rows, wallet.state = .recoveryDraft) :
    validateOrThrow (withMasterCopy services) address store = .ok () := by
  simp only [validateOrThrow, walletsWithAddress_of_drafts hdrafts, ne_eq, not_true_eq_false,
    ↓reduceIte, masterCopyAddress_withMasterCopy]
  simp [withMasterCopy]

theorem draftStore_drafts : ∀ wallet ∈ draftStore.wallets.rows, wallet.state = .recoveryDraft := by
  intro wallet hmem
  cases List.mem_singleton.mp hmem
  rfl

theorem draftStore_selected : draftStore.selectedWallet = some newDraft := rfl

/-- Offline the address is refused, and nothing changes, whatever the node would say later. -/
theorem change_keeps_iff_offline :
    KeepsOnError (.offline recoveryKit recoveryMetadata)
      (withMasterCopy (.offline recoveryKit recoveryMetadata)) safe draftStore := by
  refine (change_keeps_iff _ safe draftStore_selected fun _ => List.not_mem_nil).mpr (.inl ?_)
  simp only [validateOrThrow, walletsWithAddress_of_drafts draftStore_drafts, ne_eq,
    not_true_eq_false, ↓reduceIte]
  exact fun heq => by cases heq

/-- A contract that does not answer leaves its address in the wallet. -/
theorem silentContract_entered :
    NewIdentifiers (withMasterCopy (.offline recoveryKit recoveryMetadata)) draftStore ∧
      ¬ KeepsOnError (withMasterCopy (.offline recoveryKit recoveryMetadata))
        (withMasterCopy (.offline recoveryKit recoveryMetadata)) safe draftStore := by
  have hnew : NewIdentifiers (withMasterCopy (.offline recoveryKit recoveryMetadata))
    draftStore := fun _ => List.not_mem_nil
  have hsilent : PullFails (withMasterCopy (.offline recoveryKit recoveryMetadata)) safe :=
    .inl rfl
  obtain ⟨error, hdone⟩ := change_of_pullFails draftStore_selected
    (validate_withMasterCopy (.offline recoveryKit recoveryMetadata) safe draftStore_drafts)
    hsilent
  exact ⟨hnew, fun hkeeps => enterAddress_changes draftStore_selected hnew (hkeeps _ error hdone)⟩

end Example

/-! ## Sequences of changes -/

/-- A draft with the owners that were last fetched for each address. -/
structure RecoveryDraft where
  store : Store
  fetched : Address → Option (List Address)

namespace RecoveryDraft

/-- What is fetched by a change. -/
def fetchedAfter (services later : Services) (address : Address) (draft : RecoveryDraft) :
    Address → Option (List Address) :=
  match validateOrThrow services address draft.store, getOwners later address with
  | .ok _, .ok (some owners) => Function.update draft.fetched address (some owners)
  | _, _ => draft.fetched

/-- A change of the address that ends, with or without an error. -/
def Changes (services later : Services) (address : Address) (draft draft' : RecoveryDraft) :
    Prop :=
  (∃ error, change services later address draft.store = .ok (draft'.store, error)) ∧
    draft'.fetched = fetchedAfter services later address draft

/-- A change of the address by some node. -/
def Step (draft draft' : RecoveryDraft) : Prop :=
  ∃ services later address, Changes services later address draft draft'

/-- The wallet knows an address as an owner of some contract. -/
def Knows (wallet : Wallet) (address : Address) : Prop := ⟨address, .unknown⟩ ∈ wallet.owners

/-- No owner of another contract is left behind: what the wallet knows is fetched again, or it
knows nothing yet, or the contract stays the same and does not answer. -/
def Careful (services later : Services) (address : Address) (store : Store) : Prop :=
  validateOrThrow services address store = .ok () → ∀ wallet, store.selectedWallet = some wallet →
    (∃ owners, getOwners later address = .ok (some owners) ∧
      ∀ owner, Knows wallet owner → owner ∈ owners) ∨
    (∀ owner, ¬ Knows wallet owner) ∨
    (wallet.address = some address ∧ getOwners later address = .ok none)

/-- A careful change. -/
def CarefulStep (draft draft' : RecoveryDraft) : Prop :=
  ∃ services later address, Changes services later address draft draft' ∧
    Careful services later address draft.store

/-- The selected wallet is a recovery draft for which nothing was fetched yet. -/
def Initial (draft : RecoveryDraft) : Prop :=
  ∃ wallet, draft.store.selectedWallet = some wallet ∧ wallet.state = .recoveryDraft ∧
    ∀ owner, ¬ Knows wallet owner

/-- An accepted phrase has both its accounts among the owners that were last fetched for the
address of the wallet. -/
def AcceptsOwners (draft : RecoveryDraft) : Prop :=
  ∀ derivation recoveryPhrase store',
    provide derivation recoveryPhrase draft.store = .ok (store', none) →
      ∃ wallet address owners account,
        draft.store.selectedWallet = some wallet ∧ wallet.address = some address ∧
        draft.fetched address = some owners ∧
        derivation.fromPhrase recoveryPhrase = some account ∧
        account.address.normalized ∈ owners ∧
        (derivation.derived account).address.normalized ∈ owners

/-- The invariant: everything the wallet knows was last fetched for its address. -/
structure Consistent (draft : RecoveryDraft) (wallet : Wallet) : Prop where
  selected : draft.store.selectedWallet = some wallet
  state_eq : wallet.state = .recoveryDraft
  known : ∀ owner, Knows wallet owner → ∃ address owners, wallet.address = some address ∧
    draft.fetched address = some owners ∧ owner ∈ owners

variable {draft draft' : RecoveryDraft}

theorem Consistent.acceptsOwners (h : draft.Consistent wallet) : draft.AcceptsOwners := by
  intro derivation recoveryPhrase store' hdone
  simp only [provide, h.selected, Trapping.unwrap_some, Trapping.ok_bind, verifyRecovery,
    h.state_eq, ↓reduceIte] at hdone
  cases haccount : derivation.fromPhrase recoveryPhrase with
  | none =>
      simp only [haccount] at hdone
      cases hdone
  | some account =>
      simp only [haccount] at hdone
      by_cases hknown : Knows wallet account.address.normalized ∧
          Knows wallet (derivation.derived account).address.normalized
      · obtain ⟨address, owners, haddress, hfetched, hmem⟩ := h.known _ hknown.1
        obtain ⟨address', owners', haddress', hfetched', hmem'⟩ := h.known _ hknown.2
        cases haddress.symm.trans haddress'
        cases hfetched.symm.trans hfetched'
        exact ⟨wallet, address, owners, account, h.selected, haddress, hfetched, rfl, hmem, hmem'⟩
      · unfold Knows at hknown
        rw [if_neg hknown] at hdone
        cases hdone

theorem fetchedAfter_of_error {error : RecoveryServiceError}
    (h : validateOrThrow services address draft.store = .error error) :
    draft.fetchedAfter services later address = draft.fetched := by
  rw [fetchedAfter, h]

theorem fetchedAfter_of_owners {owners : List Address}
    (h : validateOrThrow services address draft.store = .ok ())
    (howners : getOwners later address = .ok (some owners)) :
    draft.fetchedAfter services later address address = some owners := by
  rw [fetchedAfter, h, howners]
  exact Function.update_self ..

theorem fetchedAfter_of_none (howners : getOwners later address = .ok none) :
    draft.fetchedAfter services later address = draft.fetched := by
  rw [fetchedAfter, howners]
  split
  · rename_i heq
    cases heq
  · rfl

theorem pulledWallet_eq (owners : List Address) (confirmations : ℕ) (masterCopy : Address) :
    pulledWallet services wallet owners confirmations masterCopy = { wallet with
      owners := wallet.owners ++ owners.map fun a => ⟨a, .unknown⟩
      confirmationCount := confirmations
      masterCopyAddress := some masterCopy
      contractVersion := services.metadata.version masterCopy } := by
  rw [pulledWallet, RecoveryTransactionBuilder.foldl_addOwner]

/-- One careful change. -/
theorem Consistent.step (h : draft.Consistent wallet)
    (hcareful : Careful services later address draft.store)
    (hchanges : Changes services later address draft draft') :
    ∃ wallet', draft'.Consistent wallet' := by
  obtain ⟨⟨error, hdone⟩, hfetched⟩ := hchanges
  obtain ⟨store', fetched'⟩ := draft'
  simp only at hdone hfetched
  subst hfetched
  cases change_outcome h.selected hdone with
  | refused error hvalidate =>
      rw [fetchedAfter_of_error hvalidate]
      exact ⟨wallet, h.selected, h.state_eq, h.known⟩
  | interrupted error hvalidate hfails =>
      refine ⟨_, selectedWallet_enterAddress h.selected, h.state_eq, fun owner howner => ?_⟩
      rcases hcareful hvalidate wallet h.selected with ⟨owners, howners, hsubset⟩ | hnone |
        ⟨hsame, howners⟩
      · exact ⟨address, owners, rfl, fetchedAfter_of_owners hvalidate howners, hsubset owner howner⟩
      · exact absurd howner (hnone owner)
      · obtain ⟨address', owners, haddress, hfetched, hmem⟩ := h.known owner howner
        cases hsame.symm.trans haddress
        rw [fetchedAfter_of_none howners]
        exact ⟨address, owners, rfl, hfetched, hmem⟩
  | completed owners confirmations masterCopy hvalidate howners hsucceeds =>
      have hselected : (enterAddress services address wallet draft.store).selectedWallet =
          some { wallet with address := some address } := selectedWallet_enterAddress h.selected
      refine ⟨_, selectedWallet_saveWallet hselected ?_, ?_, fun owner howner => ?_⟩
      · rw [pulledWallet_eq]
      · rw [pulledWallet_eq]
        exact h.state_eq
      · refine ⟨address, owners, by rw [pulledWallet_eq],
          fetchedAfter_of_owners hvalidate howners, ?_⟩
        rw [pulledWallet_eq, Knows, List.mem_append] at howner
        rcases howner with hold | hnew
        · rcases hcareful hvalidate wallet h.selected with ⟨owners', howners', hsubset⟩ | hnone |
            ⟨-, hnone⟩
          · cases howners.symm.trans howners'
            exact hsubset owner hold
          · exact absurd hold (hnone owner)
          · cases howners.symm.trans hnone
        · obtain ⟨a, hmem, heq⟩ := List.mem_map.mp hnew
          cases heq
          exact hmem

/-- After every sequence of careful changes only a phrase of the current Safe is accepted. -/
theorem acceptsOwners_of_run {draft draft' : RecoveryDraft} (hinitial : draft.Initial)
    (hrun : Relation.ReflTransGen CarefulStep draft draft') : draft'.AcceptsOwners := by
  have hconsistent : ∃ wallet, draft'.Consistent wallet := by
    induction hrun with
    | refl =>
        obtain ⟨wallet, hselected, hstate, hnone⟩ := hinitial
        exact ⟨wallet, hselected, hstate, fun owner howner => absurd howner (hnone owner)⟩
    | tail _ hstep ih =>
        obtain ⟨wallet, hconsistent⟩ := ih
        obtain ⟨services, later, address, hchanges, hcareful⟩ := hstep
        exact hconsistent.step hcareful hchanges
  obtain ⟨wallet, hconsistent⟩ := hconsistent
  exact hconsistent.acceptsOwners

section Example

open RecoveryTransactionBuilder

/-- A node that knows one contract and its implementation. -/
def node (contract : Address) (manager : OwnerManager) : Services :=
  withMasterCopy (answering recoveryKit recoveryMetadata contract manager)

theorem answers_node {contract : Address} {manager : OwnerManager} :
    Answers (node contract manager) contract manager :=
  ⟨answers_answering.getOwners, answers_answering.getThreshold⟩

/-- Another contract. -/
def otherSafe : Address := .ofChain 0xfb6916095ca1df60bb79ce92ce3ea74c37c5d359

/-- Its owners. -/
def otherManager : OwnerManager where
  owners := [lostAddress, authenticatorAddress, deviceAddress]
  threshold := 1
  nodup := by decide
  valid := by simp [lostAddress, authenticatorAddress, deviceAddress]

/-- A contract with three owners is entered into a store of drafts. -/
theorem exists_changes {draft : RecoveryDraft} {wallet : Wallet} {contract : Address}
    {manager : OwnerManager} (hselected : draft.store.selectedWallet = some wallet)
    (hdrafts : ∀ wallet ∈ draft.store.wallets.rows, wallet.state = .recoveryDraft)
    (hthreshold : manager.threshold = 1) (hlength : manager.owners.length = 3) :
    ∃ draft' wallet',
      Changes (node contract manager) (node contract manager) contract draft draft' ∧
      draft'.store.selectedWallet = some wallet' ∧
      (∀ wallet ∈ draft'.store.wallets.rows, wallet.state = .recoveryDraft) ∧
      wallet'.address = some contract ∧
      wallet'.owners = wallet.owners ++
        (manager.owners.map Address.ofChain).map (fun a => ⟨a, .unknown⟩) ∧
      draft'.fetched contract = some (manager.owners.map Address.ofChain) := by
  have howners : getOwners (node contract manager) contract =
      .ok (some (manager.owners.map Address.ofChain)) := by
    rw [getOwners_eq answers_node, if_pos (by omega)]
  have hcount : getThreshold (node contract manager) contract = .ok (some 1) := by
    rw [getThreshold_eq answers_node, hthreshold]
    rfl
  have hvalidate : validateOrThrow (node contract manager) contract draft.store = .ok () :=
    validate_withMasterCopy _ contract hdrafts
  have hdone := change_of_answers hselected hvalidate howners hcount
    (.inl (by rw [List.length_map, hlength]; rfl)) (masterCopyAddress_withMasterCopy _ contract)
  refine ⟨⟨_, fetchedAfter (node contract manager) (node contract manager) contract draft⟩, _, ⟨⟨_, hdone⟩, rfl⟩,
    selectedWallet_saveWallet (selectedWallet_enterAddress hselected) (by rw [pulledWallet_eq]),
    fun other hother => ?_, by rw [pulledWallet_eq], by rw [pulledWallet_eq],
    fetchedAfter_of_owners hvalidate howners⟩
  have hstate : wallet.state = .recoveryDraft :=
    hdrafts wallet (Table.mem_of_find (find_selectedWallet hselected)).1
  rcases Table.mem_rows_save.mp hother with rfl | ⟨hother, -⟩
  · rw [pulledWallet_eq]
    exact hstate
  · rcases Table.mem_rows_save.mp hother with rfl | ⟨hother, -⟩
    · exact hstate
    · rw [wallets_removeOldAddressBookEntry] at hother
      exact hdrafts other hother

theorem draftStore_initial : Initial ⟨draftStore, fun _ => none⟩ := by
  refine ⟨newDraft, draftStore_selected, rfl, fun owner howner => ?_⟩
  cases List.mem_singleton.mp howner

/-- After the first contract was entered only its own phrase is accepted. -/
theorem acceptsOwners_of_run_first :
    ∃ draft', CarefulStep ⟨draftStore, fun _ => none⟩ draft' ∧ draft'.AcceptsOwners := by
  obtain ⟨draft', wallet', hchanges, -⟩ := @exists_changes ⟨draftStore, fun _ => none⟩ newDraft safe
    lostManager draftStore_selected draftStore_drafts rfl rfl
  have hstep : CarefulStep ⟨draftStore, fun _ => none⟩ draft' := by
    refine ⟨_, _, _, hchanges, fun _ wallet hselected => .inr (.inl fun owner howner => ?_)⟩
    cases draftStore_selected.symm.trans hselected
    cases List.mem_singleton.mp howner
  exact ⟨draft', hstep, acceptsOwners_of_run draftStore_initial (.single hstep)⟩

/-- The accounts of one phrase. -/
def paperDerivation : PhraseDerivation where
  fromPhrase _ := some ⟨.ofChain paperAddress, []⟩
  derived _ := ⟨.ofChain derivedAddress, []⟩

/-- The phrase of the contract that was entered first is accepted for the second one. -/
theorem formerPhrase_accepted :
    ¬ ∀ draft draft' : RecoveryDraft, draft.Initial → Relation.ReflTransGen Step draft draft' →
      draft'.AcceptsOwners := by
  intro h
  obtain ⟨first, wallet, hchanges, hselected, hdrafts, -, howners, -⟩ :=
    @exists_changes ⟨draftStore, fun _ => none⟩ newDraft safe lostManager draftStore_selected
      draftStore_drafts rfl rfl
  obtain ⟨second, wallet', hchanges', hselected', hdrafts', haddress, howners', hfetched⟩ :=
    @exists_changes first wallet otherSafe otherManager hselected hdrafts rfl rfl
  have haccepts := h _ second draftStore_initial
    ((Relation.ReflTransGen.single ⟨_, _, _, hchanges⟩).tail ⟨_, _, _, hchanges'⟩)
  have hknows : ∀ owner ∈ lostManager.owners, (⟨.ofChain owner, .unknown⟩ : Owner) ∈
      wallet'.owners := by
    intro owner hmem
    rw [howners', howners]
    refine List.mem_append_left _ (List.mem_append_right _ ?_)
    exact List.mem_map_of_mem (List.mem_map_of_mem hmem)
  have hstate : wallet'.state = .recoveryDraft :=
    hdrafts' wallet' (Table.mem_of_find (find_selectedWallet hselected')).1
  have hverify : verifyRecovery paperDerivation wallet' "" =
      .ok (⟨.ofChain paperAddress, []⟩, ⟨.ofChain derivedAddress, []⟩) := by
    simp only [verifyRecovery, paperDerivation, hstate, ↓reduceIte, Address.normalized_ofChain]
    rw [if_pos ⟨hknows _ (by decide), hknows _ (by decide)⟩]
  obtain ⟨current, address, owners, account, hcurrent, hsame, hlast, haccount, hmem, -⟩ :=
    haccepts paperDerivation "" _ (by
      simp only [provide, hselected', Trapping.unwrap_some, Trapping.ok_bind, hverify]
      rfl)
  cases hselected'.symm.trans hcurrent
  cases haddress.symm.trans hsame
  cases hfetched.symm.trans hlast
  cases haccount
  rw [Address.normalized_ofChain, List.mem_map_of_injective Address.ofChain_injective] at hmem
  revert hmem
  decide

end Example

end RecoveryDraft

end RecoveryDomainService

end SafeWallet
