/-
# A check that cannot be made

Post-processing asks the contract for its owners and its threshold. When such a
query throws, for example because the device is offline for a moment, the recovery
transaction is on the chain and cannot be taken back. The program gives up all the
same: it cannot tell a failed query from a proven mismatch, and removes the wallet
with its keys.
-/

import SafeWallet.Recovery.RecoveredOwners
import SafeWallet.Recovery.RecoveryService

namespace SafeWallet

namespace RecoveryDomainService

variable {services : Services} {outside : Outside} {app : App} {walletID : WalletID}
  {wallet : Wallet} {tx : Transaction} {contract : Address}

/-- The query for the owners throws, or the owners are the expected ones and the
query for the threshold throws. -/
def QueryThrows (services : Services) (outside : Outside) (wallet : Wallet) (contract : Address) :
    Prop :=
  let services := { services with eth_call := outside.eth_call }
  SafeOwnerManagerContractProxy.getOwners services contract = .ok none ∨
    ∃ remoteOwners,
      SafeOwnerManagerContractProxy.getOwners services contract = .ok (some remoteOwners) ∧
      sameOwners wallet remoteOwners = true ∧
      SafeOwnerManagerContractProxy.getThreshold services contract = .ok none

/-- What a later attempt needs is still there: the wallet, its accounts, its
transactions and the key of this device. -/
structure KeepsRecovery (before after : Store) (walletID : WalletID) : Prop where
  wallet : after.wallets.find walletID ≠ none
  accounts : ∀ account ∈ before.accountsOf walletID, after.accounts.find account.id ≠ none
  transactions : ∀ tx ∈ before.transactions.findWallet walletID,
    after.transactions.find tx.id ≠ none
  key : ∀ wallet owner, before.wallets.find walletID = some wallet →
    wallet.owner .thisDevice = some owner →
    before.externallyOwnedAccounts.find owner.address ≠ none →
    after.externallyOwnedAccounts.find owner.address ≠ none

/-- The calls that post-process a recovery whose transaction went through. -/
inductive PostProcesses (services : Services) (tx : Transaction) (walletID : WalletID) :
    Call Unit → Prop
  | postProcessing : PostProcesses services tx walletID (postProcessing services walletID)
  | handling : PostProcesses services tx walletID (handleTransactionProgress services tx walletID)

/-- Whatever the reason, giving up ends with the wallet removed. -/
theorem abandon_ends (wallet : Wallet) (walletID : WalletID) (outside : Outside) (app : App) :
    ∃ app', (abandon wallet walletID).alone outside app = (.ok (), app') ∧
      app'.store.wallets.find walletID = none := by
  obtain ⟨wallet', app₁, hcancel, -⟩ : Wallet.EndsMoved wallet.cancel wallet outside app :=
    Wallet.cancel_ends
  refine ⟨app₁.modify fun store => store.withoutWallet walletID, ?_, Store.find_withoutWallet⟩
  rw [abandon, Process.alone_bind_of_ok hcancel]
  exact WalletDomainService.alone_removeWallet

/-- A query that throws makes the check give up. -/
theorem check_ends (hthrows : QueryThrows services outside wallet contract) (walletID : WalletID)
    (app : App) :
    ∃ app', (check services wallet walletID contract).alone outside app = (.ok (), app') ∧
      app'.store.wallets.find walletID = none := by
  unfold check
  rcases hthrows with howners | ⟨remoteOwners, howners, hsame, hthreshold⟩
  · rw [Process.alone_bind_of_ok (Call.alone_getOwners howners)]
    exact abandon_ends _ _ _ _
  · rw [Process.alone_bind_of_ok (Call.alone_getOwners howners)]
    simp only [hsame, if_true]
    rw [Process.alone_bind_of_ok (Call.alone_getThreshold hthreshold)]
    exact abandon_ends _ _ _ _

/-- So does post-processing. -/
theorem postProcessing_ends (hwallet : app.store.wallets.find walletID = some wallet)
    (haddress : wallet.address = some contract)
    (htx : app.recoveryTransaction walletID = some tx)
    (hthrows : QueryThrows services outside wallet contract) :
    ∃ app', (postProcessing services walletID).alone outside app = (.ok (), app') ∧
      app'.store.wallets.find walletID = none := by
  rw [postProcessing, Process.alone_bind_of_ok (Call.alone_findWallet _), hwallet]
  simp only
  rw [Process.alone_bind_of_ok (Call.alone_findRecoveryTransaction htx), haddress]
  exact check_ends hthrows _ _

/-- And so does the handler of the transaction's progress, if it returns. -/
theorem handling_ends (hwallet : app.store.wallets.find walletID = some wallet)
    (haddress : wallet.address = some contract)
    (htx : app.recoveryTransaction walletID = some tx) (hsuccess : tx.status = .success)
    (hthrows : QueryThrows services outside wallet contract) :
    (wallet.state = .waitingForFirstDeposit ∧ ∃ reason,
      (handleTransactionProgress services tx walletID).alone outside app = (.error reason, app)) ∨
    ∃ app', (handleTransactionProgress services tx walletID).alone outside app = (.ok (), app') ∧
      app'.store.wallets.find walletID = none := by
  rw [handleTransactionProgress, Process.alone_bind_of_ok (Call.alone_findWallet _), hwallet]
  simp only [hsuccess]
  obtain ⟨-, rfl⟩ := Table.mem_of_find hwallet
  have hproceed : Wallet.EndsMoved wallet.proceed wallet outside app ∨ _ := Wallet.proceed_ends
  rcases hproceed with ⟨wallet', app₁, hproceed, hmoves⟩ | ⟨hstate, reason, hproceed⟩
  · right
    rw [Process.alone_bind_of_ok hproceed]
    -- The transition has changed nothing that the query and the comparison depend on.
    apply postProcessing_ends (hmoves.find hwallet)
    · rw [hmoves.same]
      exact haddress
    · rw [App.recoveryTransaction, hmoves.transactions]
      exact htx
    · rw [hmoves.same]
      exact hthrows
  · left
    exact ⟨hstate, reason, Process.alone_bind_of_error hproceed⟩

/-- A query that throws loses the recovery: whenever the handler returns, what a later
attempt needs is gone, and for a wallet in recovery the handler does return. -/
theorem throwingQuery_not_keepsRecovery {handler : Call Unit}
    (hhandler : PostProcesses services tx walletID handler)
    (hwallet : app.store.wallets.find walletID = some wallet)
    (haddress : wallet.address = some contract)
    (htx : app.recoveryTransaction walletID = some tx) (hsuccess : tx.status = .success)
    (hthrows : QueryThrows services outside wallet contract) :
    (∀ app', handler.alone outside app = (.ok (), app') →
      ¬ KeepsRecovery app.store app'.store walletID) ∧
    (wallet.state.isRecovery = true → ∃ app', handler.alone outside app = (.ok (), app')) := by
  have hends : (wallet.state = .waitingForFirstDeposit ∧
        ∃ reason, handler.alone outside app = (.error reason, app)) ∨
      ∃ app', handler.alone outside app = (.ok (), app') ∧
        app'.store.wallets.find walletID = none := by
    cases hhandler with
    | postProcessing => exact .inr (postProcessing_ends hwallet haddress htx hthrows)
    | handling => exact handling_ends hwallet haddress htx hsuccess hthrows
  rcases hends with ⟨hstate, reason, hrun⟩ | ⟨app₁, hrun, hgone⟩
  · constructor
    · intro app' hrun'
      rw [hrun] at hrun'
      cases hrun'
    · intro hrecovery
      rw [hstate] at hrecovery
      cases hrecovery
  · constructor
    · intro app' hrun' hkeeps
      rw [hrun] at hrun'
      cases hrun'
      exact hkeeps.wallet hgone
    · exact fun _ => ⟨app₁, hrun⟩

/-! ## A wallet that is lost -/

section Example

open RecoveryTransactionBuilder

/-- A wallet whose recovery transaction went through and is to be checked. -/
def uncheckedWallet : Wallet :=
  { recoveryWallet deviceAddress paperAddress derivedAddress none with
    state := .recoveryPostProcessing }

/-- Its recovery transaction. -/
def succeededRecovery : Transaction :=
  .toItself "recovery" .walletRecovery "wallet" safe .success "0x01"

/-- The program with that wallet, its account and the key of this device. -/
def uncheckedApp : App := .ofStore
  { Store.ofWallets (Table.empty.save uncheckedWallet) (Table.empty.save succeededRecovery) with
    accounts := Table.empty.save ⟨⟨Token.Ether.id, "wallet"⟩, some 0⟩
    externallyOwnedAccounts := Table.empty.save ⟨.ofChain deviceAddress, [1]⟩ }

/-- A device without network. -/
def offline : Outside where
  now := 0
  eth_call _ _ := none
  submitTransaction _ := none
  eth_getTransactionReceipt _ := none
  eth_getBlockByHash _ := none

/-- The services of that device. -/
def offlineServices : Services := Services.offline recoveryKit recoveryMetadata

/-- Offline for a moment after the transaction went through, the wallet is lost. -/
theorem offlineCheck_not_keepsRecovery :
    uncheckedApp.store.wallets.find "wallet" = some uncheckedWallet ∧
    uncheckedApp.recoveryTransaction "wallet" = some succeededRecovery ∧
    succeededRecovery.status = .success ∧
    QueryThrows offlineServices offline uncheckedWallet safe ∧
    ∃ app', (postProcessing offlineServices "wallet").alone offline uncheckedApp = (.ok (), app') ∧
      ¬ KeepsRecovery uncheckedApp.store app'.store "wallet" := by
  have hwallet : uncheckedApp.store.wallets.find "wallet" = some uncheckedWallet := rfl
  have htx : uncheckedApp.recoveryTransaction "wallet" = some succeededRecovery := rfl
  have hthrows : QueryThrows offlineServices offline uncheckedWallet safe := .inl rfl
  obtain ⟨app', hrun, hgone⟩ := postProcessing_ends hwallet rfl htx hthrows
  exact ⟨hwallet, htx, rfl, hthrows, app', hrun, fun hkeeps => hkeeps.wallet hgone⟩

/-- The handler of the progress ends the same way. -/
theorem offlineProgress_not_keepsRecovery :
    ∃ app', (handleTransactionProgress offlineServices succeededRecovery "wallet").alone offline
        uncheckedApp = (.ok (), app') ∧
      ¬ KeepsRecovery uncheckedApp.store app'.store "wallet" := by
  have hwallet : uncheckedApp.store.wallets.find "wallet" = some uncheckedWallet := rfl
  have htx : uncheckedApp.recoveryTransaction "wallet" = some succeededRecovery := rfl
  have hthrows : QueryThrows offlineServices offline uncheckedWallet safe := .inl rfl
  obtain ⟨hlost, hreturns⟩ := throwingQuery_not_keepsRecovery .handling hwallet rfl htx rfl hthrows
  obtain ⟨app', hrun⟩ := hreturns rfl
  exact ⟨app', hrun, hlost app' hrun⟩

end Example

end RecoveryDomainService

end SafeWallet
