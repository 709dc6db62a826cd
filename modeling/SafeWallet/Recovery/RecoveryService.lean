/-
# The recovery service at work

`RecoveryDomainService` from the submission of the recovery transaction to the
wallet's declaration as recovered: the calls as processes over the running program,
and the system they are part of. Calls come from the screens, from the launch and
from the publisher; the status of the recovery transaction changes when pending
transactions are updated; and the program may stop at any moment.

The preparation of a recovery appears only as far as it touches the wallet and its
recovery transaction: edits of a draft wallet, and the transaction the builder makes
for it.
-/

import SafeWallet.Recovery.TransactionBuilder
import SafeWallet.Wallet.WalletStates

namespace SafeWallet

/-- `isRecoveryDraft`, `isRecoveryInProgress` or `isFinalizingRecovery`. -/
def WalletState.isRecovery (state : WalletState) : Bool :=
  state = .recoveryDraft ∨ state = .recoveryInProgress ∨ state = .recoveryPostProcessing

namespace RecoveryDomainService

variable (services : Services)

/-! ## Completing a recovery -/

/-- `map { $0.value.lowercased() }.sorted()`. -/
def sortedTexts (addresses : List Address) : List String :=
  (addresses.map fun address => address.normalized.value).mergeSort
    fun first second => ¬ second < first

/-- The known owners of the wallet are the owners of the contract. -/
def sameOwners (wallet : Wallet) (remoteOwners : List Address) : Bool :=
  sortedTexts ((RecoveryTransactionBuilder.localOwners wallet).map Owner.address) =
    sortedTexts remoteOwners

/-- `cancelRecovery(walletID:)`. -/
def cancelRecovery (walletID : WalletID) : Call Unit := WalletDomainService.removeWallet walletID

/-- The `catch` clause of `postProcessing`. -/
def abandon (wallet : Wallet) (walletID : WalletID) : Call Unit := do
  let _ ← wallet.cancel
  cancelRecovery walletID

/-- The end of `postProcessing` after both checks. The notification that follows
changes nothing here. -/
def finish (wallet : Wallet) : Call Unit := do
  let paper ← Process.lift (Trapping.unwrap (wallet.owner .paperWallet))
  Call.write (Store.removeKey paper.address)
  let derived ← Process.lift (Trapping.unwrap (wallet.owner .paperWalletDerived))
  Call.write (Store.removeKey derived.address)
  let wallet ← wallet.proceed
  Call.saveWallet (wallet.removeOwner .unknown)

/-- The checks of `postProcessing`. Every error, also one of the network, leads to
the same clause. -/
def check (wallet : Wallet) (walletID : WalletID) (contract : Address) : Call Unit := do
  match ← Call.getOwners services walletID contract with
  | none => abandon wallet walletID
  | some remoteOwners =>
    if sameOwners wallet remoteOwners then
      match ← Call.getThreshold services walletID contract with
      | none => abandon wallet walletID
      | some remoteThreshold =>
        if wallet.confirmationCount = remoteThreshold then finish wallet
        else abandon wallet walletID
    else abandon wallet walletID

/-- `postProcessing(walletID:)`. -/
def postProcessing (walletID : WalletID) : Call Unit := do
  match ← Call.findWallet walletID .elsewhere with
  | none => return
  | some wallet =>
    let _ ← Process.lift (Trapping.unwrap (← Call.findRecoveryTransaction walletID))
    let contract ← Process.lift (Trapping.unwrap wallet.address)
    check services wallet walletID contract

/-- `handleTransactionProgress(_:_:)`. Its assertion about the wallet is not checked
in a release. -/
def handleTransactionProgress (tx : Transaction) (walletID : WalletID) : Call Unit := do
  match ← Call.findWallet walletID (.handling walletID) with
  | none => return
  | some wallet =>
    match tx.status with
    | .success =>
      let _ ← wallet.proceed
      postProcessing services walletID
    | .failed =>
      let wallet ← wallet.proceed
      let _ ← wallet.cancel
      cancelRecovery walletID
    | _ => return

/-- The closure that `subscribeForTransactionProcessing` hands to the publisher. -/
def transactionStatusUpdated (walletID : WalletID) : Call Unit := do
  match ← Call.findRecoveryTransaction walletID with
  | none => Process.update .elsewhere fun app => app.enqueue .unsubscribe
  | some tx =>
    if tx.status = .pending then return
    Process.update .elsewhere fun app => app.enqueue .unsubscribe
    handleTransactionProgress services tx walletID

/-! ## Submitting -/

/-- `subscribeForTransactionProcessing(walletID:)`. -/
def subscribeForTransactionProcessing (walletID : WalletID) : Call Unit := do
  match ← Call.findWallet walletID .elsewhere with
  | none => return
  | some _ =>
    let tx ← Process.lift (Trapping.unwrap (← Call.findRecoveryTransaction walletID))
    if tx.status = .pending then
      Process.update .elsewhere fun app => app.enqueue (.subscribe walletID)

/-- `submitRecoveryTransaction(walletID:)`. -/
def submitRecoveryTransaction (walletID : WalletID) : Call Unit := do
  match ← Call.findWallet walletID (.submitting walletID) with
  | none => return
  | some wallet =>
    let tx ← Process.lift (Trapping.unwrap (← Call.findRecoveryTransaction walletID))
    match ← Process.query .elsewhere fun _ outside => outside.submitTransaction tx with
    | none => return
    | some hash =>
      let now ← Call.now
      let tx ← Process.lift
        ({ tx with transactionHash := some hash, updatedDate := some now }.proceed now)
      Call.saveTransaction tx
      Call.publish .recoveryTransactionHashIsKnown
      let wallet ← wallet.proceed
      Call.saveWallet wallet
      subscribeForTransactionProcessing walletID

/-! ## Resuming -/

/-- The call with which `resume` continues, if it knows one. -/
def continuation (wallet : Wallet) (tx : Transaction) (walletID : WalletID) : Option (Call Unit) :=
  if !wallet.state.isReadyToUse && !wallet.state.isRecoveryInProgress && tx.status = .signing then
    some (submitRecoveryTransaction walletID)
  else if wallet.state.isFinalizingRecovery && tx.status = .success then
    some (postProcessing services walletID)
  else if wallet.state.isRecoveryInProgress && tx.status = .pending then
    some (subscribeForTransactionProcessing walletID)
  else if wallet.state.isRecoveryInProgress && (tx.status = .success || tx.status = .failed) then
    some (handleTransactionProgress services tx walletID)
  else none

/-- The four ways to continue. -/
theorem continuation_cases {services : Services} {wallet : Wallet} {tx : Transaction}
    {walletID : WalletID} {call : Call Unit}
    (h : continuation services wallet tx walletID = some call) :
    (call = submitRecoveryTransaction walletID ∧ wallet.state.isReadyToUse = false ∧
      wallet.state.isRecoveryInProgress = false ∧ tx.status = .signing) ∨
    (call = postProcessing services walletID ∧ wallet.state.isFinalizingRecovery = true ∧
      tx.status = .success) ∨
    (call = subscribeForTransactionProcessing walletID ∧
      wallet.state.isRecoveryInProgress = true ∧ tx.status = .pending) ∨
    (call = handleTransactionProgress services tx walletID ∧
      wallet.state.isRecoveryInProgress = true ∧
      (tx.status = .success ∨ tx.status = .failed)) := by
  unfold continuation at h
  split at h
  · rename_i hcond
    cases h
    simp only [Bool.and_eq_true, Bool.not_eq_true', decide_eq_true_eq] at hcond
    exact .inl ⟨rfl, hcond.1.1, hcond.1.2, hcond.2⟩
  · split at h
    · rename_i hcond
      cases h
      simp only [Bool.and_eq_true, decide_eq_true_eq] at hcond
      exact .inr (.inl ⟨rfl, hcond⟩)
    · split at h
      · rename_i hcond
        cases h
        simp only [Bool.and_eq_true, decide_eq_true_eq] at hcond
        exact .inr (.inr (.inl ⟨rfl, hcond⟩))
      · split at h
        · rename_i hcond
          cases h
          simp only [Bool.and_eq_true, Bool.or_eq_true, decide_eq_true_eq] at hcond
          exact .inr (.inr (.inr ⟨rfl, hcond⟩))
        · cases h

/-- `resume(walletID:)`. -/
def resume (walletID : WalletID) : Call Unit := do
  match ← Call.findWallet walletID .elsewhere with
  | none => return
  | some wallet =>
    match ← Call.findRecoveryTransaction walletID with
    | none => return
    | some tx =>
      match continuation services wallet tx walletID with
      | some call => call
      | none => .trap .precondition

/-! ## Preparing -/

/-- What the builder makes for a draft: a new version of the wallet and a recovery
transaction that is not submitted yet. -/
structure Built (draft : Wallet) where
  wallet : Wallet
  tx : Transaction
  same_id : wallet.id = draft.id
  same_state : wallet.state = draft.state
  type : tx.type = .walletRecovery
  walletID : tx.accountID.walletID = draft.id
  status : tx.status = .draft ∨ tx.status = .signing

/-- Remove the recovery transaction made before, if there is one. -/
def removeOldTransaction (walletID : WalletID) : Call Unit := do
  match ← Call.findRecoveryTransaction walletID with
  | none => return
  | some tx => Call.removeTransaction tx.id

/-- `estimateRecoveryTransaction()` and `createRecoveryTransaction()`: the old
transaction goes first, and a builder that fails saves nothing. -/
def prepareTransaction (draft : Wallet) (build : Outside → Option (Built draft)) : Call Unit := do
  removeOldTransaction draft.id
  match ← Process.query .elsewhere fun _ outside => build outside with
  | none => return
  | some built =>
    match ← Call.findWallet draft.id .elsewhere with
    | none => return
    | some _ =>
      Call.saveWallet built.wallet
      Call.saveTransaction built.tx
      Call.publish .walletBecameReadyForRecovery

/-- `Wallet(id:owner:)` after `prepareForRecovery()`. -/
def draftWallet (walletID : WalletID) (owner : Address) : Wallet where
  id := walletID
  state := .recoveryDraft
  owners := [⟨owner, .thisDevice⟩]
  address := none
  feePaymentTokenAddress := none
  confirmationCount := 1
  masterCopyAddress := none

/-- Add a wallet to the portfolio, which is created if there is none, and select it. -/
def addToPortfolio (walletID : WalletID) (store : Store) : Store :=
  let wallets := (store.portfolio.map Portfolio.wallets).getD []
  { store with portfolio := some ⟨wallets ++ [walletID], some walletID⟩ }

/-- `createRecoverDraftWallet()` with the key the generator makes. -/
def createRecoverDraftWallet (account : ExternallyOwnedAccount) : Call Unit := do
  Call.write fun store =>
    { store with externallyOwnedAccounts := store.externallyOwnedAccounts.save account }
  let walletID ← Call.read fun store => services.nextID (store.wallets.rows.map Wallet.id)
  Call.saveWallet (draftWallet walletID account.address)
  Call.write fun store =>
    { store with accounts := store.accounts.save ⟨⟨Token.Ether.id, walletID⟩, none⟩ }
  Call.write (addToPortfolio walletID)

end RecoveryDomainService

/-! ## Around the service -/

namespace TransactionDomainService

/-- One pending transaction of `updatePendingTransactions()`: whether the update goes
on, and whether something was saved. -/
def updatePending (tx : Transaction) : Call (Option Bool) :=
  match tx.transactionHash with
  | none => return none
  | some hash => do
    match ← Process.query (.asking tx.id) fun _ outside =>
        outside.eth_getTransactionReceipt hash with
    | none => return none
    | some none => return some false
    | some (some receipt) =>
      let now ← Call.now
      let tx ← Process.lift (if receipt.success then tx.succeed now else tx.fail now)
      match ← Process.query (.asking tx.id) fun _ outside =>
          outside.eth_getBlockByHash receipt.blockHash with
      | none => return none
      | some none =>
        Call.saveTransaction tx
        return some true
      | some (some timestamp) =>
        let tx := { tx with processedDate := some timestamp, updatedDate := some now }
        Call.saveTransaction tx
        Call.saveTransaction tx
        return some true

/-- The loop of `updatePendingTransactions()`. An error ends it without an event. -/
def updateAll : List Transaction → Bool → Call Unit
  | [], hasUpdates => if hasUpdates then Call.publish .transactionStatusUpdated else return
  | tx :: rest, hasUpdates => do
    match ← updatePending tx with
    | none => return
    | some saved => updateAll rest (hasUpdates || saved)

/-- `updatePendingTransactions()`. -/
def updatePendingTransactions : Call Unit := do
  let transactions ← Call.read fun store =>
    store.transactions.rows.filter fun tx => tx.status = .pending
  updateAll transactions false

/-- `cleanUpStaleTransactions()`. -/
def cleanUpStaleTransactions : Call Unit := do
  let transactions ← Call.read fun store =>
    store.transactions.rows.filter fun tx => tx.status = .draft ∨ tx.status = .signing
  Process.each transactions fun tx => Call.removeTransaction tx.id

end TransactionDomainService

namespace WalletApplication

/-- `cleanUpPortfolio()`. -/
def cleanUpPortfolio : Call Unit := do
  let stale ← Call.read fun store =>
    ((store.portfolio.map Portfolio.wallets).getD []).filter fun walletID =>
      store.wallets.find walletID = none
  Process.each stale fun walletID => do
    Call.write (Store.removeFromPortfolio walletID)
    WalletDomainService.removeAccounts walletID
    WalletDomainService.removeTransactions walletID

/-- `cleanUpDrafts()`. -/
def cleanUpDrafts : Call Unit := do
  let drafts ← Call.read fun store =>
    store.wallets.rows.filter fun wallet => wallet.state = .draft ∨ wallet.state = .recoveryDraft
  Process.each drafts fun draft => WalletDomainService.removeWallet draft.id
  cleanUpPortfolio

/-- `repairModelIfNeeded()`. -/
def repairModel (store : Store) : Store :=
  match store.portfolio with
  | none => store
  | some portfolio =>
    let known := store.wallets.rows.map Wallet.id
    let wallets := portfolio.wallets ++ known.filter fun id => id ∉ portfolio.wallets
    let selected := if portfolio.wallets = [] then known.head? <|> portfolio.selectedWallet
      else portfolio.selectedWallet
    let repaired := if selected.any fun id => id ∈ known then selected
      else known.head? <|> selected
    { store with portfolio := some ⟨wallets, repaired⟩ }

/-- `resumeRecoveryInBackground()`. -/
def resumeRecoveryInBackground : Call Unit :=
  Process.update .elsewhere fun app =>
    { app with jobs := app.jobs ++ (app.store.wallets.rows.filter fun wallet =>
        wallet.state.isRecoveryInProgress).map fun wallet => .resumeRecovery wallet.id }

/-- `appDidFinishLaunching()`, without the deployments it resumes. The screens come
after it. -/
def appDidFinishLaunching : Call Unit := do
  cleanUpDrafts
  Call.write repairModel
  resumeRecoveryInBackground
  Process.update .elsewhere fun app => { app with launched := true }

end WalletApplication

namespace RecoveryDomainService

variable (services : Services)

/-- What the global queue runs. -/
def perform : Job → Call Unit
  | .resumeRecovery walletID => resume services walletID
  | .transactionStatusUpdated walletID => transactionStatusUpdated services walletID
  | .cleanUpStaleTransactions => TransactionDomainService.cleanUpStaleTransactions

/-- The calls that can come, with the state they leave when they begin. The screens
of the preparation work on a selected recovery draft. -/
inductive Starts : App → Call Unit → App → Prop
  | job {app : App} {job : Job} (h : job ∈ app.jobs) :
      Starts app (perform services job) { app with jobs := app.jobs.erase job }
  | resumeRecovery {app : App} {wallet : Wallet} (launched : app.launched = true)
      (selected : app.selectedWallet = some wallet) : Starts app (resume services wallet.id) app
  | createRecoverDraftWallet {app : App} (account : ExternallyOwnedAccount)
      (launched : app.launched = true) : Starts app (createRecoverDraftWallet services account) app
  | editDraft {app : App} {draft wallet : Wallet} (launched : app.launched = true)
      (selected : app.selectedWallet = some draft) (state : draft.state = .recoveryDraft)
      (same_id : wallet.id = draft.id) (same_state : wallet.state = draft.state) :
      Starts app (Call.saveWallet wallet) app
  | prepareTransaction {app : App} {draft : Wallet} (build : Outside → Option (Built draft))
      (launched : app.launched = true) (selected : app.selectedWallet = some draft)
      (state : draft.state = .recoveryDraft) : Starts app (prepareTransaction draft build) app
  | cancelRecovery {app : App} (walletID : WalletID) (launched : app.launched = true) :
      Starts app (cancelRecovery walletID) app
  | cleanUpDrafts {app : App} (launched : app.launched = true) :
      Starts app WalletApplication.cleanUpDrafts app
  | updatePendingTransactions {app : App} (launched : app.launched = true) :
      Starts app TransactionDomainService.updatePendingTransactions app

/-- The publisher works off its queue. -/
def Delivers (app app' : App) : Prop :=
  ∃ publisher jobs, app.publisher.next = some (publisher, jobs) ∧
    app' = { app with publisher := publisher, jobs := app.jobs ++ jobs }

/-- The recovery service and everything around it. -/
def system : System App Outside Place where
  starts := Starts services
  moves := Delivers
  restart := App.restart
  boot := WalletApplication.appDidFinishLaunching

end RecoveryDomainService

end SafeWallet
