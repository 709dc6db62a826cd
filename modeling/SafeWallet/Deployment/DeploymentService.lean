/-
# The deployment service at work

`DeploymentDomainService` takes a draft wallet to a contract on the chain. Each
transition of the wallet publishes an event, each event calls a handler, and some
handlers start a repeater that asks a server again and again. A handler works on the
wallet object it has read, and a repeater keeps its object for as long as it runs;
neither looks into the repository again.

An action that throws is caught where the handler was called. Errors of the network
are ignored there, and any other error cancels the deployment of the object.
-/

import SafeWallet.Deployment.AccountUpdates
import SafeWallet.Recovery.RecoveryService
import SafeWallet.Wallet.OnchainOwners

namespace SafeWallet

/-- `creationStates`. -/
def WalletState.isCreationState (state : WalletState) : Bool :=
  match state with
  | .draft | .deploying | .notEnoughFunds | .creationStarted | .finalizingDeployment
  | .waitingForFirstDeposit => true
  | _ => false

namespace Wallet

/-- `isDeployable` in state draft: every required role has an owner. -/
def hasAllRoles (wallet : Wallet) : Bool :=
  [OwnerRole.thisDevice, .paperWallet, .paperWalletDerived].all fun role =>
    (wallet.owner role).isSome

/-- `DraftState.resume()`: a draft that is complete is deployed. -/
def resumeDraft (wallet : Wallet) : Call Unit :=
  let confirmations := wallet.allOwners.length - 2
  if wallet.hasAllRoles ∧ wallet.allOwners.length ≤ 4 then
    if confirmations = 1 ∨ confirmations = 2 then do
      let deployed := { wallet with state := .deploying, confirmationCount := confirmations }
      Process.update (.starting wallet) fun app =>
        (app.saveWallet deployed).observe (.begun wallet.id)
      Call.publish (.deploymentStarted wallet.id)
    else .trap .precondition
  else .trap .precondition

/-- `resume()`: the event that led to the state is published once more. -/
def resume (wallet : Wallet) : Call Unit :=
  match wallet.state with
  | .draft => wallet.resumeDraft
  | .deploying => Call.publish (.deploymentStarted wallet.id)
  | .waitingForFirstDeposit => Call.publish (.startedWaitingForFirstDeposit wallet.id)
  | .notEnoughFunds => Call.publish (.startedWaitingForRemainingFeeAmount wallet.id)
  | .creationStarted => Call.publish (.deploymentFunded wallet.id)
  | .finalizingDeployment => Call.publish (.creationStarted wallet.id)
  | _ => return

end Wallet

/-- `CommunicationDomainService.notifyWalletCreatedIfNeeded(walletID:)`: only a browser extension
is told, and only if this device has the key to sign the message. -/
def CommunicationDomainService.notifyWalletCreatedIfNeeded (walletID : WalletID) (app : App)
    (outside : Outside) : Answer Unit :=
  match app.store.wallets.find walletID with
  | none => .ok ()
  | some wallet =>
    match wallet.address, wallet.owner .browserExtension, wallet.owner .thisDevice with
    | some _, some _, some device =>
      match app.store.externallyOwnedAccounts.find device.address with
      | none => .ok ()
      | some _ => outside.deployment.notifyWalletCreated
    | _, _, _ => .ok ()

namespace DeploymentDomainService

variable (services : Services)

/-! ## Repeaters -/

/-- Change the repeaters. -/
def updateRepeaters (f : Repeaters → Repeaters) : Call Unit :=
  Process.update .elsewhere fun app => { app with repeaters := f app.repeaters }

/-- `repeaters.stop(_:wallet:)`. -/
def stopRepeater (repeater : ℕ) (walletID : WalletID) : Call Unit :=
  updateRepeaters fun repeaters =>
    (repeaters.set repeater .stopped).enqueue (.remove repeater walletID)

/-- `isStopped`. -/
def isStopped (repeater : ℕ) : Call Bool :=
  Process.query .elsewhere fun app _ => app.repeaters.isStopped repeater

/-- A wallet object after an action that may have thrown. -/
structure Outcome where
  wallet : Wallet
  error : Option RequestError

/-- The `catch` clause of `executeInWallet(for:_:)`. -/
def handleError (outcome : Outcome) : Call Unit :=
  match outcome.error with
  | some .other => do
    let _ ← outcome.wallet.cancel
    return
  | _ => return

/-! ## What is repeated -/

/-- `updateBalance(for:)`. -/
def updateBalance (wallet : Wallet) : Call (Answer ℤ) := do
  let address ← Process.lift (Trapping.unwrap wallet.address)
  let token := wallet.feePaymentTokenAddress.getD Token.Ether.address
  match ← Call.ask (fun outside => outside.deployment.balance token address)
      fun answer => answer.toOption.map fun amount => .balance wallet amount with
  | .error error => return .error error
  | .ok balance =>
    match ← Call.read fun store => store.accounts.find wallet.feeAccountID with
    | none => return .ok 0
    | some account =>
      Process.update (.depositing wallet) fun app =>
        (app.modify fun store => { store with
          accounts := store.accounts.save { account with balance := some balance } }).observe
            (.deposited wallet balance)
      return .ok balance

/-- `checkDidReceiveFirstDeposit(_:)`: the object after it, and whether to stop. -/
def checkDidReceiveFirstDeposit (wallet : Wallet) : Call (Wallet × Answer Bool) :=
  if wallet.state = .waitingForFirstDeposit then do
    match ← updateBalance wallet with
    | .error error => return (wallet, .error error)
    | .ok balance =>
      if balance > 0 then return (← wallet.proceed, .ok true)
      else return (wallet, .ok false)
  else return (wallet, .ok false)

/-- `checkHasMinimumAmount(_:)`. -/
def checkHasMinimumAmount (wallet : Wallet) : Call (Wallet × Answer Bool) :=
  if wallet.state = .notEnoughFunds then do
    match ← updateBalance wallet with
    | .error error => return (wallet, .error error)
    | .ok balance =>
      let minimum ← Process.lift (Trapping.unwrap wallet.minimumDeploymentTransactionAmount)
      if balance ≥ minimum then return (← wallet.proceed, .ok true)
      else return (wallet, .ok false)
  else return (wallet, .ok false)

/-- `checkHasSubmittedTransaction(_:)`. -/
def checkHasSubmittedTransaction (wallet : Wallet) : Call (Wallet × Answer Bool) :=
  if wallet.state = .finalizingDeployment then do
    let address ← Process.lift (Trapping.unwrap wallet.address)
    match ← Process.query .elsewhere fun _ outside =>
        outside.deployment.safeCreationTransactionHash address with
    | .error error => return (wallet, .error error)
    | .ok none => return (wallet, .ok false)
    | .ok (some hash) =>
      Call.saveWallet { wallet with creationTransactionHash := some hash }
      Call.publish (.walletTransactionHashIsKnown wallet.id)
      return ({ wallet with creationTransactionHash := some hash }, .ok true)
  else return (wallet, .ok false)

/-- `checkHasMinedTransaction(_:)`. -/
def checkHasMinedTransaction (wallet : Wallet) : Call (Wallet × Answer Bool) :=
  if wallet.state = .finalizingDeployment then
    match wallet.creationTransactionHash with
    | none => return (wallet, .ok false)
    | some hash => do
      match ← Call.ask (fun outside => outside.deployment.receipt hash)
          fun answer => answer.toOption.join.map fun success => .receipt wallet success with
      | .error error => return (wallet, .error error)
      | .ok none => return (wallet, .ok false)
      | .ok (some success) =>
        return (← if success then wallet.proceed else wallet.cancel, .ok true)
  else return (wallet, .ok false)

/-- The closure of a repeater. -/
def perform : Check → Wallet → Call (Wallet × Answer Bool)
  | .didReceiveFirstDeposit => checkDidReceiveFirstDeposit
  | .hasMinimumAmount => checkHasMinimumAmount
  | .hasSubmittedTransaction => checkHasSubmittedTransaction
  | .hasMinedTransaction => checkHasMinedTransaction

/-- `forceFinalizeDeployment(_:)`: the object is put into the last state, which it
leaves at once. -/
def forceFinalizeDeployment (wallet : Wallet) : Call Wallet := do
  updateRepeaters fun repeaters => repeaters.enqueue (.stopAllOf wallet.id)
  wallet.enter .readyToUse (some (.walletCreated wallet.id))

/-- What a repeater does in one round. -/
def repetition (repeater : ℕ) (check : Check) (wallet : Wallet) : Call Outcome := do
  let address ← Process.lift (Trapping.unwrap wallet.address)
  match ← Call.ask (fun outside => outside.deployment.safeCreationTransactionBlock address)
      fun answer => answer.map fun _ => .block wallet with
  | some _ => return ⟨← forceFinalizeDeployment wallet, none⟩
  | none =>
    match ← perform check wallet with
    | (wallet, .error error) => return ⟨wallet, some error⟩
    | (wallet, .ok stop) =>
      if stop then stopRepeater repeater wallet.id
      return ⟨wallet, none⟩

/-- One round of `Repeater.start()`, up to the timer. `next` comes after the last. -/
def round (next : Wallet → Call Unit) (repeater : ℕ) (check : Check) (wallet : Wallet) :
    Call Unit := do
  updateRepeaters fun repeaters => repeaters.set repeater .running
  let outcome ← repetition repeater check wallet
  match outcome.error with
  | some _ => handleError outcome
  | none =>
    if ← isStopped repeater then next outcome.wallet
    else
      updateRepeaters fun repeaters => repeaters.set repeater .waiting
      Process.update .elsewhere fun app =>
        { app with deployments := app.deployments ++ [.round repeater check outcome.wallet] }

/-- `repeat(for:delay:closure:)` with what follows it. -/
def repeating (next : Wallet → Call Unit) (check : Check) (wallet : Wallet) : Call Unit := do
  let repeater ← Process.perform .elsewhere fun app _ =>
    (app.repeaters.states.length, { app with repeaters := app.repeaters.make })
  updateRepeaters fun repeaters => repeaters.enqueue (.add repeater wallet.id)
  round next repeater check wallet

/-- What follows a repeater. -/
def after : Check → Wallet → Call Unit
  | .hasSubmittedTransaction => fun wallet =>
    if wallet.state.isReadyToUse then return
    else repeating (fun _ => return) .hasMinedTransaction wallet
  | _ => fun _ => return

/-! ## Handlers -/

/-- The request of `prepareSafeCreationTransaction(_:)`. -/
def creationRequest (wallet : Wallet) (saltNonce : ℕ) : SafeCreationRequest where
  saltNonce := saltNonce
  owners := wallet.allOwners.map Owner.address
  confirmationCount := wallet.confirmationCount
  paymentToken := wallet.feePaymentTokenAddress.getD Token.Ether.address

/-- A wallet object with the address of its contract. -/
def withContract (wallet : Wallet) (response : SafeCreationResponse) : Wallet :=
  { wallet with
    address := some response.safeAddress
    minimumDeploymentTransactionAmount := some response.payment
    masterCopyAddress := some response.masterCopyAddress
    contractVersion := services.metadata.version response.masterCopyAddress }

/-- The name of a new wallet in the address book. -/
def walletName (store : Store) (address : Address) : String :=
  if ((store.portfolio.map Portfolio.wallets).getD []).length = 1 then "Safe"
  else "Safe " ++ String.ofList (address.value.toList.drop (address.value.length - 4))

/-- Add a wallet's address to the address book. -/
def addAddressBookEntry (address : Address) (store : Store) : Store :=
  let id := services.nextID (store.addressBook.rows.map AddressBookEntry.id)
  store.saveEntry ⟨id, walletName store address, address.value, .wallet⟩

/-- `prepareSafeCreationTransaction(_:)`. -/
def prepareSafeCreationTransaction (wallet : Wallet) : Call Outcome := do
  let answer ← Process.query (.preparing wallet) fun _ outside =>
    outside.deployment.createSafeCreationTransaction
      (creationRequest wallet outside.deployment.randomSaltNonce)
  match answer with
  | .error error => return ⟨wallet, some error⟩
  | .ok response =>
    Call.write (addAddressBookEntry services response.safeAddress)
    return ⟨← (withContract services wallet response).proceed, none⟩

/-- `startSafeCreation(_:)`. -/
def startSafeCreation (wallet : Wallet) : Call Outcome := do
  let address ← Process.lift (Trapping.unwrap wallet.address)
  let answer ← Process.perform (.requestingCreation wallet) fun app outside =>
    (outside.deployment.startSafeCreation address, app.observe (.requestedCreation wallet.id))
  match answer with
  | .error error => return ⟨wallet, some error⟩
  | .ok _ => return ⟨← wallet.proceed, none⟩

/-- `waitUntilWalletIsReady(_:)`. -/
def waitUntilWalletIsReady (wallet : Wallet) : Call Unit :=
  match wallet.creationTransactionHash with
  | some _ => do
    Call.publish (.walletTransactionHashIsKnown wallet.id)
    after .hasSubmittedTransaction wallet
  | none => repeating (after .hasSubmittedTransaction) .hasSubmittedTransaction wallet

/-- `postProcessCreation(_:)`. -/
def postProcessCreation (wallet : Wallet) : Call Outcome := do
  match ← Process.query .elsewhere
    (CommunicationDomainService.notifyWalletCreatedIfNeeded wallet.id) with
  | .error error => return ⟨wallet, some error⟩
  | .ok _ =>
    let paper ← Process.lift (Trapping.unwrap (wallet.owner .paperWallet))
    let derived ← Process.lift (Trapping.unwrap (wallet.owner .paperWalletDerived))
    Call.write (Store.removeKey paper.address)
    Call.write (Store.removeKey derived.address)
    return ⟨wallet, none⟩

/-- The action subscribed for an event, with the handling of its errors. The exit of
the program after a failed creation ends everything as a trap does. -/
def action : DeploymentEvent → Wallet → Call Unit
  | .deploymentStarted => fun wallet => prepareSafeCreationTransaction services wallet >>= handleError
  | .startedWaitingForFirstDeposit => repeating (fun _ => return) .didReceiveFirstDeposit
  | .startedWaitingForRemainingFeeAmount => repeating (fun _ => return) .hasMinimumAmount
  | .deploymentFunded => fun wallet => startSafeCreation wallet >>= handleError
  | .creationStarted => waitUntilWalletIsReady
  | .walletCreated => fun wallet => postProcessCreation wallet >>= handleError
  | .walletCreationFailed => fun _ => .trap .precondition
  | .deploymentAborted => fun wallet =>
    updateRepeaters fun repeaters => repeaters.enqueue (.stopAllOf wallet.id)

/-- `executeInWallet(for:_:)`. -/
def executeInWallet (event : DeploymentEvent) (walletID : WalletID) : Call Unit := do
  match ← Call.findWallet walletID .elsewhere with
  | none => return
  | some wallet => action services event wallet

/-- The subscriptions of `start()`, in their order. -/
def subscribedEvents : List DeploymentEvent :=
  [.deploymentStarted, .startedWaitingForFirstDeposit, .startedWaitingForRemainingFeeAmount,
    .deploymentFunded, .creationStarted, .walletCreated, .walletCreationFailed, .deploymentAborted]

/-- `start()`. -/
def start : Call Unit := do
  updateRepeaters fun repeaters => repeaters.enqueue .stopAll
  Process.update .elsewhere fun app => app.enqueue .unsubscribeDeployment
  Process.each subscribedEvents fun event =>
    Process.update .elsewhere fun app => app.enqueue (.subscribeDeployment event)
  let walletsToCreate ← Call.read fun store =>
    store.wallets.rows.filter fun wallet => wallet.state.isCreationState
  Process.each walletsToCreate Wallet.resume

/-- What the global queue runs for the service. -/
def run : DeploymentJob → Call Unit
  | .handle event walletID => executeInWallet services event walletID
  | .round repeater check wallet => do
    if ← isStopped repeater then after check wallet
    else round (after check) repeater check wallet
  | .start => start

/-! ## Around the service -/

/-- A new draft of the user. -/
def draftWallet (walletID : WalletID) (owner : Address) : Wallet where
  id := walletID
  state := .draft
  owners := [⟨owner, .thisDevice⟩]
  address := none
  feePaymentTokenAddress := none
  confirmationCount := 1
  masterCopyAddress := none

/-- `createNewDraftWallet()` with the key the generator makes. -/
def createNewDraftWallet (account : ExternallyOwnedAccount) : Call Unit := do
  Call.write fun store =>
    { store with externallyOwnedAccounts := store.externallyOwnedAccounts.save account }
  let walletID ← Call.read fun store => services.nextID (store.wallets.rows.map Wallet.id)
  Process.update .elsewhere fun app =>
    (app.saveWallet (draftWallet walletID account.address)).observe (.begun walletID)
  Call.write (RecoveryDomainService.addToPortfolio walletID)
  Call.write fun store =>
    { store with accounts := store.accounts.save ⟨⟨Token.Ether.id, walletID⟩, none⟩ }

/-- `mutateSelectedWallet(_:)` with a change of the object alone. -/
def editSelectedWallet (change : Wallet → Wallet) : Call Unit := do
  let wallet ← Process.lift (Trapping.unwrap
    (← Process.query .elsewhere fun app _ => app.selectedWallet))
  Call.saveWallet (change wallet)

/-- `abortDeployment()`. -/
def abortDeployment : Call Unit := do
  let wallet ← Process.lift (Trapping.unwrap
    (← Process.query .elsewhere fun app _ => app.selectedWallet))
  let wallet ← wallet.cancel
  Call.saveWallet wallet

/-- `appDidFinishLaunching()` with the deployments it resumes. -/
def appDidFinishLaunching : Call Unit := do
  WalletApplication.cleanUpDrafts
  Call.write WalletApplication.repairModel
  Process.update .elsewhere fun app =>
    { app with launched := true, deployments := app.deployments ++ [.start] }

/-- The calls that can come, those of the synchronisation of accounts among them. A change of
the selected wallet keeps its identity, its state and its address. -/
inductive Starts : App → Call Unit → App → Prop
  | job {app : App} {job : DeploymentJob} (h : job ∈ app.deployments) :
      Starts app (run services job) { app with deployments := app.deployments.erase job }
  | start {app : App} : Starts app start app
  | createNewDraftWallet {app : App} (account : ExternallyOwnedAccount) :
      Starts app (createNewDraftWallet services account) app
  | editSelectedWallet {app : App} (change : Wallet → Wallet)
      (same : ∀ wallet, (change wallet).id = wallet.id ∧ (change wallet).state = wallet.state ∧
        (change wallet).address = wallet.address) : Starts app (editSelectedWallet change) app
  | abortDeployment {app : App} : Starts app abortDeployment app
  | removeWallet {app : App} (walletID : WalletID) :
      Starts app (WalletDomainService.removeWallet walletID) app
  | updateAccountBalance {app : App} (token : Token) :
      Starts app (do let _ ← AccountUpdateDomainService.updateAccountBalance token) app
  | updateAccountsBalances {app : App} :
      Starts app (do let _ ← AccountUpdateDomainService.updateAccountsBalances) app

/-- The publisher or the repeaters work off their queue. -/
inductive Moves : App → App → Prop
  | deliver {app : App} {publisher : EventPublisher} {jobs : List Job}
      (h : app.publisher.next = some (publisher, jobs)) :
      Moves app { app with
        publisher := publisher
        jobs := app.jobs ++ jobs
        deployments := app.deployments ++
          app.publisher.handlers.map fun handler => .handle handler.1 handler.2 }
  | manage {app : App} {repeaters : Repeaters} (h : app.repeaters.next = some repeaters) :
      Moves app { app with repeaters := repeaters }

/-- The deployment service and everything around it. -/
def system : System App Outside Place where
  starts := Starts services
  moves := Moves
  restart := App.restart
  boot := appDidFinishLaunching

end DeploymentDomainService

end SafeWallet
