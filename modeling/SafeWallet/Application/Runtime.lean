/-
# The running program

The calls of the services run on several threads and meet in the repositories.
Each query of a repository, each save, each request to a server and each event
handed to the publisher is one atomic action of a process. What survives a crash
is the `Store`; subscriptions, queued events and the jobs of the global queue do
not.

`EventPublisher` works through a serial queue of its own and hands each matching
closure to the global queue, so an event that was published before a subscription
ended can still reach its closure. The subscribers whose closures touch the
repositories are the recovery service and the deployment service; the latter also
keeps repeaters, whose rounds wait on the global queue in between.
-/

import SafeWallet.Base.Process
import SafeWallet.Wallet.OwnerManager

namespace SafeWallet

/-- `TransactionReceipt`, as far as it is used. -/
structure TransactionReceipt where
  success : Bool
  blockHash : Data

/-- `GetSafeRequest.SafeInfo`, as far as it is used. The addresses are twenty bytes. -/
structure SafeInfo where
  address : ChainAddress
  masterCopy : ChainAddress
  threshold : ℕ
  owners : List ChainAddress
  version : String

/-- The errors of a request, as the deployment service tells them apart. -/
inductive RequestError
  | network
  | other
  deriving DecidableEq, Repr

/-- The outcome of a request. -/
abbrev Answer := Except RequestError

/-- `SafeCreationRequest`. -/
structure SafeCreationRequest where
  saltNonce : ℕ
  owners : List Address
  confirmationCount : ℕ
  paymentToken : Address
  deriving DecidableEq, Repr

/-- `SafeCreationRequest.Response`, as far as it is used. -/
structure SafeCreationResponse where
  safeAddress : Address
  masterCopyAddress : Address
  payment : ℤ
  deriving DecidableEq, Repr

/-- What the random numbers and the servers say to the deployment service. The
answer to a request for a new contract is already validated. -/
structure DeploymentAnswers where
  randomSaltNonce : ℕ := 0
  createSafeCreationTransaction : SafeCreationRequest → Answer SafeCreationResponse :=
    fun _ => .error .network
  startSafeCreation : Address → Answer Unit := fun _ => .error .network
  safeCreationTransactionBlock : Address → Option ℕ := fun _ => none
  safeCreationTransactionHash : Address → Answer (Option String) := fun _ => .error .network
  balance : Address → Address → Answer ℕ := fun _ _ => .error .network
  receipt : String → Answer (Option Bool) := fun _ => .error .network
  notifyWalletCreated : Answer Unit := .error .network

/-- What the clock and the servers say during one action. A request that throws is
answered with `none`, where the kind of the error does not matter. -/
structure Outside where
  now : Date
  eth_call : Address → Data → Option Data
  submitTransaction : Transaction → Option String
  eth_getTransactionReceipt : String → Option (Option TransactionReceipt)
  eth_getBlockByHash : Data → Option (Option Date)
  safeInfo : Address → Option SafeInfo := fun _ => none
  deletePair : WalletID → Address → Bool := fun _ _ => true
  deployment : DeploymentAnswers := {}

/-- The classes of `DomainEvent` that the modelled services publish. -/
inductive DomainEvent
  | deploymentStarted (walletID : WalletID)
  | startedWaitingForFirstDeposit (walletID : WalletID)
  | startedWaitingForRemainingFeeAmount (walletID : WalletID)
  | deploymentFunded (walletID : WalletID)
  | creationStarted (walletID : WalletID)
  | walletCreated (walletID : WalletID)
  | walletCreationFailed (walletID : WalletID)
  | deploymentAborted (walletID : WalletID)
  | walletTransactionHashIsKnown (walletID : WalletID)
  | recoveryTransactionHashIsKnown
  | recoveryStarted
  | recoveryAborted
  | walletRecovered
  | walletRecoveryFailed
  | walletBecameReadyForRecovery
  | transactionStatusUpdated
  | contractUpgraded
  deriving DecidableEq, Repr

/-- The events the deployment service subscribes to. -/
inductive DeploymentEvent
  | deploymentStarted
  | startedWaitingForFirstDeposit
  | startedWaitingForRemainingFeeAmount
  | deploymentFunded
  | creationStarted
  | walletCreated
  | walletCreationFailed
  | deploymentAborted
  deriving DecidableEq, Repr

/-- The kind of an event and the wallet it is about, if it concerns a deployment. -/
def DomainEvent.ofDeployment : DomainEvent → Option (DeploymentEvent × WalletID)
  | .deploymentStarted walletID => some (.deploymentStarted, walletID)
  | .startedWaitingForFirstDeposit walletID => some (.startedWaitingForFirstDeposit, walletID)
  | .startedWaitingForRemainingFeeAmount walletID =>
    some (.startedWaitingForRemainingFeeAmount, walletID)
  | .deploymentFunded walletID => some (.deploymentFunded, walletID)
  | .creationStarted walletID => some (.creationStarted, walletID)
  | .walletCreated walletID => some (.walletCreated, walletID)
  | .walletCreationFailed walletID => some (.walletCreationFailed, walletID)
  | .deploymentAborted walletID => some (.deploymentAborted, walletID)
  | _ => none

/-- Work handed to the global queue. -/
inductive Job
  | resumeRecovery (walletID : WalletID)
  | transactionStatusUpdated (walletID : WalletID)
  | cleanUpStaleTransactions
  deriving DecidableEq, Repr

/-! ## The publisher -/

/-- Work of the publisher's serial queue. A subscription of the recovery service is
the wallet its closure is about, one of the deployment service the kind of event. -/
inductive PublisherTask
  | subscribe (walletID : WalletID)
  | unsubscribe
  | subscribeDeployment (event : DeploymentEvent)
  | unsubscribeDeployment
  | publish (event : DomainEvent)
  deriving DecidableEq, Repr

/-- `EventPublisher`. -/
structure EventPublisher where
  subscriptions : List WalletID
  queue : List PublisherTask
  deployment : List DeploymentEvent
  deriving DecidableEq, Repr

namespace EventPublisher

/-- Nothing subscribed, nothing queued. -/
def empty : EventPublisher := ⟨[], [], []⟩

/-- `queue.async`. -/
def enqueue (publisher : EventPublisher) (task : PublisherTask) : EventPublisher :=
  { publisher with queue := publisher.queue ++ [task] }

/-- The closures an event is delivered to. -/
def closures (publisher : EventPublisher) : DomainEvent → List Job
  | .transactionStatusUpdated => publisher.subscriptions.map .transactionStatusUpdated
  | _ => []

/-- The next task of the serial queue: the publisher after it and the closures of the
recovery service it starts. Unsubscribing removes every closure of a service. -/
def next (publisher : EventPublisher) : Option (EventPublisher × List Job) :=
  match publisher.queue with
  | [] => none
  | .subscribe walletID :: rest =>
    some ({ publisher with subscriptions := publisher.subscriptions ++ [walletID], queue := rest },
      [])
  | .unsubscribe :: rest => some ({ publisher with subscriptions := [], queue := rest }, [])
  | .subscribeDeployment event :: rest =>
    some ({ publisher with deployment := publisher.deployment ++ [event], queue := rest }, [])
  | .unsubscribeDeployment :: rest => some ({ publisher with deployment := [], queue := rest }, [])
  | .publish event :: rest => some ({ publisher with queue := rest }, publisher.closures event)

/-- The closures of the deployment service that the next task starts. -/
def handlers (publisher : EventPublisher) : List (DeploymentEvent × WalletID) :=
  match publisher.queue with
  | .publish event :: _ =>
    match event.ofDeployment with
    | none => []
    | some (kind, walletID) =>
      (publisher.deployment.filter fun subscribed => subscribed = kind).map fun _ =>
        (kind, walletID)
  | _ => []

end EventPublisher

/-! ## Repeaters -/

/-- What a repeater of the deployment service waits for. -/
inductive Check
  | didReceiveFirstDeposit
  | hasMinimumAmount
  | hasSubmittedTransaction
  | hasMinedTransaction
  deriving DecidableEq, Repr

/-- `Repeater.State`. -/
inductive RepeaterState
  | stopped
  | running
  | waiting
  deriving DecidableEq, Repr

/-- Work of the queue that manages the repeaters. -/
inductive RepeaterTask
  | add (repeater : ℕ) (walletID : WalletID)
  | remove (repeater : ℕ) (walletID : WalletID)
  | stopAllOf (walletID : WalletID)
  | stopAll
  deriving DecidableEq, Repr

/-- `Repeaters`: every repeater ever made, by number, and those on the list. -/
structure Repeaters where
  states : List RepeaterState := []
  byWallet : List (WalletID × ℕ) := []
  queue : List RepeaterTask := []
  deriving DecidableEq, Repr

namespace Repeaters

/-- `Repeater(delay:)`, not running yet. -/
def make (repeaters : Repeaters) : Repeaters :=
  { repeaters with states := repeaters.states ++ [.stopped] }

/-- Set the state of a repeater. -/
def set (repeaters : Repeaters) (repeater : ℕ) (state : RepeaterState) : Repeaters :=
  { repeaters with states := repeaters.states.set repeater state }

/-- `isStopped`. -/
def isStopped (repeaters : Repeaters) (repeater : ℕ) : Bool :=
  repeaters.states[repeater]? = some .stopped

/-- `queue.async`. -/
def enqueue (repeaters : Repeaters) (task : RepeaterTask) : Repeaters :=
  { repeaters with queue := repeaters.queue ++ [task] }

/-- Stop the listed repeaters that satisfy a condition, and take them off the list. -/
def stopWhere (repeaters : Repeaters) (p : WalletID → Bool) : Repeaters :=
  { repeaters with
    states := (repeaters.byWallet.filter fun entry => p entry.1).foldl
      (fun states entry => states.set entry.2 .stopped) repeaters.states
    byWallet := repeaters.byWallet.filter fun entry => !p entry.1 }

/-- The next task of the queue. -/
def next (repeaters : Repeaters) : Option Repeaters :=
  match repeaters.queue with
  | [] => none
  | task :: rest =>
    let repeaters := { repeaters with queue := rest }
    some (match task with
      | .add repeater walletID =>
        { repeaters with byWallet := repeaters.byWallet ++ [(walletID, repeater)] }
      | .remove repeater walletID =>
        { repeaters with byWallet := repeaters.byWallet.filter (· ≠ (walletID, repeater)) }
      | .stopAllOf walletID => repeaters.stopWhere fun id => id = walletID
      | .stopAll => repeaters.stopWhere fun _ => true)

end Repeaters

/-- Work of the deployment service on the global queue: a handler that was called, a
repeater between two rounds with the wallet object it has captured, or `start()`. -/
inductive DeploymentJob
  | handle (event : DeploymentEvent) (walletID : WalletID)
  | round (repeater : ℕ) (check : Check) (wallet : Wallet)
  | start
  deriving DecidableEq, Repr

/-! ## The state -/

/-- What the program has seen and done, newest first. It is written along with the
actions and never read by them. A deployment is begun when its draft is made and when
the draft is deployed. -/
inductive Observation
  | transaction (walletID : WalletID) (status : TransactionStatus)
  | owners (walletID : WalletID) (answer : Trapping (Option (List Address)))
  | threshold (walletID : WalletID) (answer : Trapping (Option ℕ))
  | saved (previous : Option WalletState) (wallet : Wallet)
  | published (event : DomainEvent)
  | begun (walletID : WalletID)
  | requestedCreation (walletID : WalletID)
  | balance (object : Wallet) (amount : ℕ)
  | deposited (object : Wallet) (amount : ℕ)
  | receipt (object : Wallet) (success : Bool)
  | block (object : Wallet)
  | merged (safe : Address) (info : SafeInfo)
  | postProcessed (transactionID : TransactionID)

/-- The repositories, the queues and the record of the run. -/
structure App where
  store : Store
  publisher : EventPublisher
  jobs : List Job
  launched : Bool
  log : List Observation
  deployments : List DeploymentJob := []
  repeaters : Repeaters := {}

/-- Where an action stands, as far as it matters: the reads of the recovery service,
the saves of wallet objects, and the requests about a wallet or a transaction. -/
inductive Place
  | submitting (walletID : WalletID)
  | handling (walletID : WalletID)
  | moving (object : Wallet) (state : WalletState)
  | starting (object : Wallet)
  | saving (wallet : Wallet)
  | preparing (object : Wallet)
  | depositing (object : Wallet)
  | crediting (accountID : AccountID) (object : Wallet)
  | requestingCreation (object : Wallet)
  | refreshing (safe : Address)
  | merging (safe : Address) (info : SafeInfo)
  | asking (transactionID : TransactionID)
  | elsewhere

/-- A call of a service. -/
abbrev Call := Process App Outside Place

namespace App

/-- The program right after a start. -/
def ofStore (store : Store) : App where
  store := store
  publisher := .empty
  jobs := []
  launched := true
  log := []

/-- What a crash leaves. -/
def restart (app : App) : App :=
  { app with
    publisher := .empty
    jobs := [.cleanUpStaleTransactions]
    launched := false
    deployments := []
    repeaters := {} }

/-- Change the repositories. -/
def modify (app : App) (f : Store → Store) : App := { app with store := f app.store }

/-- Record an observation. -/
def observe (app : App) (observation : Observation) : App :=
  { app with log := observation :: app.log }

/-- Record something, if there is something. -/
def note (app : App) : Option Observation → App
  | some observation => app.observe observation
  | none => app

/-- Hand a task to the publisher. -/
def enqueue (app : App) (task : PublisherTask) : App :=
  { app with publisher := app.publisher.enqueue task }

/-- `WalletRepository.save(_:)`. -/
def saveWallet (app : App) (wallet : Wallet) : App :=
  (app.modify fun store => { store with wallets := store.wallets.save wallet }).observe
    (.saved ((app.store.wallets.find wallet.id).map Wallet.state) wallet)

/-- `selectedWallet()`. -/
def selectedWallet (app : App) : Option Wallet :=
  app.store.portfolio.bind Portfolio.selectedWallet >>= app.store.wallets.find

/-- The recovery transaction of a wallet. -/
def recoveryTransaction (app : App) (walletID : WalletID) : Option Transaction :=
  app.store.transactions.findType .walletRecovery walletID

variable (app : App)

@[simp]
theorem restart_store : app.restart.store = app.store := rfl

@[simp]
theorem restart_log : app.restart.log = app.log := rfl

@[simp]
theorem modify_store (f : Store → Store) : (app.modify f).store = f app.store := rfl

@[simp]
theorem modify_log (f : Store → Store) : (app.modify f).log = app.log := rfl

@[simp]
theorem observe_store (observation : Observation) : (app.observe observation).store = app.store :=
  rfl

@[simp]
theorem observe_log (observation : Observation) :
    (app.observe observation).log = observation :: app.log := rfl

@[simp]
theorem enqueue_store (task : PublisherTask) : (app.enqueue task).store = app.store := rfl

@[simp]
theorem enqueue_log (task : PublisherTask) : (app.enqueue task).log = app.log := rfl

@[simp]
theorem saveWallet_wallets (wallet : Wallet) :
    (app.saveWallet wallet).store.wallets = app.store.wallets.save wallet := rfl

@[simp]
theorem saveWallet_transactions (wallet : Wallet) :
    (app.saveWallet wallet).store.transactions = app.store.transactions := rfl

@[simp]
theorem saveWallet_log (wallet : Wallet) : (app.saveWallet wallet).log =
    .saved ((app.store.wallets.find wallet.id).map Wallet.state) wallet :: app.log := rfl

end App

/-! ## Actions -/

namespace Call

/-- Read something of the repositories. -/
def read {α : Type} (f : Store → α) : Call α := Process.query .elsewhere fun app _ => f app.store

/-- Change the repositories. -/
def write (f : Store → Store) : Call Unit := Process.update .elsewhere fun app => app.modify f

/-- Ask somebody outside, and record what the answer says. -/
def ask {α : Type} (f : Outside → α) (record : α → Option Observation) : Call α :=
  Process.perform .elsewhere fun app outside => (f outside, app.note (record (f outside)))

/-- `WalletRepository.find(id:)`. -/
def findWallet (walletID : WalletID) (place : Place) : Call (Option Wallet) :=
  Process.query place fun app _ => app.store.wallets.find walletID

/-- `WalletRepository.save(_:)`. -/
def saveWallet (wallet : Wallet) : Call Unit :=
  Process.update (.saving wallet) fun app => app.saveWallet wallet

/-- `TransactionRepository.find(type: .walletRecovery, wallet:)`. -/
def findRecoveryTransaction (walletID : WalletID) : Call (Option Transaction) :=
  Process.perform .elsewhere fun app _ =>
    match app.recoveryTransaction walletID with
    | none => (none, app)
    | some tx => (some tx, app.observe (.transaction walletID tx.status))

/-- `TransactionRepository.save(_:)`. -/
def saveTransaction (tx : Transaction) : Call Unit :=
  write fun store => { store with transactions := store.transactions.store tx }

/-- `TransactionRepository.remove(_:)`. -/
def removeTransaction (id : TransactionID) : Call Unit :=
  write fun store => { store with transactions := store.transactions.remove id }

/-- `eventPublisher.publish(_:)`. -/
def publish (event : DomainEvent) : Call Unit :=
  Process.update .elsewhere fun app => (app.enqueue (.publish event)).observe (.published event)

/-- The clock. -/
def now : Call Date := Process.query .elsewhere fun _ outside => outside.now

/-- `SafeOwnerManagerContractProxy(address).getOwners()`. -/
def getOwners (services : Services) (walletID : WalletID) (contract : Address) :
    Call (Option (List Address)) := do
  let answer ← Process.perform .elsewhere fun app outside =>
    let answer := SafeOwnerManagerContractProxy.getOwners
      { services with eth_call := outside.eth_call } contract
    (answer, app.observe (.owners walletID answer))
  Process.lift answer

/-- `SafeOwnerManagerContractProxy(address).getThreshold()`. -/
def getThreshold (services : Services) (walletID : WalletID) (contract : Address) :
    Call (Option ℕ) := do
  let answer ← Process.perform .elsewhere fun app outside =>
    let answer := SafeOwnerManagerContractProxy.getThreshold
      { services with eth_call := outside.eth_call } contract
    (answer, app.observe (.threshold walletID answer))
  Process.lift answer

variable {services : Services} {outside : Outside} {app : App} {walletID : WalletID}
  {contract : Address}

theorem alone_getOwners {answer : Option (List Address)}
    (h : SafeOwnerManagerContractProxy.getOwners { services with eth_call := outside.eth_call }
      contract = .ok answer) :
    (getOwners services walletID contract).alone outside app =
      (.ok answer, app.observe (.owners walletID (.ok answer))) := by
  simp [getOwners, h, Process.lift]

theorem alone_getThreshold {answer : Option ℕ}
    (h : SafeOwnerManagerContractProxy.getThreshold { services with eth_call := outside.eth_call }
      contract = .ok answer) :
    (getThreshold services walletID contract).alone outside app =
      (.ok answer, app.observe (.threshold walletID (.ok answer))) := by
  simp [getThreshold, h, Process.lift]

theorem alone_findRecoveryTransaction {tx : Transaction}
    (h : app.recoveryTransaction walletID = some tx) :
    (findRecoveryTransaction walletID).alone outside app =
      (.ok (some tx), app.observe (.transaction walletID tx.status)) := by
  simp [findRecoveryTransaction, Process.perform, Process.alone, h]

theorem alone_findWallet (place : Place) : (findWallet walletID place).alone outside app =
    (.ok (app.store.wallets.find walletID), app) := rfl

end Call

end SafeWallet
