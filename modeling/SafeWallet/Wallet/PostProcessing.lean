/-
# Post-processing of monitored transactions

A transaction that changes the contract of a wallet is registered with a monitor. Five
services go through the registered transactions, oldest first, and each takes care of
the types of its own. When such a transaction is final, its service may have to delete
a pairing at the notification service first, then saves what the transaction has
changed of the wallet, and unregisters it. What a transaction amounts to is a
`Settlement`; a pass is compared with the one that settles every transaction whose own
processing does not fail.
-/

import Mathlib.Data.List.Sort
import SafeWallet.Base.Pass
import SafeWallet.Wallet.OwnerServices

namespace SafeWallet

/-! ## Upgrades of the contract -/

/-- `decodeChangeMasterCopyArguments(from:)`. -/
def GnosisSafe.decodeChangeMasterCopyArguments (kit : EthereumKit) (data : Data) :
    Option Address :=
  let selector := ContractProxy.method kit "changeMasterCopy(address)"
  if data.take selector.length = selector then
    some (ContractProxy.decodeAddress (data.drop selector.length))
  else none

namespace ContractUpgradeDomainService

open ReplaceTwoFADomainService

variable (services : Services)

/-- The new master copy of the first call of a batch. -/
def decodeNewMasterCopy (data : Data) : Trapping (Option Address) := do
  let transactions ← MultiSend.decodeMultiSendArguments services.kit
    services.metadata.multiSendContractAddress services.metadata.multiSend
    services.metadata.multiSendContractAddress data
  return match transactions with
  | some (first :: _) => GnosisSafe.decodeChangeMasterCopyArguments services.kit first.data
  | _ => none

/-- `version(masterCopyAddress:)`. -/
def version (masterCopy : Address) : Option String :=
  (services.metadata.masterCopy.find? fun copy =>
    copy.address.normalized = masterCopy.normalized).map MasterCopyMetadata.version

/-- A wallet object with a new master copy. -/
def withMasterCopy (masterCopy : Address) (wallet : Wallet) : Wallet :=
  { wallet with
    masterCopyAddress := some masterCopy
    contractVersion := version services masterCopy }

/-- `postProcess(transactionID:)`. -/
def postProcess (transactionID : TransactionID) : Call Bool := do
  match ← Call.read fun store => store.transactions.find transactionID with
  | none => return true
  | some tx =>
    if tx.type = .contractUpgrade ∧ (tx.status = .success ∨ tx.status = .failed) then
      match ← Call.findWallet tx.accountID.walletID .elsewhere with
      | none => return true
      | some wallet =>
        match tx.data, wallet.address with
        | some data, some _ =>
          match ← Process.lift (decodeNewMasterCopy services data) with
          | none => return true
          | some newMasterCopy =>
            if tx.status = .success then
              Call.saveWallet (withMasterCopy services newMasterCopy wallet)
              Call.publish .contractUpgraded
              finish transactionID true
            else finish transactionID true
        | _, _ => return true
    else return true

end ContractUpgradeDomainService

/-! ## The pass -/

/-- The services that post-process transactions. -/
inductive PostProcessor
  | contractUpgrade
  | replace2FA
  | connectTwoFA
  | disconnectTwoFA
  | replacePhrase
  deriving DecidableEq, Repr

namespace PostProcessor

/-- `postProcess(transactionID:)` of each service: whether it does not throw. -/
def postProcess (services : Services) : PostProcessor → TransactionID → Call Bool
  | contractUpgrade => ContractUpgradeDomainService.postProcess services
  | replace2FA => ReplaceTwoFADomainService.postProcess services
  | connectTwoFA => ConnectTwoFADomainService.postProcess services
  | disconnectTwoFA => DisconnectTwoFADomainService.postProcess
  | replacePhrase => ReplaceRecoveryPhraseDomainService.postProcess services

/-- The loop of `postProcessTransactions()` over all entries, oldest first. -/
def postProcessTransactions (createdDate : TransactionID → Date) (service : PostProcessor)
    (rest : Pass App (PostProcessor × TransactionID)) : Pass App (PostProcessor × TransactionID) :=
  .look fun app =>
    let allEntries := app.store.transactionMonitors.insertionSort
      fun first second => createdDate first ≤ createdDate second
    .takeAll (allEntries.map fun transactionID => (service, transactionID)) rest

end PostProcessor

/-- What a pass depends on besides the repositories: when the entries were registered,
whether the files can be accessed when a service is reached, and the outside world in
the turn of each entry. -/
structure PassContext where
  services : Services
  createdDate : TransactionID → Date
  hasAccessToFilesystem : PostProcessor → Bool
  outside : PostProcessor → TransactionID → Outside

namespace SynchronisationService

variable (context : PassContext)

/-- The services in their order. -/
def postProcessors : List PostProcessor :=
  [.contractUpgrade, .replace2FA, .connectTwoFA, .disconnectTwoFA, .replacePhrase]

/-- One service after the other, as long as there is access. -/
def pass : List PostProcessor → Pass App (PostProcessor × TransactionID)
  | [] => .done
  | service :: rest =>
    if context.hasAccessToFilesystem service then
      service.postProcessTransactions context.createdDate (pass rest)
    else .done

/-- The turn of one entry: whether it neither throws nor traps, and the program after. -/
def attempt (entry : PostProcessor × TransactionID) (app : App) : Bool × App :=
  let result := (entry.1.postProcess context.services entry.2).alone
    (context.outside entry.1 entry.2) app
  (match result.1 with
    | .ok completed => completed
    | .error _ => false, result.2)

/-- `postProcessTransactions()`. -/
def postProcessTransactions (app : App) : App :=
  ((pass context postProcessors).run (attempt context) app).2

end SynchronisationService

/-! ## What an entry amounts to -/

/-- The pairing to be deleted first, the wallet objects to be saved, whether the upgrade
is announced, and the key to be forgotten. -/
structure Settlement where
  pair : Option (WalletID × Address) := none
  saves : List Wallet := []
  upgrades : Bool := false
  key : Option Address := none

/-- The entry of a transaction is gone. -/
def App.unregister (app : App) (transactionID : TransactionID) : App :=
  (app.observe (.postProcessed transactionID)).modify fun store =>
    { store with transactionMonitors := store.transactionMonitors.filter (· ≠ transactionID) }

namespace Settlement

/-- The wallet objects are saved and the entry is unregistered. -/
def apply (settlement : Settlement) (transactionID : TransactionID) (app : App) : App :=
  let app := settlement.saves.foldl App.saveWallet app
  let app := if settlement.upgrades then
      (app.enqueue (.publish .contractUpgraded)).observe (.published .contractUpgraded)
    else app
  let app := match settlement.key with
    | none => app
    | some key => app.modify (Store.removeKey key)
  app.unregister transactionID

end Settlement

namespace PostProcessor

/-- `postProcessTypes`. -/
def postProcessTypes : PostProcessor → List TransactionType
  | contractUpgrade => [.contractUpgrade]
  | replace2FA => [.replaceTwoFAWithAuthenticator, .replaceTwoFAWithStatusKeycard]
  | connectTwoFA => [.connectAuthenticator, .connectStatusKeycard]
  | disconnectTwoFA => [.disconnectAuthenticator, .disconnectStatusKeycard]
  | replacePhrase => [.replaceRecoveryPhrase]

variable (services : Services) (app : App) (tx : Transaction) (wallet : Wallet)

/-- The owner calls are decoded with the selected wallet, which must have an address. -/
def selectedAddress : Trapping Address := do
  let wallet ← Trapping.unwrap app.selectedWallet
  Trapping.unwrap wallet.address

/-- The new owner of a transaction that adds or replaces an authenticator. -/
def newOwner (decode : Data → Trapping (Option Address)) : Trapping (Option Address) :=
  match tx.data with
  | none => .ok none
  | some data => do
    let _ ← selectedAddress app
    decode data

/-- The owner with its role. -/
def owner (newOwner : Address) : Trapping Owner := do
  let role ← Trapping.unwrap tx.type.correspondingOwnerRole
  return ⟨(services.kit.formatted newOwner.value).getD newOwner, role⟩

/-- The pairing with the authenticator that goes. -/
def oldPair : Option (WalletID × Address) :=
  match wallet.twoFAOwner with
  | some oldOwner =>
    if oldOwner.role = .browserExtension then some (wallet.id, oldOwner.address) else none
  | none => none

/-- The wallet without the authenticator that goes. -/
def withoutTwoFAOwner : Wallet :=
  match wallet.twoFAOwner with
  | some oldOwner => wallet.removeOwner oldOwner.role
  | none => wallet

/-- What a failed transaction leaves to do: the pairing it was to use. -/
def failure (pairing : TransactionType) (newOwner : Address) : Settlement :=
  { pair := if tx.type = pairing then some (tx.accountID.walletID, newOwner) else none }

/-- What a final transaction with a new owner amounts to. Without one that can be read,
the entry is only unregistered. -/
def settlesNewOwner (decode : Data → Trapping (Option Address))
    (success : Address → Trapping Settlement) (pairing : TransactionType) :
    Trapping (Option Settlement) := do
  match ← newOwner app tx decode with
  | none => return some {}
  | some newOwner =>
    if tx.status = .success then return some (← success newOwner)
    else return some (failure tx pairing newOwner)

/-- A replaced authenticator. -/
def replaced (newOwner : Address) : Trapping Settlement := do
  let owner ← owner services tx newOwner
  return { pair := oldPair wallet, saves := [(withoutTwoFAOwner wallet).addOwner owner] }

/-- A connected authenticator: the wallet is saved with the owner, and once more with the
threshold. -/
def connected (newOwner : Address) : Trapping Settlement := do
  let owner ← owner services tx newOwner
  return { saves := [wallet.addOwner owner, { wallet.addOwner owner with confirmationCount := 2 }] }

/-- A replaced recovery phrase. The key of the new one is forgotten in any case. -/
def rephrased (swaps : Data × Data) : Trapping (Option Settlement) := do
  let _ ← selectedAddress app
  return (ReplaceRecoveryPhraseDomainService.decodeNewOwners services swaps).map fun newOwners =>
    { saves := if tx.status = .success then
        [ReplaceRecoveryPhraseDomainService.withPhrase newOwners wallet] else []
      key := some newOwners.1 }

/-- What a final transaction of a service amounts to for its wallet. -/
def settles : PostProcessor → Trapping (Option Settlement)
  | contractUpgrade =>
    match tx.data, wallet.address with
    | some data, some _ => do
      let masterCopy ← ContractUpgradeDomainService.decodeNewMasterCopy services data
      return masterCopy.map fun masterCopy =>
        if tx.status = .success then
          { saves := [ContractUpgradeDomainService.withMasterCopy services masterCopy wallet]
            upgrades := true }
        else {}
    | _, _ => .ok none
  | replace2FA =>
    settlesNewOwner app tx (ReplaceTwoFADomainService.decodeNewOwner services)
      (replaced services tx wallet) .replaceTwoFAWithAuthenticator
  | connectTwoFA =>
    settlesNewOwner app tx (ConnectTwoFADomainService.decodeNewOwner services)
      (connected services tx wallet) .connectAuthenticator
  | disconnectTwoFA =>
    .ok (some (if tx.status = .success then
        { pair := oldPair wallet
          saves := [{ withoutTwoFAOwner wallet with confirmationCount := 1 }] }
      else {}))
  | replacePhrase =>
    match tx.recipient, tx.data with
    | some recipient, some data => do
      match ← ReplaceRecoveryPhraseDomainService.decodeSwaps services recipient data with
      | none => return none
      | some swaps => rephrased services app tx wallet swaps
    | _, _ => .ok none

/-- What an entry amounts to: nothing if its transaction is not final, not of the types,
or without a wallet. -/
def settlementOf (types : List TransactionType)
    (settles : Transaction → Wallet → Trapping (Option Settlement))
    (transactionID : TransactionID) : Trapping (Option Settlement) :=
  match app.store.transactions.find transactionID with
  | none => .ok none
  | some tx =>
    if tx.type ∈ types ∧ (tx.status = .success ∨ tx.status = .failed) then
      match app.store.wallets.find tx.accountID.walletID with
      | none => .ok none
      | some wallet => settles tx wallet
    else .ok none

/-- What an entry amounts to for a service. -/
def settlement (service : PostProcessor) (transactionID : TransactionID) :
    Trapping (Option Settlement) :=
  settlementOf app service.postProcessTypes
    (fun tx wallet => settles services app tx wallet service) transactionID

end PostProcessor

/-- `deletePair(walletID:other:)` in the state in which it is called. -/
def CommunicationDomainService.pairDeleted (outside : Outside) (app : App)
    (pair : WalletID × Address) : Trapping Bool := do
  let wallet ← Trapping.unwrap (app.store.wallets.find pair.1)
  let device ← Trapping.unwrap (wallet.owner .thisDevice)
  return (app.store.externallyOwnedAccounts.find device.address).isSome &&
    outside.deletePair pair.1 pair.2

/-- An entry has nothing to do, its own processing fails, or it can be settled. -/
inductive Prospect
  | idle
  | stuck
  | ready (settlement : Settlement)

namespace SynchronisationService

variable (context : PassContext)

/-- The prospect of an entry in the state in which its turn comes. -/
def prospect (entry : PostProcessor × TransactionID) (app : App) : Prospect :=
  match entry.1.settlement context.services app entry.2 with
  | .error _ => .stuck
  | .ok none => .idle
  | .ok (some settlement) =>
    match settlement.pair with
    | none => .ready settlement
    | some pair =>
      match CommunicationDomainService.pairDeleted (context.outside entry.1 entry.2) app pair with
      | .ok true => .ready settlement
      | _ => .stuck

/-- An entry that can be settled is settled, and every other one is left alone. -/
def settle (entry : PostProcessor × TransactionID) (app : App) : App :=
  match prospect context entry app with
  | .ready settlement => settlement.apply entry.2 app
  | _ => app

/-- The pass in which no entry is in the way of another. -/
def settleAll (app : App) : App := (pass context postProcessors).runAll (settle context) app

/-- The turns of the entries in that pass. -/
def turns (app : App) : List ((PostProcessor × TransactionID) × App) :=
  (pass context postProcessors).turns (settle context) app

end SynchronisationService

/-! ## The services do what entries amount to -/

namespace Settlement

/-- What the program does with what an entry amounts to. -/
def perform (outside : Outside) (transactionID : TransactionID) (app : App) :
    Trapping (Option Settlement) → Trapping Bool × App
  | .error reason => (.error reason, app)
  | .ok none => (.ok true, app)
  | .ok (some settlement) =>
    match settlement.pair with
    | none => (.ok true, settlement.apply transactionID app)
    | some pair =>
      match CommunicationDomainService.pairDeleted outside app pair with
      | .error reason => (.error reason, app)
      | .ok false => (.ok false, app)
      | .ok true => (.ok true, settlement.apply transactionID app)

end Settlement

section Steps

variable {outside : Outside} {app : App} {transactionID : TransactionID}

theorem CommunicationDomainService.alone_deletePair (pair : WalletID × Address) :
    (deletePair pair.1 pair.2).alone outside app = (pairDeleted outside app pair, app) := by
  cases hfind : app.store.wallets.find pair.1 with
  | none => simp [deletePair, pairDeleted, Call.findWallet, hfind, Process.lift]
  | some wallet =>
      cases hdevice : wallet.owner .thisDevice with
      | none => simp [deletePair, pairDeleted, Call.findWallet, hfind, hdevice, Process.lift]
      | some device =>
          cases hkey : app.store.externallyOwnedAccounts.find device.address with
          | none =>
              simp [deletePair, pairDeleted, Call.findWallet, Call.read, hfind, hdevice, hkey,
                Process.lift]
          | some key =>
              simp [deletePair, pairDeleted, Call.findWallet, Call.read, hfind, hdevice, hkey,
                Process.lift]
              rfl

namespace ReplaceTwoFADomainService

theorem alone_unregisterPostProcessing :
    (unregisterPostProcessing transactionID).alone outside app =
      (.ok (), app.unregister transactionID) := by
  simp only [unregisterPostProcessing, Process.alone_perform_bind]
  by_cases hregistered : transactionID ∈ app.store.transactionMonitors
  · simp only [hregistered, decide_true, if_true]
    rfl
  · have hfilter : app.store.transactionMonitors.filter (· ≠ transactionID) =
        app.store.transactionMonitors := by
      rw [List.filter_eq_self]
      intro id hmem
      exact decide_eq_true fun heq => hregistered (heq ▸ hmem)
    simp only [hregistered, decide_false, Bool.false_eq_true, if_false]
    simp only [App.unregister, App.modify, App.observe_store, hfilter]
    rfl

theorem alone_finish : (finish transactionID true).alone outside app =
    (.ok true, app.unregister transactionID) := by
  rw [finish, if_pos rfl, Process.alone_bind_of_ok alone_unregisterPostProcessing]
  rfl

theorem alone_contractProxy : contractProxy.alone outside app =
    match PostProcessor.selectedAddress app with
    | .ok _ => (.ok (), app)
    | .error reason => (.error reason, app) := by
  cases hselected : app.selectedWallet with
  | none => simp [contractProxy, PostProcessor.selectedAddress, hselected, Process.lift]
  | some wallet =>
      cases haddress : wallet.address with
      | none =>
          simp [contractProxy, PostProcessor.selectedAddress, hselected, haddress, Process.lift]
      | some address =>
          simp [contractProxy, PostProcessor.selectedAddress, hselected, haddress, Process.lift]

variable {services : Services} {wallet : Wallet} {tx : Transaction}

theorem alone_newOwnerAddress {decode : Data → Trapping (Option Address)}
    (hfind : app.store.transactions.find transactionID = some tx) :
    (newOwnerAddress decode transactionID).alone outside app =
      (PostProcessor.newOwner app tx decode, app) := by
  simp only [newOwnerAddress, Call.read, Process.alone_query_bind, hfind, PostProcessor.newOwner]
  cases hdata : tx.data with
  | none => rfl
  | some data =>
      rw [Process.alone_bind, alone_contractProxy]
      cases PostProcessor.selectedAddress app with
      | error reason => rfl
      | ok address => exact Process.alone_lift _

theorem alone_removeOldTwoFAOwner : (removeOldTwoFAOwner wallet).alone outside app =
    match PostProcessor.oldPair wallet with
    | none => (.ok (some (PostProcessor.withoutTwoFAOwner wallet)), app)
    | some pair =>
      match CommunicationDomainService.pairDeleted outside app pair with
      | .error reason => (.error reason, app)
      | .ok false => (.ok none, app)
      | .ok true => (.ok (some (PostProcessor.withoutTwoFAOwner wallet)), app) := by
  cases hold : wallet.twoFAOwner with
  | none => simp [removeOldTwoFAOwner, PostProcessor.oldPair, PostProcessor.withoutTwoFAOwner, hold]
  | some oldOwner =>
      by_cases hrole : oldOwner.role = .browserExtension
      · simp only [removeOldTwoFAOwner, PostProcessor.oldPair, PostProcessor.withoutTwoFAOwner,
          hold, hrole, if_true]
        rw [Process.alone_bind, CommunicationDomainService.alone_deletePair (wallet.id, _)]
        cases CommunicationDomainService.pairDeleted outside app (wallet.id, oldOwner.address) with
        | error reason => rfl
        | ok deleted => cases deleted <;> rfl
      · simp [removeOldTwoFAOwner, PostProcessor.oldPair, PostProcessor.withoutTwoFAOwner, hold,
          hrole]

end ReplaceTwoFADomainService

namespace PostProcessor

variable {services : Services} 

/-- The guards that the services begin with. -/
theorem alone_guards {types : List TransactionType} {mine : Transaction → Prop}
    [DecidablePred mine] {process : Transaction → Wallet → Call Bool}
    {settles : Transaction → Wallet → Trapping (Option Settlement)}
    (hmine : ∀ tx, mine tx ↔ tx.type ∈ types)
    (hprocess : ∀ tx wallet, app.store.transactions.find transactionID = some tx →
      tx.type ∈ types →
      (process tx wallet).alone outside app =
        Settlement.perform outside transactionID app (settles tx wallet)) :
    Process.alone outside (do
        match ← Call.read fun store => store.transactions.find transactionID with
        | none => return true
        | some tx =>
          if mine tx ∧ (tx.status = .success ∨ tx.status = .failed) then
            match ← Call.findWallet tx.accountID.walletID .elsewhere with
            | none => return true
            | some wallet => process tx wallet
          else return true) app =
      Settlement.perform outside transactionID app
        (settlementOf app types settles transactionID) := by
  simp only [Call.read, Process.alone_query_bind, settlementOf]
  cases hfind : app.store.transactions.find transactionID with
  | none => rfl
  | some tx =>
      simp only [hmine]
      split
      · rename_i hfinal
        simp only [Call.findWallet, Process.alone_query_bind]
        cases app.store.wallets.find tx.accountID.walletID with
        | none => rfl
        | some wallet => exact hprocess tx wallet hfind hfinal.1
      · rfl

theorem alone_contractUpgrade :
    (ContractUpgradeDomainService.postProcess services transactionID).alone outside app =
      Settlement.perform outside transactionID app
        (contractUpgrade.settlement services app transactionID) := by
  apply alone_guards fun tx => List.mem_singleton.symm
  intro tx wallet _ _
  simp only [settles]
  split
  · rw [Process.alone_bind, Process.alone_lift]
    cases ContractUpgradeDomainService.decodeNewMasterCopy services _ with
    | error reason => rfl
    | ok masterCopy =>
        cases masterCopy with
        | none => rfl
        | some masterCopy =>
            simp only
            split
            · exact ReplaceTwoFADomainService.alone_finish
            · exact ReplaceTwoFADomainService.alone_finish
  · rfl

theorem alone_processFailure {tx : Transaction} {pairing : TransactionType} {newOwner : Address} :
    (ReplaceTwoFADomainService.processFailure pairing tx newOwner >>=
        ReplaceTwoFADomainService.finish transactionID).alone outside app =
      Settlement.perform outside transactionID app (.ok (some (failure tx pairing newOwner))) := by
  by_cases htype : tx.type = pairing
  · simp only [ReplaceTwoFADomainService.processFailure, htype, if_true, failure]
    rw [Process.alone_bind, CommunicationDomainService.alone_deletePair (_, newOwner)]
    simp only [Settlement.perform]
    cases CommunicationDomainService.pairDeleted outside app (tx.accountID.walletID, newOwner) with
    | error reason => rfl
    | ok deleted =>
        cases deleted with
        | false => rfl
        | true => exact ReplaceTwoFADomainService.alone_finish
  · simp only [ReplaceTwoFADomainService.processFailure, htype, if_false, failure]
    exact ReplaceTwoFADomainService.alone_finish

/-- An entry of a service that adds or replaces an authenticator. -/
theorem alone_postProcessWith {types : List TransactionType}
    {decode : Data → Trapping (Option Address)}
    {processSuccess : Transaction → Address → Wallet → Call Bool} {pairing : TransactionType}
    (success : Transaction → Wallet → Address → Trapping Settlement)
    (hsuccess : ∀ tx newOwner wallet, tx.type ∈ types →
      (processSuccess tx newOwner wallet >>=
          ReplaceTwoFADomainService.finish transactionID).alone outside app =
        Settlement.perform outside transactionID app ((success tx wallet newOwner).map some)) :
    (ReplaceTwoFADomainService.postProcessWith types decode processSuccess pairing
        transactionID).alone outside app =
      Settlement.perform outside transactionID app (settlementOf app types
        (fun tx wallet => settlesNewOwner app tx decode (success tx wallet) pairing)
        transactionID) := by
  apply alone_guards fun tx => Iff.rfl
  intro tx wallet hfind htype
  simp only [settlesNewOwner]
  rw [Process.alone_bind, ReplaceTwoFADomainService.alone_newOwnerAddress hfind]
  cases newOwner app tx decode with
  | error reason => rfl
  | ok newOwner =>
      cases newOwner with
      | none => exact ReplaceTwoFADomainService.alone_finish
      | some newOwner =>
          by_cases hstatus : tx.status = .success
          · simp only [hstatus, if_true]
            refine (hsuccess tx newOwner wallet htype).trans ?_
            show _ = Settlement.perform outside transactionID app
              (success tx wallet newOwner >>= fun settlement => .ok (some settlement))
            cases success tx wallet newOwner <;> rfl
          · simp only [hstatus, if_false]
            exact alone_processFailure

/-- The old authenticator is removed before the rest is done. -/
theorem alone_removal {rest : Wallet → Call Bool} {wallet : Wallet} {settlement : Settlement}
    (hpair : settlement.pair = oldPair wallet)
    (hrest : (rest (withoutTwoFAOwner wallet) >>=
        ReplaceTwoFADomainService.finish transactionID).alone outside app =
      (.ok true, settlement.apply transactionID app)) :
    Process.alone outside ((do
        match ← ReplaceTwoFADomainService.removeOldTwoFAOwner wallet with
        | none => return false
        | some wallet => rest wallet) >>= ReplaceTwoFADomainService.finish transactionID) app =
      Settlement.perform outside transactionID app (.ok (some settlement)) := by
  rw [Process.alone_bind, Process.alone_bind, ReplaceTwoFADomainService.alone_removeOldTwoFAOwner]
  simp only [Settlement.perform, hpair]
  rw [Process.alone_bind] at hrest
  cases oldPair wallet with
  | none => exact hrest
  | some pair =>
      simp only
      cases CommunicationDomainService.pairDeleted outside app pair with
      | error reason => rfl
      | ok deleted =>
          cases deleted with
          | false => rfl
          | true => exact hrest

theorem alone_replace2FA :
    (ReplaceTwoFADomainService.postProcess services transactionID).alone outside app =
      Settlement.perform outside transactionID app
        (replace2FA.settlement services app transactionID) := by
  apply alone_postProcessWith (replaced services)
  intro tx newOwner wallet htype
  obtain ⟨role, hrole⟩ : ∃ role, tx.type.correspondingOwnerRole = some role := by
    simp only [List.mem_cons, List.not_mem_nil, or_false] at htype
    rcases htype with htype | htype <;> exact ⟨_, by rw [htype]; rfl⟩
  simp only [ReplaceTwoFADomainService.processSuccess, replaced, owner, hrole]
  exact alone_removal rfl ReplaceTwoFADomainService.alone_finish

theorem alone_connectTwoFA :
    (ConnectTwoFADomainService.postProcess services transactionID).alone outside app =
      Settlement.perform outside transactionID app
        (connectTwoFA.settlement services app transactionID) := by
  apply alone_postProcessWith (connected services)
  intro tx newOwner wallet htype
  obtain ⟨role, hrole⟩ : ∃ role, tx.type.correspondingOwnerRole = some role := by
    simp only [List.mem_cons, List.not_mem_nil, or_false] at htype
    rcases htype with htype | htype <;> exact ⟨_, by rw [htype]; rfl⟩
  simp only [ConnectTwoFADomainService.processSuccess, connected, owner, hrole]
  exact ReplaceTwoFADomainService.alone_finish

theorem alone_disconnectTwoFA :
    (DisconnectTwoFADomainService.postProcess transactionID).alone outside app =
      Settlement.perform outside transactionID app
        (disconnectTwoFA.settlement services app transactionID) := by
  apply alone_guards fun tx => Iff.rfl
  intro tx wallet _ _
  simp only [settles]
  split
  · exact alone_removal rfl ReplaceTwoFADomainService.alone_finish
  · exact ReplaceTwoFADomainService.alone_finish

theorem alone_removePhraseKey {newOwner : Address} :
    (ReplaceRecoveryPhraseDomainService.removePhraseKey newOwner transactionID).alone outside app =
      (.ok true, (app.modify (Store.removeKey newOwner)).unregister transactionID) := by
  simp only [ReplaceRecoveryPhraseDomainService.removePhraseKey, Call.read,
    Process.alone_query_bind]
  cases hkey : app.store.externallyOwnedAccounts.find newOwner with
  | some key => exact ReplaceTwoFADomainService.alone_finish
  | none =>
      have hremove : app.store.externallyOwnedAccounts.remove newOwner =
          app.store.externallyOwnedAccounts := Table.ext (Table.others_of_find_eq_none hkey)
      have hmodify : app.modify (Store.removeKey newOwner) = app := by
        simp only [App.modify, Store.removeKey, hremove]
      rw [hmodify]
      exact ReplaceTwoFADomainService.alone_finish

theorem alone_swaps {tx : Transaction} {wallet : Wallet} {swaps : Data × Data} :
    Process.alone outside (do
        ReplaceTwoFADomainService.contractProxy
        match ReplaceRecoveryPhraseDomainService.decodeNewOwners services swaps with
        | none => return true
        | some newOwners =>
          if tx.status = .success then
            Call.saveWallet (ReplaceRecoveryPhraseDomainService.withPhrase newOwners wallet)
            ReplaceRecoveryPhraseDomainService.removePhraseKey newOwners.1 transactionID
          else ReplaceRecoveryPhraseDomainService.removePhraseKey newOwners.1 transactionID) app =
      Settlement.perform outside transactionID app (rephrased services app tx wallet swaps) := by
  rw [Process.alone_bind, ReplaceTwoFADomainService.alone_contractProxy, rephrased]
  cases selectedAddress app with
  | error reason => rfl
  | ok address =>
      cases ReplaceRecoveryPhraseDomainService.decodeNewOwners services swaps with
      | none => rfl
      | some newOwners =>
          simp only [Option.map_some]
          split
          · exact alone_removePhraseKey
          · exact alone_removePhraseKey

theorem alone_replacePhrase :
    (ReplaceRecoveryPhraseDomainService.postProcess services transactionID).alone outside app =
      Settlement.perform outside transactionID app
        (replacePhrase.settlement services app transactionID) := by
  simp only [ReplaceRecoveryPhraseDomainService.postProcess, Call.read, Process.alone_query_bind,
    settlement, settlementOf, postProcessTypes, List.mem_singleton]
  cases hfind : app.store.transactions.find transactionID with
  | none => rfl
  | some tx =>
      simp only [settles]
      split
      · cases tx.recipient with
        | none => cases app.store.wallets.find tx.accountID.walletID <;> rfl
        | some recipient =>
            simp only [Call.findWallet, Process.alone_query_bind]
            cases app.store.wallets.find tx.accountID.walletID with
            | none => rfl
            | some wallet =>
                cases tx.data with
                | none => rfl
                | some data =>
                    simp only
                    rw [Process.alone_bind, Process.alone_lift]
                    cases ReplaceRecoveryPhraseDomainService.decodeSwaps services recipient
                      data with
                    | error reason => rfl
                    | ok swaps =>
                        cases swaps with
                        | none => rfl
                        | some swaps => exact alone_swaps
      · rfl

/-- Every service does what an entry amounts to for it. -/
theorem alone_postProcess (service : PostProcessor) :
    (service.postProcess services transactionID).alone outside app =
      Settlement.perform outside transactionID app
        (service.settlement services app transactionID) := by
  cases service with
  | contractUpgrade => exact alone_contractUpgrade
  | replace2FA => exact alone_replace2FA
  | connectTwoFA => exact alone_connectTwoFA
  | disconnectTwoFA => exact alone_disconnectTwoFA
  | replacePhrase => exact alone_replacePhrase

end PostProcessor

end Steps

/-! ## Stuck entries -/

namespace SynchronisationService

variable {context : PassContext} {entry : PostProcessor × TransactionID} {app : App}

theorem attempt_eq (entry : PostProcessor × TransactionID) (app : App) :
    attempt context entry app =
      match prospect context entry app with
      | .idle => (true, app)
      | .stuck => (false, app)
      | .ready settlement => (true, settlement.apply entry.2 app) := by
  simp only [attempt, PostProcessor.alone_postProcess, prospect]
  cases entry.1.settlement context.services app entry.2 with
  | error reason => rfl
  | ok settlement =>
      cases settlement with
      | none => rfl
      | some settlement =>
          simp only [Settlement.perform]
          cases settlement.pair with
          | none => rfl
          | some pair =>
              simp only
              cases CommunicationDomainService.pairDeleted (context.outside entry.1 entry.2) app
                pair with
              | error reason => rfl
              | ok deleted => cases deleted <;> rfl

theorem attempt_state (entry : PostProcessor × TransactionID) (app : App) :
    (attempt context entry app).2 = settle context entry app := by
  rw [attempt_eq, settle]
  cases prospect context entry app <;> rfl

theorem attempt_fails_iff : (attempt context entry app).1 = false ↔
    prospect context entry app = .stuck := by
  rw [attempt_eq]
  cases prospect context entry app <;> simp

theorem length_log_apply (settlement : Settlement) (transactionID : TransactionID) (app : App) :
    app.log.length < (settlement.apply transactionID app).log.length := by
  have hsaves : ∀ (wallets : List Wallet) (app : App),
      app.log.length ≤ (wallets.foldl App.saveWallet app).log.length := by
    intro wallets
    induction wallets with
    | nil => exact fun _ => le_rfl
    | cons wallet rest ih => exact fun app => (Nat.le_succ _).trans (ih (app.saveWallet wallet))
  refine (hsaves settlement.saves app).trans_lt ?_
  simp only [Settlement.apply, App.unregister]
  cases settlement.upgrades <;> cases settlement.key <;> simp +arith

/-- Settling an entry is on record, so it changes the program. -/
theorem settle_grows : Pass.Grows (settle context) fun app => app.log.length := by
  intro entry app hsettle
  cases hprospect : prospect context entry app with
  | idle => exact absurd (by simp [settle, hprospect]) hsettle
  | stuck => exact absurd (by simp [settle, hprospect]) hsettle
  | ready settlement =>
      simp only [settle, hprospect]
      exact length_log_apply settlement entry.2 app

theorem settle_eq_self_iff : settle context entry app = app ↔
    ∀ settlement, prospect context entry app ≠ .ready settlement := by
  cases hprospect : prospect context entry app with
  | idle => simp [settle, hprospect]
  | stuck => simp [settle, hprospect]
  | ready settlement =>
      have hlt := length_log_apply settlement entry.2 app
      simp only [settle, hprospect]
      exact ⟨fun heq => absurd (heq ▸ hlt) (lt_irrefl _), fun h => absurd rfl (h settlement)⟩

/-- A pass settles every entry whose own processing does not fail exactly if no such
entry comes after one whose processing fails. -/
theorem postProcessTransactions_settles_iff (context : PassContext) (app : App) :
    postProcessTransactions context app = settleAll context app ↔
      (turns context app).Pairwise fun earlier later =>
        prospect context earlier.1 earlier.2 = .stuck →
          ∀ settlement, prospect context later.1 later.2 ≠ .ready settlement := by
  have hfail : ∀ entry app, (attempt context entry app).1 = false →
      settle context entry app = app := by
    intro entry app hfails
    rw [settle, attempt_fails_iff.mp hfails]
  rw [postProcessTransactions, settleAll,
    Pass.run_eq_runAll_iff attempt_state hfail settle_grows]
  simp only [attempt_fails_iff, settle_eq_self_iff, turns]

/-- A wallet that has disconnected an authenticator of some role. -/
def disconnectedWallet (walletID : WalletID) (role : OwnerRole) : Wallet where
  id := walletID
  state := .readyToUse
  owners := [⟨.ofChain 2, .thisDevice⟩, ⟨.ofChain 3, role⟩]
  address := some (.ofChain 5)
  feePaymentTokenAddress := none
  confirmationCount := 2
  masterCopyAddress := some (.ofChain 6)

/-- The transaction that has disconnected it. -/
def disconnection (walletID : WalletID) (type : TransactionType) : Transaction :=
  .toItself walletID type walletID (.ofChain 5) .success "0x01"

/-- One wallet had a browser extension, another one a keycard. -/
def disconnectedApp : App := .ofStore
  { Store.ofWallets
      ((Table.empty.save (disconnectedWallet "extension" .browserExtension)).save
        (disconnectedWallet "keycard" .keycard))
      ((Table.empty.save (disconnection "extension" .disconnectAuthenticator)).save
        (disconnection "keycard" .disconnectStatusKeycard)) with
    externallyOwnedAccounts := Table.empty.save ⟨.ofChain 2, [1]⟩
    transactionMonitors := ["extension", "keycard"] }

/-- The notification service is down. -/
def refusingContext : PassContext where
  services := .offline (.ofHashes []) ⟨.zero, [], []⟩
  createdDate transactionID := if transactionID = "extension" then 1 else 2
  hasAccessToFilesystem _ := true
  outside _ _ :=
    { now := 0
      eth_call _ _ := none
      submitTransaction _ := none
      eth_getTransactionReceipt _ := none
      eth_getBlockByHash _ := none
      deletePair _ _ := false }

/-- The keycard needs nothing of the notification service, but its entry is behind one
that does. -/
theorem stuckEntry_blocks :
    "keycard" ∈
      (postProcessTransactions refusingContext disconnectedApp).store.transactionMonitors ∧
    "keycard" ∉ (settleAll refusingContext disconnectedApp).store.transactionMonitors ∧
    postProcessTransactions refusingContext disconnectedApp ≠
      settleAll refusingContext disconnectedApp := by
  have hcode : "keycard" ∈
      (postProcessTransactions refusingContext disconnectedApp).store.transactionMonitors := by
    decide +kernel
  have hsettled : "keycard" ∉
      (settleAll refusingContext disconnectedApp).store.transactionMonitors := by
    decide +kernel
  exact ⟨hcode, hsettled, fun heq => hsettled (heq ▸ hcode)⟩

end SynchronisationService

end SafeWallet
