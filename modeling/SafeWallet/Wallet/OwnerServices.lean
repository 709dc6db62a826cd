/-
# Services that write owners

Two sources of truth write the owners of a wallet that is ready to use. The refresh
from the relay compares owners by address and knows no roles. The post-processing of
a transaction that connects, replaces or disconnects an authenticator, or replaces
the recovery phrase, writes the roles of that transaction. Both read the stored
wallet, work on the object, and save it as a whole.
-/

import SafeWallet.Tokens.TokenList
import SafeWallet.Wallet.OnchainOwners
import SafeWallet.Wallet.WalletStates

namespace SafeWallet

/-! ## The relay -/

/-- `EthAddress(hex:)`: the last twenty bytes of a text, completed with zeros. -/
def EthereumKit.ethAddress (kit : EthereumKit) (text : String) : Address :=
  kit.checksummed (Data.suffix 20 (Data.leftPadded 20 (Data.ofEthHex text.toList)))

/-- `EthAddress.address`. -/
def EthereumKit.address (kit : EthereumKit) (x : ChainAddress) : Address :=
  kit.checksummed (Address.ofChain x).data

namespace TransactionRelayService

/-- A wallet object after the answer of the relay was taken over. -/
def withSafeInfo (kit : EthereumKit) (wallet : Wallet) (info : SafeInfo) : Wallet :=
  let remote := info.owners.map fun owner => (kit.address owner).normalized
  let wallet := Wallet.removeMissing
    { wallet with
      address := some (kit.address info.address)
      masterCopyAddress := some (kit.address info.masterCopy)
      confirmationCount := info.threshold
      contractVersion := some info.version } remote
  (wallet.additional remote).foldl
    (fun wallet owner => wallet.addOwner ⟨kit.ethAddress owner.value, .unknown⟩) wallet

/-- `updateSafeInfo(safe:)`. -/
def updateSafeInfo (kit : EthereumKit) (safe : Address) : Call Unit := do
  match ← Call.read fun store => store.findWallet safe with
  | none => return
  | some wallet =>
    if wallet.state.isReadyToUse then
      match ← Process.query (.refreshing safe) fun _ outside => outside.safeInfo safe with
      | none => return
      | some info =>
        Process.update (.merging safe info) fun app =>
          (app.saveWallet (withSafeInfo kit wallet info)).observe (.merged safe info)
    else return

end TransactionRelayService

/-! ## Arguments of owner calls -/

namespace SafeOwnerManagerContractProxy

open ContractProxy

/-- `decodeSwapOwnerArguments(from:)`: the previous, the old and the new owner. -/
def decodeSwapOwnerArguments (kit : EthereumKit) (data : Data) :
    Option (Address × Address × Address) :=
  let selector := method kit "swapOwner(address,address,address)"
  if data.length = selector.length + 3 * 32 ∧ data.take selector.length = selector then
    let input := data.drop selector.length
    some (decodeAddress input, decodeAddress (input.drop 32), decodeAddress (input.drop 64))
  else none

/-- `decodeAddOwnerArguments(from:)`: the new owner and the threshold. -/
def decodeAddOwnerArguments (kit : EthereumKit) (data : Data) : Trapping (Option (Address × ℕ)) :=
  let selector := method kit "addOwnerWithThreshold(address,uint256)"
  if data.length = selector.length + 2 * 32 ∧ data.take selector.length = selector then do
    let input := data.drop selector.length
    let threshold ← Trapping.toInt (decodeUInt (input.drop 32))
    return some (decodeAddress input, threshold)
  else return none

end SafeOwnerManagerContractProxy

/-! ## Post-processing -/

/-- `correspondingOwnerRole`. -/
def TransactionType.correspondingOwnerRole (type : TransactionType) : Option OwnerRole :=
  match type with
  | .replaceTwoFAWithAuthenticator | .connectAuthenticator | .disconnectAuthenticator =>
    some .browserExtension
  | .replaceTwoFAWithStatusKeycard | .connectStatusKeycard | .disconnectStatusKeycard =>
    some .keycard
  | _ => none

/-- `twoFAOwner`. -/
def Wallet.twoFAOwner (wallet : Wallet) : Option Owner :=
  wallet.owner .browserExtension <|> wallet.owner .keycard

/-- `CommunicationDomainService.deletePair(walletID:other:)`: whether it does not throw. -/
def CommunicationDomainService.deletePair (walletID : WalletID) (other : Address) : Call Bool := do
  let wallet ← Process.lift (Trapping.unwrap (← Call.findWallet walletID .elsewhere))
  let device ← Process.lift (Trapping.unwrap (wallet.owner .thisDevice))
  match ← Call.read fun store => store.externallyOwnedAccounts.find device.address with
  | none => return false
  | some _ => Process.query .elsewhere fun _ outside => outside.deletePair walletID other

namespace ReplaceTwoFADomainService

variable (services : Services)

/-- `unregisterPostProcessing(for:)`. -/
def unregisterPostProcessing (transactionID : TransactionID) : Call Unit := do
  let registered ← Process.perform .elsewhere fun app _ =>
    (decide (transactionID ∈ app.store.transactionMonitors),
      app.observe (.postProcessed transactionID))
  if registered then
    Call.write fun store =>
      { store with
        transactionMonitors := store.transactionMonitors.filter (· ≠ transactionID) }

/-- The end of a post-processing that may have thrown: whether it has not. -/
def finish (transactionID : TransactionID) (completed : Bool) : Call Bool := do
  if completed then unregisterPostProcessing transactionID
  return completed

/-- `contractProxy`, which needs a selected wallet with an address. -/
def contractProxy : Call Unit := do
  let wallet ← Process.lift (Trapping.unwrap
    (← Process.query .elsewhere fun app _ => app.selectedWallet))
  let _ ← Process.lift (Trapping.unwrap wallet.address)
  return

/-- `newOwnerAddress(from:)`, with the decoder of the service. -/
def newOwnerAddress (decode : Data → Trapping (Option Address)) (transactionID : TransactionID) :
    Call (Option Address) := do
  match ← Call.read fun store => store.transactions.find transactionID with
  | none => .trap .precondition
  | some tx =>
    match tx.data with
    | none => return none
    | some data =>
      contractProxy
      Process.lift (decode data)

/-- `add(newOwner:role:to:)`. -/
def add (newOwner : Address) (role : OwnerRole) (wallet : Wallet) : Call Wallet := do
  let formatted := (services.kit.formatted newOwner.value).getD newOwner
  Call.saveWallet (wallet.addOwner ⟨formatted, role⟩)
  return wallet.addOwner ⟨formatted, role⟩

/-- `removeOldTwoFAOwner(from:)`: the object after it, or nothing if it throws. -/
def removeOldTwoFAOwner (wallet : Wallet) : Call (Option Wallet) :=
  match wallet.twoFAOwner with
  | none => return some wallet
  | some oldOwner =>
    if oldOwner.role = .browserExtension then do
      if ← CommunicationDomainService.deletePair wallet.id oldOwner.address then
        return some (wallet.removeOwner oldOwner.role)
      else return none
    else return some (wallet.removeOwner oldOwner.role)

/-- A successful transaction of the service. The notification that follows changes
nothing here. -/
def processSuccess (tx : Transaction) (newOwner : Address) (wallet : Wallet) : Call Bool := do
  match ← removeOldTwoFAOwner wallet with
  | none => return false
  | some wallet =>
    let role ← Process.lift (Trapping.unwrap tx.type.correspondingOwnerRole)
    let _ ← add services newOwner role wallet
    return true

/-- `processFailure(tx:walletID:newOwnerAddress:)` for the type that pairs. -/
def processFailure (pairing : TransactionType) (tx : Transaction) (newOwner : Address) :
    Call Bool :=
  if tx.type = pairing then
    CommunicationDomainService.deletePair tx.accountID.walletID newOwner
  else return true

/-- `postProcess(transactionID:)`, shared with the connecting service. -/
def postProcessWith (types : List TransactionType) (decode : Data → Trapping (Option Address))
    (processSuccess : Transaction → Address → Wallet → Call Bool) (pairing : TransactionType)
    (transactionID : TransactionID) : Call Bool := do
  match ← Call.read fun store => store.transactions.find transactionID with
  | none => return true
  | some tx =>
    if tx.type ∈ types ∧ (tx.status = .success ∨ tx.status = .failed) then
      match ← Call.findWallet tx.accountID.walletID .elsewhere with
      | none => return true
      | some wallet =>
        match ← newOwnerAddress decode transactionID with
        | none => finish transactionID true
        | some newOwner =>
          if tx.status = .success then processSuccess tx newOwner wallet >>= finish transactionID
          else processFailure pairing tx newOwner >>= finish transactionID
    else return true

/-- The new owner of a call of `swapOwner`. -/
def decodeNewOwner (data : Data) : Trapping (Option Address) :=
  return (SafeOwnerManagerContractProxy.decodeSwapOwnerArguments services.kit data).map
    fun arguments => arguments.2.2

/-- `postProcess(transactionID:)`. -/
def postProcess (transactionID : TransactionID) : Call Bool :=
  postProcessWith [.replaceTwoFAWithAuthenticator, .replaceTwoFAWithStatusKeycard]
    (decodeNewOwner services) (processSuccess services) .replaceTwoFAWithAuthenticator transactionID

end ReplaceTwoFADomainService

namespace ConnectTwoFADomainService

variable (services : Services)

/-- `processSuccess(tx:with:in:)`. -/
def processSuccess (tx : Transaction) (newOwner : Address) (wallet : Wallet) : Call Bool := do
  let role ← Process.lift (Trapping.unwrap tx.type.correspondingOwnerRole)
  let wallet ← ReplaceTwoFADomainService.add services newOwner role wallet
  Call.saveWallet { wallet with confirmationCount := 2 }
  return true

/-- The new owner of a call of `addOwnerWithThreshold`. -/
def decodeNewOwner (data : Data) : Trapping (Option Address) := do
  let arguments ← SafeOwnerManagerContractProxy.decodeAddOwnerArguments services.kit data
  return arguments.map Prod.fst

/-- `postProcess(transactionID:)`. -/
def postProcess (transactionID : TransactionID) : Call Bool :=
  ReplaceTwoFADomainService.postProcessWith [.connectAuthenticator, .connectStatusKeycard]
    (decodeNewOwner services) (processSuccess services) .connectAuthenticator transactionID

end ConnectTwoFADomainService

namespace DisconnectTwoFADomainService

open ReplaceTwoFADomainService

/-- A successful transaction of the service. -/
def processSuccess (wallet : Wallet) : Call Bool := do
  match ← removeOldTwoFAOwner wallet with
  | none => return false
  | some wallet =>
    Call.saveWallet { wallet with confirmationCount := 1 }
    return true

/-- `postProcess(transactionID:)`. -/
def postProcess (transactionID : TransactionID) : Call Bool := do
  match ← Call.read fun store => store.transactions.find transactionID with
  | none => return true
  | some tx =>
    if tx.type ∈ [.disconnectAuthenticator, .disconnectStatusKeycard] ∧
        (tx.status = .success ∨ tx.status = .failed) then
      match ← Call.findWallet tx.accountID.walletID .elsewhere with
      | none => return true
      | some wallet =>
        if tx.status = .success then processSuccess wallet >>= finish transactionID
        else finish transactionID true
    else return true

end DisconnectTwoFADomainService

namespace ReplaceRecoveryPhraseDomainService

open ReplaceTwoFADomainService

variable (services : Services)

/-- The first two calls of a batch. -/
def decodeSwaps (recipient : Address) (data : Data) : Trapping (Option (Data × Data)) := do
  let transactions ← MultiSend.decodeMultiSendArguments services.kit
    services.metadata.multiSendContractAddress services.metadata.multiSend recipient data
  return match transactions with
  | some (first :: second :: _) => some (first.data, second.data)
  | _ => none

/-- The new owners of two calls of `swapOwner`, formatted. -/
def decodeNewOwners (swaps : Data × Data) : Option (Address × Address) := do
  let swap1 ← SafeOwnerManagerContractProxy.decodeSwapOwnerArguments services.kit swaps.1
  let swap2 ← SafeOwnerManagerContractProxy.decodeSwapOwnerArguments services.kit swaps.2
  let newOwner1 ← services.kit.formatted swap1.2.2.value
  let newOwner2 ← services.kit.formatted swap2.2.2.value
  return (newOwner1, newOwner2)

/-- A wallet object with the owners of the new phrase. -/
def withPhrase (newOwners : Address × Address) (wallet : Wallet) : Wallet :=
  (wallet.addOwner ⟨newOwners.1, .paperWallet⟩).addOwner ⟨newOwners.2, .paperWalletDerived⟩

/-- The end of `postProcess(transactionID:)`: the key of the new phrase is removed. -/
def removePhraseKey (newOwner : Address) (transactionID : TransactionID) : Call Bool := do
  if ← Call.read fun store => (store.externallyOwnedAccounts.find newOwner).isSome then
    Call.write (Store.removeKey newOwner)
  finish transactionID true

/-- `postProcess(transactionID:)`. -/
def postProcess (transactionID : TransactionID) : Call Bool := do
  match ← Call.read fun store => store.transactions.find transactionID with
  | none => return true
  | some tx =>
    if tx.type = .replaceRecoveryPhrase ∧ (tx.status = .success ∨ tx.status = .failed) then
      match tx.recipient with
      | none => return true
      | some recipient =>
        match ← Call.findWallet tx.accountID.walletID .elsewhere with
        | none => return true
        | some wallet =>
          match tx.data with
          | none => return true
          | some data =>
            match ← Process.lift (decodeSwaps services recipient data) with
            | none => return true
            | some swaps =>
              contractProxy
              match decodeNewOwners services swaps with
              | none => return true
              | some newOwners =>
                if tx.status = .success then
                  Call.saveWallet (withPhrase newOwners wallet)
                  removePhraseKey newOwners.1 transactionID
                else removePhraseKey newOwners.1 transactionID
    else return true

end ReplaceRecoveryPhraseDomainService

/-! ## The user -/

namespace WalletApplication

/-- `changePaymentToken(_:)`. The token is whitelisted after the wallet was saved. -/
def changePaymentToken (token : Token) : Call Unit := do
  let wallet ← Process.lift (Trapping.unwrap
    (← Process.query .elsewhere fun app _ => app.selectedWallet))
  Call.saveWallet { wallet with feePaymentTokenAddress := some token.address }
  if token = Token.Ether then return
  else
    let items ← Process.lift (← Call.read fun store =>
      TokenListItemRepository.whitelist store.tokenListItems token)
    Call.write fun store => { store with tokenListItems := items }

end WalletApplication

end SafeWallet
