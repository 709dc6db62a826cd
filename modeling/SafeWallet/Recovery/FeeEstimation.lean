/-
# Estimating the fees of a recovery

Once a recovery phrase is accepted, the fees of the recovery are estimated with a
transaction that is built for the owners the contract has at that moment. The builder is
the one of the recovery itself, but it is used without the checks of the scheme and of
the number of owners that the recovery makes first: a contract whose scheme has changed
since the phrase was checked stops the program.
-/

import SafeWallet.Application.OutgoingTransactions
import SafeWallet.Recovery.AddressChange
import SafeWallet.Transaction.Submission

namespace SafeWallet

open SafeOwnerManagerContractProxy

/-! ## The request to the relay -/

/-- `MultiTokenEstimateTransactionRequest`. -/
structure MultiTokenEstimateTransactionRequest where
  safe : String
  toAddress : Option String
  value : String
  data : String
  operation : WalletOperation
  deriving DecidableEq, Repr

/-- `MultiTokenEstimateTransactionRequest.Response.Estimation`, as it is received. -/
structure TokenEstimation where
  gasToken : String
  gasPrice : ℤ
  baseGas : ℤ
  deriving DecidableEq, Repr

/-- `MultiTokenEstimateTransactionRequest.Response`, as far as it is used. -/
structure MultiTokenEstimateResponse where
  safeTxGas : Option ℤ
  operationalGas : Option ℤ
  estimations : List TokenEstimation
  deriving DecidableEq, Repr

/-- `TokenData`: a token and an amount of it. -/
structure TokenData where
  token : Token
  balance : ℤ
  deriving DecidableEq, Repr

namespace MultiTokenEstimateTransactionRequest

/-- `MultiTokenEstimateTransactionRequest(safe:to:value:data:operation:)`. -/
def make (safe : String) (toAddress : Option Address) (value data : String)
    (operation : WalletOperation) : Trapping MultiTokenEstimateTransactionRequest := do
  Trapping.require (Decimal.integer value.toList).isSome
  Trapping.require (data.isEmpty ∨ Data.ofEthHex data.toList ≠ [])
  return ⟨safe, toAddress.map Address.value, value, data, operation⟩

end MultiTokenEstimateTransactionRequest

/-- `multiTokenEstimateTransaction(request:)`, with the totals that are displayed: the gas of the
whole response is part of every estimation. -/
def multiTokenEstimateTransaction
    (relay : MultiTokenEstimateTransactionRequest → Option MultiTokenEstimateResponse)
    (request : MultiTokenEstimateTransactionRequest) : Trapping (Option (List (String × ℤ))) :=
  match relay request with
  | none => return none
  | some response => do
    let totals ← response.estimations.mapM fun estimation => do
      let safeTxGas ← Trapping.unwrap response.safeTxGas
      let operationalGas ← Trapping.unwrap response.operationalGas
      return (estimation.gasToken,
        estimation.gasPrice * (estimation.baseGas + safeTxGas + operationalGas))
    return some totals

/-! ## The operation -/

namespace RecoveryTransactionBuilder

/-- `build()`, with the identifier it returns. -/
def buildWithID (services : Services) (balancesUpdated : Bool) (now : Date) (store : Store) :
    Trapping (Option (Store × TransactionID)) := do
  let wallet ← Trapping.unwrap store.selectedWallet
  match ← pullData services store wallet now balancesUpdated with
  | none => return none
  | some builder =>
    let builder ← builder.buildData services now
    match store.wallets.find builder.wallet.id with
    | none => return none
    | some _ => return some (builder.save store, builder.transaction.id)

/-- Without the identifier this is the operation of the same name. -/
theorem build_eq_map (services : Services) (balancesUpdated : Bool) (now : Date) (store : Store) :
    build services balancesUpdated now store =
      (buildWithID services balancesUpdated now store).map fun built =>
        (built.map Prod.fst).getD store := by
  unfold build buildWithID
  cases Trapping.unwrap store.selectedWallet with
  | error trap => rfl
  | ok wallet =>
      simp only [Trapping.ok_bind]
      rcases pullData services store wallet now balancesUpdated with trap | _ | builder
      · rfl
      · rfl
      · simp only [Trapping.ok_bind]
        cases builder.buildData services now with
        | error trap => rfl
        | ok built =>
            simp only [Trapping.ok_bind, save]
            cases store.wallets.find built.wallet.id <;> rfl

end RecoveryTransactionBuilder

namespace RecoveryDomainService

variable (services : Services)
  (relay : MultiTokenEstimateTransactionRequest → Option MultiTokenEstimateResponse)

open RecoveryTransactionBuilder

/-- The request for the fees of a transaction. -/
def estimationRequest (tx : Transaction) : Trapping MultiTokenEstimateTransactionRequest := do
  let sender ← Trapping.unwrap tx.sender
  let safe ← Trapping.unwrap (services.kit.formatted sender.value)
  let operation ← Trapping.unwrap tx.operation
  MultiTokenEstimateTransactionRequest.make safe.value (services.kit.formatted tx.ethTo.value)
    (String.ofList (Decimal.text tx.ethValue)) tx.ethDataText operation

/-- The fees of a transaction in each token that is known. -/
def estimatedFees (store : Store) (txId : TransactionID) : Trapping (List TokenData) := do
  let tx ← Trapping.unwrap (store.transactions.find txId)
  let request ← estimationRequest services tx
  match ← multiTokenEstimateTransaction relay request with
  | none => return []
  | some totals => return totals.filterMap fun total =>
      (store.token total.1).map fun token => ⟨token, total.2⟩

/-- `estimateRecoveryTransaction()`, with the list it returns. -/
def estimateRecoveryFees (balancesUpdated : Bool) (now : Date) (store : Store) :
    Trapping (Store × List TokenData) := do
  let store ← removeRecoveryTransaction store
  match ← buildWithID services balancesUpdated now store with
  | none => return (store, [])
  | some (store, txId) => return (store, ← estimatedFees services relay store txId)

variable {services relay} {balancesUpdated : Bool} {now : Date} {store : Store}

/-- Without the list this is the operation that leaves the transaction. -/
theorem estimateRecoveryTransaction_of_fees {store' : Store} {fees : List TokenData}
    (h : estimateRecoveryFees services relay balancesUpdated now store = .ok (store', fees)) :
    estimateRecoveryTransaction services balancesUpdated now store = .ok store' := by
  simp only [estimateRecoveryFees, Trapping.bind_eq_ok_iff] at h
  obtain ⟨removed, hremoved, built, hbuilt, h⟩ := h
  rw [estimateRecoveryTransaction, hremoved, Trapping.ok_bind, build_eq_map, hbuilt]
  cases built with
  | none =>
      cases h
      rfl
  | some built =>
      simp only [Trapping.bind_eq_ok_iff] at h
      obtain ⟨fees', -, h⟩ := h
      cases h
      rfl

/-! ## The request is well formed -/

/-- The relay sends the gas along with its estimations. -/
def SendsGas (relay : MultiTokenEstimateTransactionRequest → Option MultiTokenEstimateResponse) :
    Prop :=
  ∀ request response, relay request = some response → response.estimations ≠ [] →
    response.safeTxGas.isSome ∧ response.operationalGas.isSome

theorem multiTokenEstimateTransaction_ok (hrelay : SendsGas relay)
    (request : MultiTokenEstimateTransactionRequest) :
    ∃ totals, multiTokenEstimateTransaction relay request = .ok totals := by
  unfold multiTokenEstimateTransaction
  cases hresponse : relay request with
  | none => exact ⟨none, rfl⟩
  | some response =>
      rcases hestimations : response.estimations with _ | ⟨first, rest⟩
      · exact ⟨some [], by simp only [hestimations]; rfl⟩
      · obtain ⟨hsafeTxGas, hoperationalGas⟩ :=
          hrelay request response hresponse (by rw [hestimations]; exact List.cons_ne_nil _ _)
        obtain ⟨safeTxGas, hsafeTxGas⟩ := Option.isSome_iff_exists.mp hsafeTxGas
        obtain ⟨operationalGas, hoperationalGas⟩ := Option.isSome_iff_exists.mp hoperationalGas
        simp only [hsafeTxGas, hoperationalGas, Trapping.unwrap_some, Trapping.ok_bind,
          List.mapM_pure]
        exact ⟨_, rfl⟩

/-- What the request needs of the transaction that is estimated. -/
structure Requestable (tx : Transaction) (sender : Address) : Prop where
  sender_eq : tx.sender = some sender
  operation_isSome : tx.operation.isSome
  data_ne : tx.data ≠ some []

theorem Requestable.estimationRequest_ok {tx : Transaction} {sender : Address}
    (h : Requestable tx sender) (hwf : sender.WellFormed) :
    ∃ request, estimationRequest services tx = .ok request := by
  obtain ⟨safe, hsafe, -⟩ := services.kit.formatted_of_wellFormed hwf
  obtain ⟨operation, hoperation⟩ := Option.isSome_iff_exists.mp h.operation_isSome
  have hdata : tx.ethDataText.isEmpty ∨ Data.ofEthHex tx.ethDataText.toList ≠ [] := by
    unfold Transaction.ethDataText
    cases htx : tx.data with
    | none => exact .inl rfl
    | some data =>
        refine .inr ?_
        simp only [String.toList_ofList, Data.ofEthHex_prefixed, Data.ofEthHex_toHexString]
        rintro rfl
        exact h.data_ne htx
  simp only [estimationRequest, h.sender_eq, hsafe, hoperation, Trapping.unwrap_some,
    Trapping.ok_bind, MultiTokenEstimateTransactionRequest.make, String.toList_ofList,
    Decimal.integer_text, Option.isSome_some, Trapping.require_true, hdata, decide_true]
  exact ⟨_, rfl⟩

theorem estimatedFees_ok {txId : TransactionID} {tx : Transaction} {sender : Address}
    (hrelay : SendsGas relay) (hfind : store.transactions.find txId = some tx)
    (h : Requestable tx sender) (hwf : sender.WellFormed) :
    ∃ fees, estimatedFees services relay store txId = .ok fees := by
  obtain ⟨request, hrequest⟩ : ∃ request, estimationRequest services tx = .ok request :=
    h.estimationRequest_ok hwf
  obtain ⟨totals, htotals⟩ := multiTokenEstimateTransaction_ok hrelay request
  simp only [estimatedFees, hfind, Trapping.unwrap_some, Trapping.ok_bind, hrequest, htotals]
  cases totals <;> exact ⟨_, rfl⟩

/-- Empty data is not read back from the store. -/
theorem requestable_persisted {tx : Transaction} {sender : Address}
    (hsender : tx.sender = some sender) (hoperation : tx.operation.isSome) :
    Requestable (Transactions.persisted tx) sender := by
  refine ⟨hsender, hoperation, ?_⟩
  simp [Transactions.persisted, Option.filter_eq_some_iff]

/-- Every way to build the data sets an operation. -/
theorem operation_buildData {builder built : RecoveryTransactionBuilder}
    (h : builder.buildData services now = .ok built) : built.transaction.operation.isSome := by
  simp only [buildData, Trapping.bind_eq_ok_iff] at h
  obtain ⟨⟨planned, calls⟩, -, h⟩ := h
  unfold buildTransactionData at h
  split at h
  · cases h
    rfl
  · cases h
    rfl
  · simp only [Trapping.bind_eq_ok_iff] at h
    obtain ⟨address, -, h⟩ := h
    cases h
    rfl

/-! ## What the chain reports -/

/-- A recovery draft whose phrase was accepted. -/
structure AcceptedDraft (store : Store) (wallet : Wallet) (address : Address)
    (owners : RecoveryOwners) : Prop where
  selected : store.selectedWallet = some wallet
  address_eq : wallet.address = some address
  address_wellFormed : address.WellFormed
  feeToken_wellFormed : ∀ token ∈ wallet.feePaymentTokenAddress, token.WellFormed
  ofWallet : owners.OfWallet wallet

/-- An owner with a role of its own is found by it from then on. -/
theorem owner_addOwner {wallet : Wallet} {new : Owner} (hknown : new.role ≠ .unknown)
    (role : OwnerRole) : (wallet.addOwner new).owner role =
      if role = new.role then some new else wallet.owner role := by
  rw [Wallet.addOwner, if_neg hknown, Wallet.owner, List.find?_append]
  by_cases heq : role = new.role
  · have hremoved : (wallet.removeOwner new.role).owners.find?
        (fun owner => decide (owner.role = role)) = none := by
      rw [List.find?_eq_none, heq]
      intro owner hmem
      simpa [Wallet.removeOwner] using (List.mem_filter.mp hmem).2
    rw [hremoved, if_pos heq]
    simp [heq]
  · have hkept : (wallet.removeOwner new.role).owners.find?
        (fun owner => decide (owner.role = role)) = wallet.owner role := by
      rw [Wallet.owner, ← List.head?_filter, ← List.head?_filter, Wallet.removeOwner,
        List.filter_filter]
      congr 1
      apply List.filter_congr
      intro owner _
      by_cases hrole : owner.role = role <;> simp [hrole, heq]
    rw [hkept, if_neg heq]
    simp [Ne.symm heq]

theorem uniqueRoles_addOwner {wallet : Wallet} {new : Owner} (hknown : new.role ≠ .unknown)
    (h : UniqueRoles wallet) : UniqueRoles (wallet.addOwner new) := by
  intro owner hmem hrole
  rw [owner_addOwner hknown]
  rcases Wallet.mem_addOwner.mp hmem with ⟨hold, hother⟩ | rfl
  · rw [if_neg (hother.resolve_left hknown)]
    exact h owner hold hrole
  · rw [if_pos rfl]

/-- The draft a recovery phrase is entered for. -/
structure EnteredDraft (store : Store) (wallet : Wallet) (address : Address) : Prop where
  selected : store.selectedWallet = some wallet
  address_eq : wallet.address = some address
  address_wellFormed : address.WellFormed
  feeToken_wellFormed : ∀ token ∈ wallet.feePaymentTokenAddress, token.WellFormed
  device : (wallet.owner .thisDevice).isSome
  unique : UniqueRoles wallet
  wellFormed : ∀ owner ∈ wallet.owners, owner.address.WellFormed

/-- The accounts of a phrase have addresses. -/
def PhraseDerivation.WellFormed (derivation : PhraseDerivation) : Prop :=
  ∀ phrase account, derivation.fromPhrase phrase = some account →
    account.address.WellFormed ∧ (derivation.derived account).address.WellFormed

theorem verifyRecovery_accounts {derivation : PhraseDerivation} {wallet : Wallet}
    {recoveryPhrase : String} {account derivedAccount : ExternallyOwnedAccount}
    (h : verifyRecovery derivation wallet recoveryPhrase = .ok (account, derivedAccount)) :
    derivation.fromPhrase recoveryPhrase = some account ∧
      derivedAccount = derivation.derived account := by
  unfold verifyRecovery at h
  cases hfound : derivation.fromPhrase recoveryPhrase with
  | none =>
      simp only [hfound] at h
      cases h
  | some found =>
      simp only [hfound] at h
      split_ifs at h
      all_goals
        cases h
        exact ⟨rfl, rfl⟩

theorem selectedWallet_saveAccount (account : ExternallyOwnedAccount) (store : Store) :
    (saveAccount account store).selectedWallet = store.selectedWallet := by
  unfold saveAccount
  split <;> rfl

theorem addOwner_address (wallet : Wallet) (new : Owner) :
    (wallet.addOwner new).address = wallet.address := by
  unfold Wallet.addOwner
  split <;> rfl

theorem addOwner_feePaymentTokenAddress (wallet : Wallet) (new : Owner) :
    (wallet.addOwner new).feePaymentTokenAddress = wallet.feePaymentTokenAddress := by
  unfold Wallet.addOwner
  split <;> rfl

/-- A draft for which a phrase is accepted gets the owners of the phrase. -/
theorem EnteredDraft.acceptedDraft {store store' : Store} {wallet : Wallet} {address : Address}
    {derivation : PhraseDerivation} {recoveryPhrase : String}
    (h : EnteredDraft store wallet address) (hderivation : derivation.WellFormed)
    (haccepted : provide derivation recoveryPhrase store = .ok (store', none)) :
    ∃ wallet' owners, AcceptedDraft store' wallet' address owners := by
  simp only [provide, h.selected, Trapping.unwrap_some, Trapping.ok_bind] at haccepted
  split at haccepted
  · cases haccepted
  · rename_i account derivedAccount hverified
    cases haccepted
    obtain ⟨hfound, rfl⟩ := verifyRecovery_accounts hverified
    obtain ⟨hpaper, hderived⟩ := hderivation _ _ hfound
    obtain ⟨device, hdevice⟩ := Option.isSome_iff_exists.mp h.device
    refine ⟨(wallet.addOwner ⟨account.address, .paperWallet⟩).addOwner
      ⟨(derivation.derived account).address, .paperWalletDerived⟩,
      ⟨device.address, account.address, (derivation.derived account).address,
      ((wallet.owner .browserExtension).or (wallet.owner .keycard)).map Owner.address⟩, ?_⟩
    have hselected : (saveAccount (derivation.derived account)
        (saveAccount account store)).selectedWallet = some wallet := by
      rw [selectedWallet_saveAccount, selectedWallet_saveAccount]
      exact h.selected
    refine ⟨selectedWallet_saveWallet hselected (by simp), ?_, h.address_wellFormed, ?_, ?_⟩
    · rw [addOwner_address, addOwner_address, h.address_eq]
    · rw [addOwner_feePaymentTokenAddress, addOwner_feePaymentTokenAddress]
      exact h.feeToken_wellFormed
    · have hother : ∀ role, role ≠ .paperWallet → role ≠ .paperWalletDerived →
          ((wallet.addOwner ⟨account.address, .paperWallet⟩).addOwner
            ⟨(derivation.derived account).address, .paperWalletDerived⟩).owner role =
              wallet.owner role := by
        intro role hne hne'
        rw [owner_addOwner (by simp), if_neg hne', owner_addOwner (by simp), if_neg hne]
      have hrole := (Wallet.owner_mem hdevice).2
      refine ⟨?_, ?_, ?_, ?_, ?_, ?_⟩
      · rw [hother _ (by decide) (by decide), hdevice, ← hrole]
      · rw [owner_addOwner (by simp), if_neg (by simp), owner_addOwner (by simp), if_pos rfl]
      · rw [owner_addOwner (by simp), if_pos rfl]
      · rw [hother _ (by decide) (by decide), hother _ (by decide) (by decide)]
      · exact uniqueRoles_addOwner (by simp) (uniqueRoles_addOwner (by simp) h.unique)
      · intro owner hmem
        rcases Wallet.mem_addOwner.mp hmem with ⟨hmem, -⟩ | rfl
        · rcases Wallet.mem_addOwner.mp hmem with ⟨hmem, -⟩ | rfl
          · exact h.wellFormed owner hmem
          · exact hpaper
        · exact hderived

/-- What the chain may report about a contract: its state, or nothing. -/
structure Reports (services : Services) (contract : Address) (manager : OwnerManager) :
    Prop where
  getOwners :
    services.eth_call contract (ContractProxy.invocation services.kit "getOwners()" []) = none ∨
    services.eth_call contract (ContractProxy.invocation services.kit "getOwners()" []) =
      some (ContractProxy.encodeArrayUInt (manager.owners.map BitVec.toNat))
  getThreshold :
    services.eth_call contract (ContractProxy.invocation services.kit "getThreshold()" []) =
      none ∨
    services.eth_call contract (ContractProxy.invocation services.kit "getThreshold()" []) =
      some (ContractProxy.encodeUInt manager.threshold.toNat)

/-- The contract's scheme and the one of the draft are among the two that can be recovered. -/
def Recoverable (wallet : Wallet) (manager : OwnerManager) : Prop :=
  (⟨manager.threshold.toNat, manager.owners.length⟩ : WalletScheme) ∈ supportedSchemes ∧
    newWalletScheme wallet ∈ supportedSchemes

/-- What is reported fits the program's integers and, if nothing was missing, the contract can
be recovered. -/
def Estimable (services : Services) (wallet : Wallet) (contract : Address)
    (manager : OwnerManager) (balancesUpdated : Bool) : Prop :=
  services.eth_call contract (ContractProxy.invocation services.kit "getOwners()" []) ≠ none →
    manager.owners.length * 32 < 2 ^ 63 ∧
      (services.eth_call contract (ContractProxy.invocation services.kit "getThreshold()" []) ≠
          none →
        manager.threshold.toNat < 2 ^ 63 ∧
          (balancesUpdated = true → Recoverable wallet manager))

variable {wallet : Wallet} {address : Address} {owners : RecoveryOwners} {manager : OwnerManager}

theorem AcceptedDraft.newTransaction_ok (h : AcceptedDraft store wallet address owners)
    (services : Services) (store' : Store) (now : Date) :
    ∃ tx, newTransaction services store' wallet now = .ok tx ∧ tx.sender = some address := by
  have htoken : (wallet.feePaymentTokenAddress.getD Token.Ether.address).value ≠ "" := by
    cases hfee : wallet.feePaymentTokenAddress with
    | none => decide
    | some token =>
        intro hempty
        have hlength := (h.feeToken_wellFormed token hfee).2.1
        rw [Option.getD_some] at hempty
        rw [hempty] at hlength
        cases hlength
  simp only [newTransaction, AccountID.make, ne_eq, htoken, not_false_eq_true, decide_true,
    Trapping.require_true, Trapping.ok_bind, Trapping.pure_eq_ok, h.address_eq]
  exact ⟨_, rfl, rfl⟩

/-- The copy can be made of any owners. -/
theorem ownerLinkedList_ok (wallet : Wallet) (remote : List ChainAddress) (threshold : ℕ) :
    ∃ ownerList, ownerLinkedList (withRemote wallet (remote.map Address.ofChain) threshold) =
      .ok ownerList := by
  have hcopied : ∃ ownerList, (remote.map Address.ofChain).foldlM OwnerLinkedList.add
      OwnerLinkedList.empty = .ok ownerList := by
    rcases remote with _ | ⟨first, rest⟩
    · exact ⟨_, rfl⟩
    · obtain ⟨ownerList, hfold, -⟩ :=
        OwnerLinkedList.represents_foldlM (first :: rest) (List.cons_ne_nil _ _)
      exact ⟨ownerList, hfold⟩
  rw [ownerLinkedList, remoteOwners_withRemote, List.map_map]
  simpa [Function.comp_def] using hcopied

/-- A scheme outside the four plans is not planned for. -/
theorem plannedCalls_of_unsupported {builder : RecoveryTransactionBuilder}
    (h : builder.isSupportedScheme = false) :
    builder.plannedCalls services = .error .precondition := by
  have hunsupported : ¬ (builder.oldScheme ∈ supportedSchemes ∧
      builder.newScheme ∈ supportedSchemes) := by
    simpa [isSupportedScheme] using h
  simp only [supportedSchemes, List.mem_cons, List.not_mem_nil, or_false] at hunsupported
  unfold plannedCalls
  rw [if_neg (by tauto), if_neg (by tauto), if_neg (by tauto), if_neg (by tauto)]

/-- If nothing is missing, the data is pulled with the schemes of the contract and the draft. -/
theorem AcceptedDraft.pullData_ok (h : AcceptedDraft store wallet address owners)
    (hanswers : Answers services address manager) (hlength : manager.owners.length * 32 < 2 ^ 63)
    (hthreshold : manager.threshold.toNat < 2 ^ 63) (store' : Store) :
    ∃ builder, pullData services store' wallet now true = .ok (some builder) ∧
      builder.transaction.sender = some address ∧
      (builder.isSupportedScheme = true ↔ Recoverable wallet manager) := by
  obtain ⟨tx, htx, hsender⟩ := h.newTransaction_ok services store' now
  have hread := getOwners_eq hanswers
  rw [if_pos hlength] at hread
  have hcount := getThreshold_eq hanswers
  rw [Trapping.toInt_of_lt hthreshold] at hcount
  obtain ⟨ownerList, hlist⟩ := ownerLinkedList_ok wallet manager.owners manager.threshold.toNat
  refine ⟨_, pullData_eq h.address_eq htx hread hcount hlist, hsender, ?_⟩
  have hnew : newWalletScheme (withRemote wallet (manager.owners.map Address.ofChain)
      manager.threshold.toNat) = newWalletScheme wallet := by
    rw [newWalletScheme, newWalletScheme, hasAuthenticator, owner_withRemote (by decide),
      owner_withRemote (by decide), localOwners, filter_withRemote (by simp)]
    rfl
  rw [isSupportedScheme, oldScheme_eq, hnew, List.length_map, decide_eq_true_eq, Recoverable]

/-- Without the balances nothing is pulled. -/
theorem pullData_of_not_updated {builder : RecoveryTransactionBuilder}
    (h : pullData services store wallet now true = .ok (some builder)) :
    pullData services store wallet now false = .ok none := by
  obtain ⟨walletAddress, transaction, owners, threshold, ownerList, haddress, howners, hthreshold,
    hlist, htransaction, -⟩ := pullData_spec h
  simp only [pullData, haddress, Trapping.unwrap_some, Trapping.ok_bind, htransaction, howners,
    hthreshold, hlist, Bool.false_eq_true, ↓reduceIte, Trapping.pure_eq_ok]

/-- The data is built exactly for the schemes that can be recovered. -/
theorem AcceptedDraft.buildData_ok_iff (h : AcceptedDraft store wallet address owners)
    (hselectors : OwnerSelectors services.kit)
    (hcontract : services.metadata.multiSendContractAddress.WellFormed)
    (hanswers : Answers services address manager) {store' : Store}
    {builder : RecoveryTransactionBuilder}
    (hpull : pullData services store' wallet now true = .ok (some builder))
    (hscheme : builder.isSupportedScheme = true ↔ Recoverable wallet manager) :
    (∃ built, builder.buildData services now = .ok built) ↔ Recoverable wallet manager := by
  rw [← hscheme]
  constructor
  · rintro ⟨built, hbuilt⟩
    by_contra hunsupported
    rw [buildData, plannedCalls_of_unsupported (Bool.eq_false_iff.mpr hunsupported)] at hbuilt
    cases hbuilt
  · intro hsupported
    obtain ⟨hpulled, -, -⟩ := pulled_of_pullData hpull h.address_eq h.address_wellFormed hanswers
      h.ofWallet hsupported
    have hge := manager.length_replaceable_ge owners.paper.onChain owners.derived.onChain
    have hpos : 0 < (manager.replaceable owners.paper.onChain owners.derived.onChain).length := by
      have := hpulled.scheme hsupported
      omega
    obtain ⟨planned, data, built, -, hbuilt, -, -⟩ :=
      hpulled.exists_built hselectors hcontract hpos hsupported now
    exact ⟨built, hbuilt⟩

/-! ## When the estimation ends -/

/-- The estimation returns a list. -/
def Estimates (services : Services)
    (relay : MultiTokenEstimateTransactionRequest → Option MultiTokenEstimateResponse)
    (balancesUpdated : Bool) (now : Date) (store : Store) : Prop :=
  ∃ store' fees, estimateRecoveryFees services relay balancesUpdated now store = .ok (store', fees)

/-- The former transaction is removed and the draft stays selected. -/
theorem AcceptedDraft.removeRecoveryTransaction_ok (h : AcceptedDraft store wallet address owners) :
    ∃ removed, removeRecoveryTransaction store = .ok removed ∧
      removed.selectedWallet = some wallet := by
  simp only [removeRecoveryTransaction, h.selected, Trapping.unwrap_some, Trapping.ok_bind]
  split
  · exact ⟨store, rfl, h.selected⟩
  · exact ⟨_, rfl, h.selected⟩

section Removed

variable {removed : Store} (hremoved : removeRecoveryTransaction store = .ok removed)
  (hselected : removed.selectedWallet = some wallet)

include hremoved hselected

theorem estimates_of_none (h : pullData services removed wallet now balancesUpdated = .ok none) :
    Estimates services relay balancesUpdated now store := by
  refine ⟨removed, [], ?_⟩
  simp only [estimateRecoveryFees, hremoved, Trapping.ok_bind, buildWithID, hselected,
    Trapping.unwrap_some, h, Trapping.pure_eq_ok]

theorem not_estimates_of_error {trap : Trap}
    (h : pullData services removed wallet now balancesUpdated = .error trap) :
    ¬ Estimates services relay balancesUpdated now store := by
  rintro ⟨store', fees, hestimate⟩
  simp only [estimateRecoveryFees, hremoved, Trapping.ok_bind, buildWithID, hselected,
    Trapping.unwrap_some, h, Trapping.error_bind] at hestimate
  cases hestimate

/-- Once the data is pulled, only building it can stop the estimation. -/
theorem estimates_iff_buildData (hrelay : SendsGas relay) {builder : RecoveryTransactionBuilder}
    (h : pullData services removed wallet now balancesUpdated = .ok (some builder))
    (hsender : builder.transaction.sender = some address) (hwf : address.WellFormed) :
    Estimates services relay balancesUpdated now store ↔
      ∃ built, builder.buildData services now = .ok built := by
  simp only [Estimates, estimateRecoveryFees, hremoved, Trapping.ok_bind, buildWithID, hselected,
    Trapping.unwrap_some, h]
  cases hbuilt : builder.buildData services now with
  | error trap => simp
  | ok built =>
      refine iff_of_true ?_ ⟨built, rfl⟩
      simp only [Trapping.ok_bind]
      cases hwallet : removed.wallets.find built.wallet.id with
      | none => exact ⟨removed, [], rfl⟩
      | some saved =>
          have hfind : (built.save removed).transactions.find built.transaction.id =
              some (Transactions.persisted built.transaction) := by
            simp only [RecoveryTransactionBuilder.save, hwallet]
            rw [Transactions.store, ← Transactions.id_persisted built.transaction]
            exact Table.find_save_self
          have hrequestable := requestable_persisted
            ((buildData_sameBinding hbuilt).sender.trans hsender) (operation_buildData hbuilt)
          obtain ⟨fees, hfees⟩ : ∃ fees, estimatedFees services relay (built.save removed)
              built.transaction.id = .ok fees :=
            estimatedFees_ok hrelay hfind hrequestable hwf
          refine ⟨built.save removed, fees, ?_⟩
          simp only [Trapping.pure_eq_ok, Trapping.ok_bind, hfees]

end Removed

section Reported

variable (hdraft : AcceptedDraft store wallet address owners)

include hdraft

theorem AcceptedDraft.estimates_of_owners_none
    (howners : getOwners services address = .ok none) :
    Estimates services relay balancesUpdated now store := by
  obtain ⟨removed, hremoved, hselected⟩ := hdraft.removeRecoveryTransaction_ok
  obtain ⟨tx, htx, -⟩ := hdraft.newTransaction_ok services removed now
  apply estimates_of_none hremoved hselected
  simp only [pullData, hdraft.address_eq, Trapping.unwrap_some, Trapping.ok_bind, htx, howners,
    Trapping.pure_eq_ok]

theorem AcceptedDraft.not_estimates_of_owners_error {trap : Trap}
    (howners : getOwners services address = .error trap) :
    ¬ Estimates services relay balancesUpdated now store := by
  obtain ⟨removed, hremoved, hselected⟩ := hdraft.removeRecoveryTransaction_ok
  obtain ⟨tx, htx, -⟩ := hdraft.newTransaction_ok services removed now
  have hpull : pullData services removed wallet now balancesUpdated = .error trap := by
    simp only [pullData, hdraft.address_eq, Trapping.unwrap_some, Trapping.ok_bind, htx, howners,
      Trapping.error_bind]
  exact not_estimates_of_error hremoved hselected hpull

variable {addresses : List Address} (howners : getOwners services address = .ok (some addresses))

include howners

theorem AcceptedDraft.estimates_of_threshold_none
    (hthreshold : getThreshold services address = .ok none) :
    Estimates services relay balancesUpdated now store := by
  obtain ⟨removed, hremoved, hselected⟩ := hdraft.removeRecoveryTransaction_ok
  obtain ⟨tx, htx, -⟩ := hdraft.newTransaction_ok services removed now
  apply estimates_of_none hremoved hselected
  simp only [pullData, hdraft.address_eq, Trapping.unwrap_some, Trapping.ok_bind, htx, howners,
    hthreshold, Trapping.pure_eq_ok]

theorem AcceptedDraft.not_estimates_of_threshold_error {trap : Trap}
    (hthreshold : getThreshold services address = .error trap) :
    ¬ Estimates services relay balancesUpdated now store := by
  obtain ⟨removed, hremoved, hselected⟩ := hdraft.removeRecoveryTransaction_ok
  obtain ⟨tx, htx, -⟩ := hdraft.newTransaction_ok services removed now
  have hpull : pullData services removed wallet now balancesUpdated = .error trap := by
    simp only [pullData, hdraft.address_eq, Trapping.unwrap_some, Trapping.ok_bind, htx, howners,
      hthreshold, Trapping.error_bind]
  exact not_estimates_of_error hremoved hselected hpull

end Reported

/-- A complete report of numbers that fit. -/
theorem AcceptedDraft.estimates_iff_of_answers
    (hdraft : AcceptedDraft store wallet address owners)
    (hselectors : OwnerSelectors services.kit)
    (hcontract : services.metadata.multiSendContractAddress.WellFormed)
    (hrelay : SendsGas relay) (hanswers : Answers services address manager)
    (hlength : manager.owners.length * 32 < 2 ^ 63)
    (hthreshold : manager.threshold.toNat < 2 ^ 63) :
    Estimates services relay balancesUpdated now store ↔
      (balancesUpdated = true → Recoverable wallet manager) := by
  obtain ⟨removed, hremoved, hselected⟩ := hdraft.removeRecoveryTransaction_ok
  obtain ⟨builder, hpull, hsender, hscheme⟩ : ∃ builder,
      pullData services removed wallet now true = .ok (some builder) ∧
      builder.transaction.sender = some address ∧
      (builder.isSupportedScheme = true ↔ Recoverable wallet manager) :=
    hdraft.pullData_ok hanswers hlength hthreshold removed
  cases balancesUpdated with
  | false =>
      refine iff_of_true (estimates_of_none hremoved hselected ?_) (by simp)
      exact pullData_of_not_updated hpull
  | true =>
      rw [estimates_iff_buildData hremoved hselected hrelay hpull hsender
        hdraft.address_wellFormed, hdraft.buildData_ok_iff hselectors hcontract hanswers hpull
        hscheme]
      simp

/-- The fees of an accepted draft can be estimated exactly if what the chain reports fits the
program's integers and describes, as soon as it is complete, a scheme that can be recovered. -/
theorem estimates_iff_estimable (hselectors : OwnerSelectors services.kit)
    (hcontract : services.metadata.multiSendContractAddress.WellFormed)
    (hrelay : SendsGas relay) (hdraft : AcceptedDraft store wallet address owners)
    (hreports : Reports services address manager) (balancesUpdated : Bool) (now : Date) :
    Estimates services relay balancesUpdated now store ↔
      Estimable services wallet address manager balancesUpdated := by
  unfold Estimable
  rcases hreports.getOwners with hread | hread
  · refine iff_of_true (hdraft.estimates_of_owners_none ?_) (fun h => absurd hread h)
    simp only [getOwners, hread, Trapping.pure_eq_ok]
  have howners := getOwners_of_call hread
  by_cases hlength : manager.owners.length * 32 < 2 ^ 63
  · rw [if_pos hlength] at howners
    simp only [hread, ne_eq, reduceCtorEq, not_false_eq_true, forall_const, hlength, true_and]
    rcases hreports.getThreshold with hcount | hcount
    · refine iff_of_true (hdraft.estimates_of_threshold_none howners ?_) (by simp [hcount])
      simp only [getThreshold, hcount, Trapping.pure_eq_ok]
    have hthreshold := getThreshold_of_call hcount
    simp only [hcount, reduceCtorEq, not_false_eq_true, forall_const]
    by_cases hsmall : manager.threshold.toNat < 2 ^ 63
    · rw [hdraft.estimates_iff_of_answers hselectors hcontract hrelay ⟨hread, hcount⟩ hlength
        hsmall]
      simp only [hsmall, true_and]
    · rw [Trapping.toInt, if_neg hsmall] at hthreshold
      exact iff_of_false (hdraft.not_estimates_of_threshold_error howners hthreshold)
        (fun h => hsmall h.1)
  · rw [if_neg hlength] at howners
    refine iff_of_false (hdraft.not_estimates_of_owners_error howners) (fun h => hlength (h ?_).1)
    rw [hread]
    exact Option.some_ne_none _

section Example

/-- A relay with a price in Ether. -/
def etherRelay (_ : MultiTokenEstimateTransactionRequest) : Option MultiTokenEstimateResponse :=
  some ⟨some 21000, some 0, [⟨Token.Ether.id, 10, 4000⟩]⟩

theorem etherRelay_sendsGas : SendsGas etherRelay := by
  intro request response hresponse _
  cases hresponse
  exact ⟨rfl, rfl⟩

/-- A store with a recovery draft whose phrase was accepted. -/
def acceptedStore : Store :=
  { Store.ofWallets ⟨[recoveryWallet deviceAddress paperAddress derivedAddress none],
      List.nodup_singleton _⟩ Table.empty with
    portfolio := some ⟨["wallet"], some "wallet"⟩ }

theorem acceptedStore_draft : AcceptedDraft acceptedStore
    (recoveryWallet deviceAddress paperAddress derivedAddress none) safe
    (recoveryOwners deviceAddress paperAddress derivedAddress none) where
  selected := rfl
  address_eq := rfl
  address_wellFormed := (Address.ofChain_spec _).1
  feeToken_wellFormed := by simp [recoveryWallet]
  ofWallet := ofWallet_recoveryWallet

theorem reports_answering (manager : OwnerManager) :
    Reports (answering recoveryKit recoveryMetadata safe manager) safe manager :=
  ⟨.inr answers_answering.getOwners, .inr answers_answering.getThreshold⟩

/-- The contract with a lost device is estimated. -/
theorem estimates_lostManager :
    Estimates (answering recoveryKit recoveryMetadata safe lostManager) etherRelay true 0
      acceptedStore :=
  (estimates_iff_estimable recoveryKit_selectors recoveryMetadata_wellFormed etherRelay_sendsGas
    acceptedStore_draft (reports_answering lostManager) true 0).mpr
      fun _ => ⟨by decide, fun _ => ⟨by decide, fun _ => by unfold Recoverable; decide⟩⟩

/-- The contract with a lost device, after its threshold was raised. -/
def raisedManager : OwnerManager := { lostManager with threshold := 2 }

/-- The phrase was accepted for one confirmation of three. With two of three the estimation
stops the program, although the owners of the phrase are still there. -/
theorem raisedThreshold_stops :
    AcceptedDraft acceptedStore (recoveryWallet deviceAddress paperAddress derivedAddress none) safe
        (recoveryOwners deviceAddress paperAddress derivedAddress none) ∧
      Reports (answering recoveryKit recoveryMetadata safe raisedManager) safe raisedManager ∧
      paperAddress ∈ raisedManager.owners ∧ derivedAddress ∈ raisedManager.owners ∧
      SendsGas etherRelay ∧
      ¬ Estimates (answering recoveryKit recoveryMetadata safe raisedManager) etherRelay true 0
        acceptedStore := by
  refine ⟨acceptedStore_draft, reports_answering raisedManager, by decide, by decide,
    etherRelay_sendsGas, ?_⟩
  rw [acceptedStore_draft.estimates_iff_of_answers recoveryKit_selectors
    recoveryMetadata_wellFormed etherRelay_sendsGas answers_answering (by decide) (by decide)]
  intro h
  have hscheme := (h rfl).1
  revert hscheme
  decide

end Example

end RecoveryDomainService

end SafeWallet
