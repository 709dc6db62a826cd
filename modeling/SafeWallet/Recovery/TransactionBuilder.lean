/-
# Building the recovery transaction

`RecoveryTransactionBuilder` reads the owners of the contract next to the owners of
the local wallet, and plans the calls that replace the owners outside the recovery
phrase by this device and the authenticator. The scheme before and the scheme after
decide which of four plans is made; each call is planned on the program's copy of
the owner list as the calls before it leave it.
-/

import SafeWallet.Recovery.OwnerLinkedList

namespace SafeWallet

open SafeOwnerManagerContractProxy

/-- `WalletScheme`. -/
structure WalletScheme where
  confirmations : ℕ
  owners : ℕ
  deriving DecidableEq, Repr

namespace WalletScheme

/-- `withoutExtension`. -/
def withoutExtension : WalletScheme := ⟨1, 3⟩

/-- `withExtension`. -/
def withExtension : WalletScheme := ⟨2, 4⟩

@[simp]
theorem withExtension_ne : withExtension ≠ withoutExtension := by decide

@[simp]
theorem withoutExtension_ne : withoutExtension ≠ withExtension := by decide

end WalletScheme

/-- `RecoveryTransactionBuilder`, after the data was pulled. -/
structure RecoveryTransactionBuilder where
  wallet : Wallet
  walletAddress : Address
  oldScheme : WalletScheme
  newScheme : WalletScheme
  ownerList : OwnerLinkedList
  readonlyOwnerAddresses : List String
  modifiableOwners : List Owner
  transaction : Transaction
  deriving DecidableEq, Repr

namespace RecoveryTransactionBuilder

/-! ## Pulling the data -/

/-- `newTransaction()` with the sender and the amount set. -/
def newTransaction (services : Services) (store : Store) (wallet : Wallet) (now : Date) :
    Trapping Transaction := do
  let token := wallet.feePaymentTokenAddress.getD Token.Ether.address
  let accountID ← AccountID.make token.value wallet.id
  return { Transaction.new (store.nextTransactionID services) .walletRecovery accountID now with
    sender := wallet.address, amount := some (TokenAmount.ether 0), updatedDate := some now }

/-- `hasAuthenticator`. -/
def hasAuthenticator (wallet : Wallet) : Bool :=
  (wallet.owner .browserExtension).isSome ∨ (wallet.owner .keycard).isSome

/-- The owners found on the contract. -/
def remoteOwners (wallet : Wallet) : List Owner :=
  wallet.owners.filter fun owner => owner.role = .unknown

/-- The owners the program itself put there. -/
def localOwners (wallet : Wallet) : List Owner :=
  wallet.owners.filter fun owner => owner.role ≠ .unknown

/-- `oldWalletScheme()`. -/
def oldWalletScheme (wallet : Wallet) : WalletScheme :=
  ⟨wallet.confirmationCount, (remoteOwners wallet).length⟩

/-- `newWalletScheme()`. -/
def newWalletScheme (wallet : Wallet) : WalletScheme :=
  ⟨if hasAuthenticator wallet then 2 else 1, (localOwners wallet).length⟩

/-- `ownerLinkedList()`. -/
def ownerLinkedList (wallet : Wallet) : Trapping OwnerLinkedList :=
  ((remoteOwners wallet).map Owner.address).foldlM OwnerLinkedList.add OwnerLinkedList.empty

/-- `readonlyAddresses()`: the owners of the recovery phrase, in lower case. -/
def readonlyAddresses (wallet : Wallet) : List String :=
  (wallet.owners.filter fun owner => owner.role = .paperWallet ∨ owner.role = .paperWalletDerived).map
    fun owner => owner.address.normalized.value

/-- `mutableOwners()`. -/
def mutableOwners (wallet : Wallet) : List Owner :=
  wallet.owners.filter fun owner => owner.role = .unknown ∧
    owner.address.normalized.value ∉ readonlyAddresses wallet

/-- The wallet with the owners and the threshold of the contract. -/
def withRemote (wallet : Wallet) (owners : List Address) (threshold : ℕ) : Wallet :=
  let wallet := owners.foldl (fun wallet a => wallet.addOwner ⟨a, .unknown⟩)
    (wallet.removeOwner .unknown)
  { wallet with confirmationCount := threshold }

/-- `RecoveryTransactionBuilder()` and `pullData()`. The last query only refreshes
the account balances; whether it succeeds is all that matters here. -/
def pullData (services : Services) (store : Store) (wallet : Wallet) (now : Date)
    (balancesUpdated : Bool) : Trapping (Option RecoveryTransactionBuilder) := do
  let walletAddress ← Trapping.unwrap wallet.address
  let transaction ← newTransaction services store wallet now
  match ← getOwners services walletAddress with
  | none => return none
  | some owners =>
    match ← getThreshold services walletAddress with
    | none => return none
    | some threshold =>
      let wallet := withRemote wallet owners threshold
      let ownerList ← ownerLinkedList wallet
      if balancesUpdated then
        return some {
          wallet := wallet
          walletAddress := walletAddress
          oldScheme := oldWalletScheme wallet
          newScheme := newWalletScheme wallet
          ownerList := ownerList
          readonlyOwnerAddresses := readonlyAddresses wallet
          modifiableOwners := mutableOwners wallet
          transaction := transaction }
      else return none

variable (builder : RecoveryTransactionBuilder)

/-- `isSupportedSafeOwners()`. -/
def isSupportedSafeOwners : Bool := builder.modifiableOwners.length ∈ [1, 2]

/-- `supportedSchemes`. -/
def supportedSchemes : List WalletScheme := [.withoutExtension, .withExtension]

/-- `isSupportedScheme()`. -/
def isSupportedScheme : Bool :=
  builder.oldScheme ∈ supportedSchemes ∧ builder.newScheme ∈ supportedSchemes

/-! ## Planning the calls -/

section Plan

variable (services : Services)

/-- `swapOwnerData(role:)`. Nothing is called if the owner is already there. -/
def swapOwnerData (role : OwnerRole) : Trapping (RecoveryTransactionBuilder × Data) :=
  match builder.modifiableOwners with
  | [] => .error .removeFirst
  | ownerToReplace :: others => do
    let builder := { builder with modifiableOwners := others }
    let before ← builder.ownerList.addressBefore ownerToReplace.address
    let newOwner ← Trapping.unwrap (builder.wallet.owner role)
    if newOwner.address.normalized = ownerToReplace.address.normalized then return (builder, [])
    else
      return ({ builder with
          ownerList := builder.ownerList.replace ownerToReplace.address newOwner.address },
        swapOwner services.kit before ownerToReplace.address newOwner.address)

/-- `addOwnerData(role:)`. -/
def addOwnerData (role : OwnerRole) : Trapping (RecoveryTransactionBuilder × Data) := do
  let newOwner ← Trapping.unwrap (builder.wallet.owner role)
  if builder.ownerList.contains newOwner.address then return (builder, [])
  else
    let data := addOwner services.kit newOwner.address builder.newScheme.confirmations
    let ownerList ← builder.ownerList.add newOwner.address
    return ({ builder with
        ownerList := ownerList
        wallet := { builder.wallet with
          confirmationCount := builder.newScheme.confirmations } }, data)

/-- `removeOwnerData()`. -/
def removeOwnerData : Trapping (RecoveryTransactionBuilder × Data) :=
  match builder.modifiableOwners with
  | [] => .error .removeFirst
  | ownerToRemove :: others => do
    let builder := { builder with modifiableOwners := others }
    let before ← builder.ownerList.addressBefore ownerToRemove.address
    let data := removeOwner services.kit before ownerToRemove.address
      builder.newScheme.confirmations
    return ({ builder with
        ownerList := builder.ownerList.remove ownerToRemove.address
        wallet := { builder.wallet with
          confirmationCount := builder.newScheme.confirmations } }, data)

/-- `withFirstExistingOwner(of: [.browserExtension, .keycard], execute:)`. -/
def withAuthenticator
    (execute : RecoveryTransactionBuilder → OwnerRole →
      Trapping (RecoveryTransactionBuilder × Data)) : Trapping (RecoveryTransactionBuilder × Data) :=
  match [OwnerRole.browserExtension, .keycard].find?
      fun role => (builder.wallet.owner role).isSome with
  | some role => execute builder role
  | none => return (builder, [])

/-- `multiSendData(_:)`. -/
def multiSendData (calls : List Data) : Data :=
  MultiSend.multiSend services.kit services.metadata.multiSendContractAddress
    services.metadata.multiSend Address.zero
    (calls.map fun data => ⟨.call, builder.walletAddress, 0, data⟩)

/-- `buildTransactionData(_:)`. A batch is only made of two calls or more. -/
def buildTransactionData (data : List Data) (now : Date) : Trapping RecoveryTransactionBuilder :=
  match data.filter (· ≠ []) with
  | [] => return { builder with transaction := { builder.transaction with
      recipient := some builder.walletAddress, operation := some .call, data := none,
      updatedDate := some now } }
  | [call] => return { builder with transaction := { builder.transaction with
      recipient := some builder.walletAddress, operation := some .call, data := some call,
      updatedDate := some now } }
  | calls => do
    let address ← Trapping.unwrap
      (services.kit.formatted services.metadata.multiSendContractAddress.value)
    return { builder with transaction := { builder.transaction with
      recipient := some address, operation := some .delegateCall,
      data := some (builder.multiSendData services calls), updatedDate := some now } }

/-- The plan for each pair of schemes: `buildNoExtensionToNoExtensionData()` and its
three siblings. -/
def plannedCalls : Trapping (RecoveryTransactionBuilder × List Data) := do
  if builder.oldScheme = .withoutExtension ∧ builder.newScheme = .withoutExtension then
    let (builder, swap) ← builder.swapOwnerData services .thisDevice
    return (builder, [swap])
  else if builder.oldScheme = .withoutExtension ∧ builder.newScheme = .withExtension then
    let (builder, swap) ← builder.swapOwnerData services .thisDevice
    let (builder, add) ← builder.withAuthenticator fun builder => builder.addOwnerData services
    return (builder, [swap, add])
  else if builder.oldScheme = .withExtension ∧ builder.newScheme = .withoutExtension then
    let (builder, swap) ← builder.swapOwnerData services .thisDevice
    let (builder, remove) ← builder.removeOwnerData services
    return (builder, [swap, remove])
  else if builder.oldScheme = .withExtension ∧ builder.newScheme = .withExtension then
    let (builder, swap) ← builder.swapOwnerData services .thisDevice
    let (builder, swap') ← builder.withAuthenticator fun builder => builder.swapOwnerData services
    return (builder, [swap, swap'])
  else .error .precondition

/-- `buildData()`. -/
def buildData (now : Date) : Trapping RecoveryTransactionBuilder := do
  let (builder, calls) ← builder.plannedCalls services
  builder.buildTransactionData services calls now

end Plan

/-! ## What was pulled -/

section Pulled

variable {services : Services} {store : Store} {wallet : Wallet} {now : Date}
  {balancesUpdated : Bool} {builder : RecoveryTransactionBuilder}

theorem foldl_addOwner (addresses : List Address) (wallet : Wallet) :
    addresses.foldl (fun wallet a => wallet.addOwner ⟨a, .unknown⟩) wallet =
      { wallet with owners := wallet.owners ++ addresses.map fun a => ⟨a, .unknown⟩ } := by
  induction addresses generalizing wallet with
  | nil => simp
  | cons first rest ih =>
      rw [List.foldl_cons, ih]
      simp [Wallet.addOwner]

/-- The contract's owners stand behind the local ones. -/
theorem withRemote_eq (wallet : Wallet) (addresses : List Address) (threshold : ℕ) :
    withRemote wallet addresses threshold = { wallet with
      owners := localOwners wallet ++ addresses.map fun a => ⟨a, .unknown⟩
      confirmationCount := threshold } := by
  rw [withRemote, foldl_addOwner]
  rfl

variable {addresses : List Address} {threshold : ℕ}

theorem remoteOwners_withRemote : remoteOwners (withRemote wallet addresses threshold) =
    addresses.map fun a => ⟨a, .unknown⟩ := by
  rw [withRemote_eq, remoteOwners, List.filter_append]
  have hlocal : (localOwners wallet).filter (fun owner => owner.role = .unknown) = [] := by
    rw [List.filter_eq_nil_iff]
    intro owner hmem
    simpa [localOwners] using (List.mem_filter.mp hmem).2
  rw [hlocal, List.nil_append, List.filter_eq_self]
  simp

theorem filter_withRemote {p : Owner → Bool} (hp : ∀ owner, p owner → owner.role ≠ .unknown) :
    (withRemote wallet addresses threshold).owners.filter p = wallet.owners.filter p := by
  rw [withRemote_eq, List.filter_append, localOwners, List.filter_filter]
  have hremote : (addresses.map fun a => (⟨a, .unknown⟩ : Owner)).filter p = [] := by
    rw [List.filter_eq_nil_iff]
    intro owner hmem howner
    obtain ⟨a, -, rfl⟩ := List.mem_map.mp hmem
    exact hp _ howner rfl
  rw [hremote, List.append_nil]
  apply List.filter_congr
  intro owner _
  cases h : p owner with
  | false => simp
  | true => simpa using hp owner h

/-- The local owners are found as before. -/
theorem owner_withRemote {role : OwnerRole} (hrole : role ≠ .unknown) :
    (withRemote wallet addresses threshold).owner role = wallet.owner role := by
  rw [Wallet.owner, Wallet.owner, ← List.head?_filter, ← List.head?_filter, filter_withRemote]
  intro owner howner
  simp only [decide_eq_true_eq] at howner
  exact howner ▸ hrole

theorem readonlyAddresses_withRemote :
    readonlyAddresses (withRemote wallet addresses threshold) = readonlyAddresses wallet := by
  rw [readonlyAddresses, filter_withRemote, readonlyAddresses]
  intro owner howner
  simp only [decide_eq_true_eq] at howner
  rcases howner with h | h <;> simp [h]

theorem mutableOwners_withRemote : mutableOwners (withRemote wallet addresses threshold) =
    (addresses.filter fun a => a.normalized.value ∉ readonlyAddresses wallet).map
      fun a => ⟨a, .unknown⟩ := by
  have hsplit : mutableOwners (withRemote wallet addresses threshold) =
      (remoteOwners (withRemote wallet addresses threshold)).filter fun owner =>
        owner.address.normalized.value ∉ readonlyAddresses wallet := by
    rw [mutableOwners, readonlyAddresses_withRemote, remoteOwners, List.filter_filter]
    apply List.filter_congr
    intro owner _
    simp [Bool.and_comm]
  rw [hsplit, remoteOwners_withRemote, List.filter_map]
  rfl

/-- What a successful `pullData()` read and kept. -/
theorem pullData_spec (h : pullData services store wallet now balancesUpdated = .ok (some builder)) :
    ∃ walletAddress transaction owners threshold ownerList,
      wallet.address = some walletAddress ∧
      getOwners services walletAddress = .ok (some owners) ∧
      getThreshold services walletAddress = .ok (some threshold) ∧
      ownerLinkedList (withRemote wallet owners threshold) = .ok ownerList ∧
      newTransaction services store wallet now = .ok transaction ∧
      builder = {
        wallet := withRemote wallet owners threshold
        walletAddress := walletAddress
        oldScheme := oldWalletScheme (withRemote wallet owners threshold)
        newScheme := newWalletScheme (withRemote wallet owners threshold)
        ownerList := ownerList
        readonlyOwnerAddresses := readonlyAddresses (withRemote wallet owners threshold)
        modifiableOwners := mutableOwners (withRemote wallet owners threshold)
        transaction := transaction } := by
  simp only [pullData, Trapping.bind_eq_ok_iff, Trapping.unwrap_eq_ok_iff] at h
  obtain ⟨walletAddress, haddress, transaction, htransaction, owners, howners, h⟩ := h
  cases owners with
  | none => cases h
  | some owners =>
      simp only [Trapping.bind_eq_ok_iff] at h
      obtain ⟨threshold, hthreshold, h⟩ := h
      cases threshold with
      | none => cases h
      | some threshold =>
          simp only [Trapping.bind_eq_ok_iff] at h
          obtain ⟨ownerList, hlist, h⟩ := h
          split at h
          · cases h
            exact ⟨walletAddress, transaction, owners, threshold, ownerList, haddress, howners,
              hthreshold, hlist, htransaction, rfl⟩
          · cases h

/-- The converse: what is read is what is kept. -/
theorem pullData_eq {walletAddress : Address} {transaction : Transaction} {owners : List Address}
    {threshold : ℕ} {ownerList : OwnerLinkedList} (haddress : wallet.address = some walletAddress)
    (htransaction : newTransaction services store wallet now = .ok transaction)
    (howners : getOwners services walletAddress = .ok (some owners))
    (hthreshold : getThreshold services walletAddress = .ok (some threshold))
    (hlist : ownerLinkedList (withRemote wallet owners threshold) = .ok ownerList) :
    pullData services store wallet now true = .ok (some {
        wallet := withRemote wallet owners threshold
        walletAddress := walletAddress
        oldScheme := oldWalletScheme (withRemote wallet owners threshold)
        newScheme := newWalletScheme (withRemote wallet owners threshold)
        ownerList := ownerList
        readonlyOwnerAddresses := readonlyAddresses (withRemote wallet owners threshold)
        modifiableOwners := mutableOwners (withRemote wallet owners threshold)
        transaction := transaction }) := by
  simp only [pullData, haddress, Trapping.unwrap_some, Trapping.ok_bind, htransaction, howners,
    hthreshold, hlist, ↓reduceIte, Trapping.pure_eq_ok]

end Pulled

end RecoveryTransactionBuilder

end SafeWallet
