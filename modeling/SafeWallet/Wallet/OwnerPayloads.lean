/-
# Payloads that change owners

Four services write the call data of a transaction that changes the owners of the
selected wallet: one replaces the authenticator, one connects and one disconnects it,
and one replaces the recovery phrase. They ask the contract for its owners, copy them
into a linked list and look the neighbour of the owner they touch up in it. Before the
new owner is known, the data is made up from the same list, so that fees can be
estimated.

Each service is written down as the source has it. What a call needs to succeed is a
link of the list as the calls before it leave it; the lemmas follow a sequence of
`swapOwner` calls on the copy and on the contract.
-/

import SafeWallet.Recovery.RecoveredOwners
import SafeWallet.Wallet.OwnerServices

namespace SafeWallet

open SafeOwnerManagerContractProxy

namespace Address

/-- `Address.two`. -/
def two : Address := ⟨"0x0000000000000000000000000000000000000002"⟩

/-- `Address.three`. -/
def three : Address := ⟨"0x0000000000000000000000000000000000000003"⟩

end Address

/-- `TransactionRepository.save(_:)`. -/
def Store.saveTransaction (store : Store) (tx : Transaction) : Store :=
  { store with transactions := store.transactions.store tx }

/-! ## Replacing the authenticator -/

namespace ReplaceTwoFADomainService

/-- `transaction(_:)`. -/
def transaction (store : Store) (id : TransactionID) : Trapping Transaction :=
  match store.transactions.find id with
  | some tx => return tx
  | none => .error .precondition

/-- `requiredWallet` and the address its contract proxy is made with. -/
def requiredWallet (store : Store) : Trapping (Wallet × Address) := do
  let wallet ← Trapping.unwrap store.selectedWallet
  let address ← Trapping.unwrap wallet.address
  return (wallet, address)

variable (services : Services)

/-- `remoteOwnersList()`. -/
def remoteOwnersList (contract : Address) : Trapping (Option OwnerLinkedList) := do
  match ← getOwners services contract with
  | none => return none
  | some [] => return none
  | some remoteOwners =>
    let linkedList ← remoteOwners.foldlM OwnerLinkedList.add OwnerLinkedList.empty
    return some linkedList

/-- The neighbour of the only owner of a list made up for an estimation. -/
def neighbourOfZero : Trapping Address := do
  let remoteList ← OwnerLinkedList.empty.add .zero
  remoteList.addressBefore .zero

/-- `dummyTransactionData()`. -/
def dummyTransactionData (walletAddress : Address) : Trapping Data := do
  match (← remoteOwnersList services walletAddress).bind fun linkedList =>
      linkedList.firstAddress.map fun toSwap => (linkedList, toSwap) with
  | some (linkedList, toSwap) =>
    let prevOwner ← linkedList.addressBefore toSwap
    return swapOwner services.kit prevOwner toSwap walletAddress
  | none =>
    let prevOwner ← neighbourOfZero
    return swapOwner services.kit prevOwner .zero .zero

/-- `addDummyData(to:)`. -/
def addDummyData (store : Store) (id : TransactionID) (now : Date) : Trapping Store := do
  let tx ← transaction store id
  let (wallet, walletAddress) ← requiredWallet store
  let data ← dummyTransactionData services walletAddress
  return store.saveTransaction { tx with
    recipient := wallet.address, operation := some .call, data := some data,
    updatedDate := some now }

/-- `stepBackToDraft(_:)`. -/
def stepBackToDraft (store : Store) (id : TransactionID) : Trapping Store := do
  let tx ← Trapping.unwrap (store.transactions.find id)
  if tx.status = .signing then do
    let tx ← tx.stepBack
    return store.saveTransaction tx
  else return store

/-- `update(transaction:newOwnerAddress:)`, with the payload of the service. -/
def updateWith (realTransactionData : Store → Trapping (Option Data)) (store : Store)
    (id : TransactionID) (now : Date) : Trapping Store := do
  let store ← stepBackToDraft store id
  let tx ← transaction store id
  let data ← realTransactionData store
  return store.saveTransaction { tx with data := data, updatedDate := some now }

/-- `realTransactionData(with:)`. -/
def realTransactionData (newAddress : Address) (store : Store) : Trapping (Option Data) := do
  let wallet ← Trapping.unwrap store.selectedWallet
  let owner ← Trapping.unwrap wallet.twoFAOwner
  let (_, walletAddress) ← requiredWallet store
  match ← remoteOwnersList services walletAddress with
  | none => return none
  | some linkedList =>
    if linkedList.contains owner.address then
      let prevOwner ← linkedList.addressBefore owner.address
      return some (swapOwner services.kit prevOwner owner.address newAddress)
    else return none

/-- `update(transaction:newOwnerAddress:)`. -/
def update (newAddress : Address) : Store → TransactionID → Date → Trapping Store :=
  updateWith (realTransactionData services newAddress)

end ReplaceTwoFADomainService

/-! ## Connecting and disconnecting -/

namespace ConnectTwoFADomainService

open ReplaceTwoFADomainService

variable (services : Services)

/-- `realTransactionData(with:)`. -/
def realTransactionData (newAddress : Address) (store : Store) : Trapping (Option Data) := do
  let _ ← requiredWallet store
  return some (addOwner services.kit newAddress 2)

/-- `update(transaction:newOwnerAddress:)`. -/
def update (newAddress : Address) : Store → TransactionID → Date → Trapping Store :=
  updateWith (realTransactionData services newAddress)

end ConnectTwoFADomainService

namespace DisconnectTwoFADomainService

open ReplaceTwoFADomainService

variable (services : Services)

/-- `dummyTransactionData()`. -/
def dummyTransactionData (wallet : Wallet) (walletAddress : Address) : Trapping Data := do
  match (← remoteOwnersList services walletAddress).bind fun linkedList =>
      (wallet.twoFAOwner.filter fun owner => linkedList.contains owner.address).map
        fun owner => (linkedList, owner.address) with
  | some (linkedList, toDelete) =>
    let prevOwner ← linkedList.addressBefore toDelete
    return removeOwner services.kit prevOwner toDelete 1
  | none =>
    let prevOwner ← neighbourOfZero
    return removeOwner services.kit prevOwner .zero 1

/-- `addDummyData(to:)`. -/
def addDummyData (store : Store) (id : TransactionID) (now : Date) : Trapping Store := do
  let tx ← transaction store id
  let (wallet, walletAddress) ← requiredWallet store
  let data ← dummyTransactionData services wallet walletAddress
  return store.saveTransaction { tx with
    recipient := wallet.address, operation := some .call, data := some data,
    updatedDate := some now }

/-- `realTransactionData()`. -/
def realTransactionData (store : Store) : Trapping (Option Data) := do
  match store.selectedWallet.bind Wallet.twoFAOwner with
  | none => return none
  | some owner =>
    let (_, walletAddress) ← requiredWallet store
    match ← remoteOwnersList services walletAddress with
    | none => return none
    | some linkedList =>
      if linkedList.contains owner.address then
        let prevOwner ← linkedList.addressBefore owner.address
        return some (removeOwner services.kit prevOwner owner.address 1)
      else return none

/-- `update(transaction:)`. -/
def update : Store → TransactionID → Date → Trapping Store :=
  updateWith (realTransactionData services)

end DisconnectTwoFADomainService

/-! ## Replacing the recovery phrase -/

/-- The order in which the elements of a set are enumerated. -/
structure Enumeration where
  array : List Address → List Address
  perm : ∀ set, (array set).Perm set

namespace ReplaceRecoveryPhraseDomainService

open ReplaceTwoFADomainService

variable (services : Services)

/-- The loop of `transactionData(list:old:new:)`. -/
def swapCalls (kit : EthereumKit) : OwnerLinkedList → List (Address × Address) →
    Trapping (List Data)
  | _, [] => return []
  | list, (old, new) :: rest => do
    let prevOwner ← list.addressBefore old
    let calls ← swapCalls kit (list.replace old new) rest
    return swapOwner kit prevOwner old new :: calls

/-- `MultiSendContractProxy().multiSend(_:)` of calls to the wallet. -/
def batch (walletAddress : Address) (calls : List Data) : Data :=
  MultiSend.multiSend services.kit services.metadata.multiSendContractAddress
    services.metadata.multiSend Address.zero
    (calls.map fun data => ⟨.call, walletAddress, 0, data⟩)

/-- `transactionData(list:old:new:)`. -/
def transactionData (walletAddress : Address) (list : OwnerLinkedList) (old new : List Address) :
    Trapping (Option Data) :=
  if old.length = new.length then do
    let calls ← swapCalls services.kit list (old.zip new)
    return some (batch services walletAddress calls)
  else return none

/-- The list and the owners the dummy data is made from: the first two of the contract, or two
that are made up. -/
def dummyOwners (walletAddress : Address) : Trapping (OwnerLinkedList × List Address) := do
  match (← remoteOwnersList services walletAddress).bind fun remoteList =>
      remoteList.firstAddress.map fun remoteAddress1 => (remoteList, remoteAddress1) with
  | some (remoteList, remoteAddress1) =>
    match ← remoteList.addressAfter remoteAddress1 with
    | some remoteAddress2 => return (remoteList, [remoteAddress1, remoteAddress2])
    | none => madeUp
  | none => madeUp
where
  /-- The list of the two owners that are made up. -/
  madeUp : Trapping (OwnerLinkedList × List Address) := do
    let list ← OwnerLinkedList.empty.add .two
    let list ← list.add .three
    return (list, [.two, .three])

/-- `dummyTransactionData()`. -/
def dummyTransactionData (walletAddress : Address) : Trapping Data := do
  let (list, old) ← dummyOwners services walletAddress
  let data ← transactionData services walletAddress list old [.two, .three]
  Trapping.unwrap data

/-- `addDummyData(to:)`. -/
def addDummyData (store : Store) (id : TransactionID) (now : Date) : Trapping Store := do
  let tx ← transaction store id
  let formattedRecipient ← Trapping.unwrap
    (services.kit.formatted services.metadata.multiSendContractAddress.value)
  let (_, walletAddress) ← requiredWallet store
  let data ← dummyTransactionData services walletAddress
  return store.saveTransaction { tx with
    recipient := some formattedRecipient, operation := some .delegateCall, data := some data,
    updatedDate := some now }

variable (enumeration : Enumeration)
  (deriveExternallyOwnedAccount : ExternallyOwnedAccount → ExternallyOwnedAccount)

/-- The owners that are not replaced: this device and the authenticators, in lower case. -/
def readOnlyOwners (wallet : Wallet) : List Address :=
  ([wallet.owner .thisDevice, wallet.owner .browserExtension,
    wallet.owner .keycard].filterMap id).map fun owner => owner.address.normalized

/-- `realTransactionData(with:)`. -/
def realTransactionData (newAddress : Address) (store : Store) : Trapping (Option Data) := do
  let (wallet, walletAddress) ← requiredWallet store
  match ← remoteOwnersList services walletAddress with
  | none => return none
  | some list =>
    let modifiableOwners := enumeration.array
      (list.contents.dedup.filter fun owner => owner ∉ readOnlyOwners wallet)
    if modifiableOwners.length ≥ 2 then
      match store.externallyOwnedAccounts.find newAddress with
      | none => return none
      | some newOwner1 =>
        let newOwner2 := deriveExternallyOwnedAccount newOwner1
        transactionData services walletAddress list (modifiableOwners.take 2)
          [newOwner1.address, newOwner2.address]
    else return none

/-- `update(transaction:newOwnerAddress:)`. -/
def update (newAddress : Address) (store : Store) (id : TransactionID) (now : Date) :
    Trapping Store := do
  let store ← updateWith
    (realTransactionData services enumeration deriveExternallyOwnedAccount newAddress) store id now
  let tx ← transaction store id
  return store.saveTransaction { tx with operation := some .delegateCall, updatedDate := some now }

end ReplaceRecoveryPhraseDomainService

/-! ## The list of the contract -/

namespace ReplaceTwoFADomainService

variable {services : Services} {contract : Address} {owners : List ChainAddress}

/-- The owners that are reported are copied in their order. -/
theorem remoteOwnersList_of_owners (hne : owners ≠ [])
    (hread : getOwners services contract = .ok (some (owners.map Address.ofChain))) :
    ∃ list, remoteOwnersList services contract = .ok (some list) ∧ list.Represents owners := by
  obtain ⟨list, hlist, hrepresents⟩ := OwnerLinkedList.represents_foldlM owners hne
  refine ⟨list, ?_, hrepresents⟩
  obtain ⟨first, rest, rfl⟩ := List.exists_cons_of_ne_nil hne
  rw [List.map_cons] at hread hlist
  simp only [remoteOwnersList, hread, Trapping.ok_bind, hlist, Trapping.pure_eq_ok]

/-- Without owners there is no list. -/
theorem remoteOwnersList_of_none
    (hread : getOwners services contract = .ok none ∨ getOwners services contract = .ok (some [])) :
    remoteOwnersList services contract = .ok none := by
  rcases hread with hread | hread <;> simp only [remoteOwnersList, hread] <;> rfl

end ReplaceTwoFADomainService

/-! ## Sequences of swaps -/

/-- The arguments of a call of `swapOwner`. -/
structure OwnerSwap where
  prev : Address
  old : Address
  new : Address
  deriving DecidableEq, Repr

namespace OwnerSwap

open Linked

/-- The call data. -/
def data (kit : EthereumKit) (swap : OwnerSwap) : Data :=
  swapOwner kit swap.prev swap.old swap.new

/-- The owner and the one in its place. -/
def pair (swap : OwnerSwap) : Address × Address := (swap.old, swap.new)

/-- Every call names a link of the list as the calls before it leave it. -/
def Linked : List ChainAddress → List OwnerSwap → Prop
  | _, [] => True
  | owners, swap :: rest =>
    PointsTo OwnerManager.sentinel owners swap.prev.onChain swap.old.onChain ∧
      Linked (owners.replace swap.old.onChain swap.new.onChain) rest

/-- The owners after all the swaps. -/
def replaced (owners : List ChainAddress) (pairs : List (Address × Address)) :
    List ChainAddress :=
  pairs.foldl (fun owners pair => owners.replace pair.1.onChain pair.2.onChain) owners

/-- The owners that are replaced, one after the other, are there and no sentinels. -/
def Present : List ChainAddress → List (Address × Address) → Prop
  | _, [] => True
  | owners, (old, new) :: rest =>
    old.onChain ∈ owners ∧ old.onChain ≠ OwnerManager.sentinel ∧
      Present (owners.replace old.onChain new.onChain) rest

theorem length_data {kit : EthereumKit} (h : OwnerSelectors kit) (swap : OwnerSwap) :
    (swap.data kit).length = 100 := length_swapOwner h _ _ _

variable {owners : List ChainAddress} {pairs : List (Address × Address)} {list : OwnerLinkedList}

open ReplaceRecoveryPhraseDomainService in
/-- The calls are planned along the links of the contract. -/
theorem swapCalls_linked (kit : EthereumKit) (h : list.Represents owners)
    (hwf : ∀ pair ∈ pairs, pair.1.WellFormed ∧ pair.2.WellFormed) (hpresent : Present owners pairs) :
    ∃ swaps : List OwnerSwap, swapCalls kit list pairs = .ok (swaps.map (data kit)) ∧
      swaps.map pair = pairs ∧ Linked owners swaps := by
  induction pairs generalizing list owners with
  | nil => exact ⟨[], rfl, rfl, trivial⟩
  | cons first rest ih =>
      obtain ⟨old, new⟩ := first
      obtain ⟨hmem, hsentinel, hrest⟩ := hpresent
      obtain ⟨hold, hnew⟩ := hwf _ List.mem_cons_self
      obtain ⟨prev, hbefore, hpoints⟩ := h.addressBefore hold hmem hsentinel
      obtain ⟨swaps, hcalls, hpairs, hlinked⟩ := ih (h.replace hold hnew hmem hsentinel)
        (fun pair hpair => hwf pair (List.mem_cons_of_mem _ hpair)) hrest
      refine ⟨⟨Address.ofChain prev, old, new⟩ :: swaps, ?_, ?_, ?_⟩
      · simp only [swapCalls, hbefore, Trapping.ok_bind, hcalls, Trapping.pure_eq_ok]
        rfl
      · rw [List.map_cons, hpairs]
        rfl
      · refine ⟨?_, hlinked⟩
        rwa [Address.onChain_ofChain]

/-- Linked calls that bring in addresses which can be made owners succeed one after the other. -/
theorem executeAll_linked {kit : EthereumKit} (hselectors : OwnerSelectors kit)
    {manager : OwnerManager} {swaps : List OwnerSwap} (hlinked : Linked manager.owners swaps)
    (hnodup : (swaps.map fun swap => swap.new.onChain).Nodup)
    (hadd : ∀ swap ∈ swaps, manager.CanAdd swap.new.onChain) :
    ∃ manager', manager.executeAll (swaps.map (data kit)) = some manager' ∧
      manager'.owners = replaced manager.owners (swaps.map pair) := by
  induction swaps generalizing manager with
  | nil => exact ⟨manager, rfl, rfl⟩
  | cons swap rest ih =>
      obtain ⟨hpoints, hrest⟩ := hlinked
      have hcan := hadd swap List.mem_cons_self
      obtain ⟨hfresh, hnodup⟩ := List.nodup_cons.mp hnodup
      let swapped : OwnerManager := {
        owners := manager.owners.replace swap.old.onChain swap.new.onChain
        threshold := manager.threshold
        nodup := nodup_replace manager.nodup hcan.2.2
        valid := by
          intro owner hmem
          rcases (mem_replace manager.nodup hpoints.mem).mp hmem with rfl | ⟨hmem, -⟩
          · exact ⟨hcan.1, hcan.2.1⟩
          · exact manager.valid owner hmem }
      have hswap : manager.execute (data kit swap) = some swapped := by
        rw [data, execute_swapOwner hselectors, OwnerManager.swapOwner, dif_pos ⟨hcan, hpoints⟩]
      have hlater : ∀ other ∈ rest, swapped.CanAdd other.new.onChain := by
        intro other hother
        obtain ⟨hzero, hsentinel, habsent⟩ := hadd other (List.mem_cons_of_mem _ hother)
        refine ⟨hzero, hsentinel, fun hmem => ?_⟩
        rcases (mem_replace manager.nodup hpoints.mem).mp hmem with heq | ⟨hmem, -⟩
        · exact hfresh (List.mem_map.mpr ⟨other, hother, heq⟩)
        · exact habsent hmem
      obtain ⟨manager', hexecute, howners⟩ := ih hrest hnodup hlater
      refine ⟨manager', ?_, howners⟩
      rw [List.map_cons, OwnerManager.executeAll, List.foldlM_cons, hswap]
      exact hexecute

end OwnerSwap

end SafeWallet
