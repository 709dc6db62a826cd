/-
# What an update of a payload stores

When the new owner is known, `update` steps a transaction that is being signed back to
a draft, builds the payload and stores it. Four services share these steps and have
builders of their own. A builder that does not find the owner it is about returns
nothing, and nothing is then stored: the data that was there is gone, and the
transaction has become a draft.
-/

import SafeWallet.Wallet.DummyPayloads

namespace SafeWallet

open SafeOwnerManagerContractProxy

/-! ## The stored transaction -/

namespace ReplaceTwoFADomainService

/-- The transaction that gets the payload. -/
def steppedBack (tx : Transaction) : Transaction :=
  if tx.status = .signing then Transactions.persisted { tx with status := .draft } else tx

/-- The transaction with the payload, as it is read back. -/
def withPayload (tx : Transaction) (now : Date) (payload : Option Data) : Transaction :=
  Transactions.persisted { steppedBack tx with data := payload, updatedDate := some now }

variable {store : Store} {id : TransactionID} {tx : Transaction}

theorem stepBackToDraft_eq (hfind : store.transactions.find id = some tx) :
    ∃ stepped, stepBackToDraft store id = .ok stepped ∧
      stepped.transactions.find id = some (steppedBack tx) ∧
      (stepped = store ∨ ∃ saved, stepped = store.saveTransaction saved) := by
  have hid := (Table.mem_of_find hfind).2
  by_cases hsigning : tx.status = .signing
  · refine ⟨store.saveTransaction { tx with status := .draft }, ?_, ?_, .inr ⟨_, rfl⟩⟩
    · simp [stepBackToDraft, hfind, hsigning, Transaction.stepBack]
    · rw [steppedBack, if_pos hsigning]
      exact find_saveTransaction hid
  · refine ⟨store, ?_, ?_, .inl rfl⟩
    · simp [stepBackToDraft, hfind, hsigning]
    · rw [steppedBack, if_neg hsigning, hfind]

/-- The payload is stored, whether there is one or not. -/
theorem updateWith_eq {payload : Store → Trapping (Option Data)}
    (hpayload : ∀ saved, payload (store.saveTransaction saved) = payload store)
    (hfind : store.transactions.find id = some tx) (now : Date) :
    ∃ stored : Option Data → Store,
      (∀ data, (stored data).transactions.find id = some (withPayload tx now data)) ∧
      updateWith payload store id now = payload store >>= fun data => .ok (stored data) := by
  obtain ⟨stepped, hstep, hfind', hsame⟩ := stepBackToDraft_eq hfind
  have hid := (Table.mem_of_find hfind').2
  have hreads : payload stepped = payload store := by
    obtain rfl | ⟨saved, rfl⟩ := hsame
    · rfl
    · exact hpayload saved
  refine ⟨fun data => stepped.saveTransaction
    { steppedBack tx with data := data, updatedDate := some now }, fun data => ?_, ?_⟩
  · exact find_saveTransaction hid
  · simp only [updateWith, hstep, Trapping.ok_bind, transaction, hfind', Trapping.pure_eq_ok,
      hreads]

@[simp]
theorem data_withPayload (now : Date) (payload : Option Data) :
    (withPayload tx now payload).data = payload.filter (· ≠ []) := rfl

@[simp]
theorem status_withPayload (now : Date) (payload : Option Data) :
    (withPayload tx now payload).status =
      if tx.status = .signing then .draft else tx.status := by
  unfold withPayload steppedBack
  split <;> rfl

end ReplaceTwoFADomainService

/-! ## The services -/

/-- The services that update the payload of a change of owners. -/
inductive OwnerChangeService
  | replaceTwoFA
  | connectTwoFA
  | disconnectTwoFA
  | replaceRecoveryPhrase
  deriving DecidableEq, Repr

namespace OwnerChangeService

variable (services : Services) (enumeration : Enumeration)
  (derive : ExternallyOwnedAccount → ExternallyOwnedAccount) (newAddress : Address)

/-- `realTransactionData` of the service. -/
def realTransactionData : OwnerChangeService → Store → Trapping (Option Data)
  | replaceTwoFA => ReplaceTwoFADomainService.realTransactionData services newAddress
  | connectTwoFA => ConnectTwoFADomainService.realTransactionData services newAddress
  | disconnectTwoFA => DisconnectTwoFADomainService.realTransactionData services
  | replaceRecoveryPhrase =>
    ReplaceRecoveryPhraseDomainService.realTransactionData services enumeration derive newAddress

/-- `update` of the service. -/
def update : OwnerChangeService → Store → TransactionID → Date → Trapping Store
  | replaceTwoFA => ReplaceTwoFADomainService.update services newAddress
  | connectTwoFA => ConnectTwoFADomainService.update services newAddress
  | disconnectTwoFA => DisconnectTwoFADomainService.update services
  | replaceRecoveryPhrase =>
    ReplaceRecoveryPhraseDomainService.update services enumeration derive newAddress

/-- Executing a payload makes exactly the change of the authenticator. -/
def Changes (wallet : Wallet) (newAddress : Address) (manager : OwnerManager) (data : Data) :
    OwnerChangeService → Prop
  | replaceTwoFA => ∃ owner ∈ wallet.twoFAOwner, ∃ manager',
      manager.execute data = some manager' ∧
        manager'.owners = manager.owners.replace owner.address.onChain newAddress.onChain
  | connectTwoFA => ∃ manager', manager.execute data = some manager' ∧
      manager'.owners = newAddress.onChain :: manager.owners
  | disconnectTwoFA => ∃ owner ∈ wallet.twoFAOwner, ∃ manager',
      manager.execute data = some manager' ∧
        manager'.owners = manager.owners.erase owner.address.onChain
  | replaceRecoveryPhrase => True

/-- A payload that can be built is stored and makes the change; without one the transaction keeps
its data and its status. -/
def RightOrKept (service : OwnerChangeService) (store : Store) (id : TransactionID)
    (tx : Transaction) (wallet : Wallet) (manager : OwnerManager) (now : Date) : Prop :=
  ∃ store' tx',
    service.update services enumeration derive newAddress store id now = .ok store' ∧
    store'.transactions.find id = some tx' ∧
    (∀ data, service.realTransactionData services enumeration derive newAddress store =
        .ok (some data) →
      tx'.data = some data ∧ service.Changes wallet newAddress manager data) ∧
    (service.realTransactionData services enumeration derive newAddress store = .ok none →
      tx'.data = tx.data ∧ tx'.status = tx.status)

variable {services enumeration derive newAddress} {service : OwnerChangeService} {store : Store}
  {id : TransactionID} {tx : Transaction} {wallet : Wallet} {manager : OwnerManager}

/-- What is stored, for each of the services. -/
theorem update_eq (hfind : store.transactions.find id = some tx) (now : Date) :
    ∃ (stored : Option Data → Store) (tx' : Option Data → Transaction),
      (∀ data, (stored data).transactions.find id = some (tx' data) ∧
        (tx' data).data = data.filter (· ≠ []) ∧
        (tx' data).status = if tx.status = .signing then .draft else tx.status) ∧
      service.update services enumeration derive newAddress store id now =
        service.realTransactionData services enumeration derive newAddress store >>= fun data =>
          .ok (stored data) := by
  have hreads : ∀ saved,
      service.realTransactionData services enumeration derive newAddress
          (store.saveTransaction saved) =
        service.realTransactionData services enumeration derive newAddress store := by
    intro saved
    cases service <;> rfl
  obtain ⟨stored, hstored, heq⟩ := ReplaceTwoFADomainService.updateWith_eq hreads hfind now
  have hspec : ∀ data, (stored data).transactions.find id =
      some (ReplaceTwoFADomainService.withPayload tx now data) := hstored
  cases service with
  | replaceRecoveryPhrase =>
      -- the operation is written in a second step
      refine ⟨fun data => (stored data).saveTransaction
        { ReplaceTwoFADomainService.withPayload tx now data with
          operation := some .delegateCall, updatedDate := some now },
        fun data => Transactions.persisted
          { ReplaceTwoFADomainService.withPayload tx now data with
            operation := some .delegateCall, updatedDate := some now },
        fun data => ⟨?_, ?_, ?_⟩, ?_⟩
      · exact find_saveTransaction (Table.mem_of_find (hspec data)).2
      · cases data with
        | none => rfl
        | some bytes => by_cases hempty : bytes = [] <;> simp [Transactions.persisted, hempty]
      · simp [Transactions.persisted]
      · simp only [realTransactionData] at heq
        simp only [update, ReplaceRecoveryPhraseDomainService.update, heq, bind_assoc,
          Trapping.ok_bind, ReplaceTwoFADomainService.transaction, hspec, Trapping.pure_eq_ok,
          realTransactionData]
  | replaceTwoFA | connectTwoFA | disconnectTwoFA =>
      exact ⟨stored, _, fun data => ⟨hspec data, by simp, by simp⟩, heq⟩

/-- Nothing is kept: either there is a right payload, or there was nothing to keep. -/
theorem rightOrKept_iff (hfind : store.transactions.find id = some tx) (now : Date)
    (hne : ∀ data, service.realTransactionData services enumeration derive newAddress store =
      .ok (some data) → data ≠ []) :
    RightOrKept services enumeration derive newAddress service store id tx wallet manager now ↔
      (∃ data, service.realTransactionData services enumeration derive newAddress store =
          .ok (some data) ∧ service.Changes wallet newAddress manager data) ∨
      (service.realTransactionData services enumeration derive newAddress store = .ok none ∧
        tx.data = none ∧ tx.status ≠ .signing) := by
  obtain ⟨stored, tx', hstored, hupdate⟩ :=
    @update_eq services enumeration derive newAddress service store id tx hfind now
  unfold RightOrKept
  rw [hupdate]
  cases hpayload : service.realTransactionData services enumeration derive newAddress store with
  | error trap =>
      constructor
      · rintro ⟨_, _, hresult, -⟩
        cases hresult
      · rintro (⟨_, hdata, -⟩ | ⟨hnone, -⟩)
        · cases hdata
        · cases hnone
  | ok payload =>
      obtain ⟨hstored, hdata, hstatus⟩ := hstored payload
      cases payload with
      | none =>
          constructor
          · rintro ⟨_, _, hresult, hfind', -, hkept⟩
            cases hresult
            cases hstored.symm.trans hfind'
            obtain ⟨hdata', hstatus'⟩ := hkept rfl
            refine .inr ⟨rfl, hdata'.symm.trans hdata, fun hsigning => ?_⟩
            rw [hstatus, if_pos hsigning, hsigning] at hstatus'
            cases hstatus'
          · rintro (⟨_, hsome, -⟩ | ⟨-, hdata', hstatus'⟩)
            · cases hsome
            · refine ⟨_, _, rfl, hstored, fun _ hsome => (by cases hsome), fun _ => ⟨?_, ?_⟩⟩
              · rw [hdata, hdata']
                rfl
              · rw [hstatus, if_neg hstatus']
      | some data =>
          have hkept : (tx' (some data)).data = some data := by
            rw [hdata, Option.filter_some, if_pos (by simpa using hne data hpayload)]
          constructor
          · rintro ⟨_, _, hresult, hfind', hright, -⟩
            exact .inl ⟨data, rfl, (hright data rfl).2⟩
          · rintro (⟨_, hsome, hchanges⟩ | ⟨hnone, -⟩)
            · cases hsome
              refine ⟨_, _, rfl, hstored, fun other hother => ?_, fun hnone => (by cases hnone)⟩
              cases hother
              exact ⟨hkept, hchanges⟩
            · cases hnone

/-! ## What the builders find -/

/-- The node reports the owners of the contract. -/
def Reported (services : Services) (walletAddress : Address) (manager : OwnerManager) : Prop :=
  getOwners services walletAddress = .ok (some (manager.owners.map Address.ofChain))

/-- A transaction of the selected wallet that gets a new owner which is none yet. The query of
the owners fails, or reports those of the contract. -/
structure OwnerUpdate (services : Services)
    (derive : ExternallyOwnedAccount → ExternallyOwnedAccount) (newAddress : Address)
    (store : Store) (id : TransactionID) (tx : Transaction) (wallet : Wallet)
    (walletAddress : Address) (manager : OwnerManager) : Prop where
  selectors : OwnerSelectors services.kit
  transaction_eq : store.transactions.find id = some tx
  wallet_eq : store.selectedWallet = some wallet
  address_eq : wallet.address = some walletAddress
  authenticator : ∀ owner ∈ wallet.twoFAOwner, owner.address.WellFormed
  owners_eq : Reported services walletAddress manager ∨ getOwners services walletAddress = .ok none
  two_owners : 2 ≤ manager.owners.length
  new_not_mem : newAddress.onChain ∉ manager.owners
  accounts : ∀ account ∈ store.externallyOwnedAccounts.find newAddress,
    account.address.WellFormed ∧ (derive account).address.WellFormed

/-- A payload can be built. -/
def Builds (services : Services) (newAddress : Address) (store : Store) (wallet : Wallet)
    (walletAddress : Address) (manager : OwnerManager) : OwnerChangeService → Prop
  | connectTwoFA => True
  | replaceTwoFA | disconnectTwoFA => Reported services walletAddress manager ∧
      ∃ owner ∈ wallet.twoFAOwner, owner.address.onChain ∈ manager.owners
  | replaceRecoveryPhrase => Reported services walletAddress manager ∧
      2 ≤ (ReplaceRecoveryPhraseDomainService.replaceableOwners wallet manager.owners).length ∧
      (store.externallyOwnedAccounts.find newAddress).isSome

/-- A builder stops: there is no authenticator to replace, or it is the sentinel, which the copy
of the owners contains. -/
def Stops (services : Services) (wallet : Wallet) (walletAddress : Address)
    (manager : OwnerManager) : OwnerChangeService → Prop
  | replaceTwoFA => wallet.twoFAOwner = none ∨ (Reported services walletAddress manager ∧
      ∃ owner ∈ wallet.twoFAOwner, owner.address.onChain = OwnerManager.sentinel)
  | disconnectTwoFA => Reported services walletAddress manager ∧
      ∃ owner ∈ wallet.twoFAOwner, owner.address.onChain = OwnerManager.sentinel
  | connectTwoFA | replaceRecoveryPhrase => False

/-- An owner that comes in is a possible one. -/
def BringsOwner (newAddress : Address) : OwnerChangeService → Prop
  | replaceTwoFA | connectTwoFA =>
      newAddress.onChain ≠ 0 ∧ newAddress.onChain ≠ OwnerManager.sentinel
  | disconnectTwoFA | replaceRecoveryPhrase => True

/-- What a builder comes to. -/
inductive Outcome (builds stops brings : Prop) (changes : Data → Prop) :
    Trapping (Option Data) → Prop
  | built {data : Data} (hbuilds : builds) (hne : data ≠ []) (hchanges : changes data ↔ brings) :
      Outcome builds stops brings changes (.ok (some data))
  | nothing (hbuilds : ¬ builds) (hstops : ¬ stops) : Outcome builds stops brings changes (.ok none)
  | stopped {trap : Trap} (hbuilds : ¬ builds) (hstops : stops) :
      Outcome builds stops brings changes (.error trap)

section

variable {walletAddress : Address}

theorem OwnerUpdate.requiredWallet_eq
    (h : OwnerUpdate services derive newAddress store id tx wallet walletAddress manager) :
    ReplaceTwoFADomainService.requiredWallet store = .ok (wallet, walletAddress) := by
  simp only [ReplaceTwoFADomainService.requiredWallet, h.wallet_eq, h.address_eq,
    Trapping.unwrap_some, Trapping.ok_bind, Trapping.pure_eq_ok]

theorem OwnerUpdate.exists_list
    (h : OwnerUpdate services derive newAddress store id tx wallet walletAddress manager)
    (hreported : Reported services walletAddress manager) :
    ∃ list, ReplaceTwoFADomainService.remoteOwnersList services walletAddress = .ok (some list) ∧
      list.Represents manager.owners := by
  apply ReplaceTwoFADomainService.remoteOwnersList_of_owners _ hreported
  exact List.ne_nil_of_length_pos (by have := h.two_owners; omega)

theorem OwnerUpdate.list_eq_none
    (h : OwnerUpdate services derive newAddress store id tx wallet walletAddress manager)
    (hreported : ¬ Reported services walletAddress manager) :
    ReplaceTwoFADomainService.remoteOwnersList services walletAddress = .ok none :=
  ReplaceTwoFADomainService.remoteOwnersList_of_none
    (.inl (h.owners_eq.resolve_left hreported))

/-- The authenticator in the copy of the owners: a link leads to it, or it is the sentinel, or it
is not there. -/
theorem OwnerUpdate.lookup
    (h : OwnerUpdate services derive newAddress store id tx wallet walletAddress manager)
    {owner : Owner} (howner : wallet.twoFAOwner = some owner) {list : OwnerLinkedList}
    (hlist : list.Represents manager.owners) :
    (owner.address.onChain ∈ manager.owners ∧ list.contains owner.address = true ∧
      ∃ prev, list.addressBefore owner.address = .ok (Address.ofChain prev) ∧
        Linked.PointsTo OwnerManager.sentinel manager.owners prev owner.address.onChain) ∨
    (owner.address.onChain = OwnerManager.sentinel ∧ list.contains owner.address = true ∧
      list.addressBefore owner.address = .error .precondition) ∨
    (owner.address.onChain ∉ manager.owners ∧ owner.address.onChain ≠ OwnerManager.sentinel ∧
      list.contains owner.address = false) := by
  have hwf := h.authenticator owner howner
  by_cases hmem : owner.address.onChain ∈ manager.owners
  · have hvalid := (manager.valid _ hmem).2
    exact .inl ⟨hmem, (hlist.contains hwf).mpr (.inr hmem), hlist.addressBefore hwf hmem hvalid⟩
  · by_cases hsentinel : owner.address.onChain = OwnerManager.sentinel
    · exact .inr (.inl ⟨hsentinel, (hlist.contains hwf).mpr (.inl hsentinel),
        hlist.addressBefore_sentinel hwf hsentinel⟩)
    · refine .inr (.inr ⟨hmem, hsentinel, ?_⟩)
      rw [← Bool.not_eq_true, hlist.contains hwf]
      exact not_or.mpr ⟨hsentinel, hmem⟩

theorem sentinel_not_mem : OwnerManager.sentinel ∉ manager.owners :=
  fun hmem => (manager.valid _ hmem).2 rfl

/-- Replacing an owner along a link succeeds for every possible new owner. -/
theorem changes_replace_iff
    (h : OwnerUpdate services derive newAddress store id tx wallet walletAddress manager)
    {owner : Owner} (howner : wallet.twoFAOwner = some owner) {prev : ChainAddress}
    (hpoints : Linked.PointsTo OwnerManager.sentinel manager.owners prev owner.address.onChain) :
    replaceTwoFA.Changes wallet newAddress manager
        (swapOwner services.kit (Address.ofChain prev) owner.address newAddress) ↔
      replaceTwoFA.BringsOwner newAddress := by
  simp only [Changes, BringsOwner, execute_swapOwner h.selectors, Address.onChain_ofChain,
    OwnerManager.swapOwner, hpoints, and_true, OwnerManager.CanAdd, h.new_not_mem,
    not_false_eq_true, howner]
  constructor
  · rintro ⟨_, -, manager', hexecute, -⟩
    split at hexecute
    · assumption
    · cases hexecute
  · intro hnew
    exact ⟨owner, rfl, _, dif_pos hnew, rfl⟩

theorem changes_disconnect
    (h : OwnerUpdate services derive newAddress store id tx wallet walletAddress manager)
    {owner : Owner} (howner : wallet.twoFAOwner = some owner) {prev : ChainAddress}
    (hpoints : Linked.PointsTo OwnerManager.sentinel manager.owners prev owner.address.onChain) :
    disconnectTwoFA.Changes wallet newAddress manager
      (removeOwner services.kit (Address.ofChain prev) owner.address 1) := by
  simp only [Changes, execute_removeOwner h.selectors, Address.onChain_ofChain,
    OwnerManager.removeOwner]
  refine ⟨owner, howner, _, if_pos ⟨hpoints, by decide, ?_⟩, rfl⟩
  have htwo := h.two_owners
  rw [BitVec.toNat_ofNat]
  omega

theorem changes_connect_iff
    (h : OwnerUpdate services derive newAddress store id tx wallet walletAddress manager) :
    connectTwoFA.Changes wallet newAddress manager (addOwner services.kit newAddress 2) ↔
      connectTwoFA.BringsOwner newAddress := by
  have hcount : 1 ≤ (BitVec.ofNat 256 2).toNat ∧
      (BitVec.ofNat 256 2).toNat ≤ manager.owners.length + 1 := by
    have htwo := h.two_owners
    rw [BitVec.toNat_ofNat]
    omega
  simp only [Changes, BringsOwner, execute_addOwner h.selectors,
    OwnerManager.addOwnerWithThreshold, hcount, and_true, OwnerManager.CanAdd, h.new_not_mem,
    not_false_eq_true]
  constructor
  · rintro ⟨manager', hexecute, -⟩
    split at hexecute
    · assumption
    · cases hexecute
  · intro hnew
    exact ⟨_, dif_pos hnew, rfl⟩

/-- The outcome of a service. -/
abbrev OutcomeOf (service : OwnerChangeService) (services : Services) (newAddress : Address)
    (store : Store) (wallet : Wallet) (walletAddress : Address) (manager : OwnerManager) :
    Trapping (Option Data) → Prop :=
  Outcome (service.Builds services newAddress store wallet walletAddress manager)
    (service.Stops services wallet walletAddress manager) (service.BringsOwner newAddress)
    fun data => service.Changes wallet newAddress manager data

theorem outcome_replaceTwoFA
    (h : OwnerUpdate services derive newAddress store id tx wallet walletAddress manager) :
    replaceTwoFA.OutcomeOf services newAddress store wallet walletAddress manager
      (ReplaceTwoFADomainService.realTransactionData services newAddress store) := by
  simp only [ReplaceTwoFADomainService.realTransactionData, h.wallet_eq, Trapping.unwrap_some,
    Trapping.ok_bind, h.requiredWallet_eq]
  cases howner : wallet.twoFAOwner with
  | none => exact .stopped (by simp [Builds, howner]) (.inl howner)
  | some owner =>
      simp only [Trapping.unwrap_some, Trapping.ok_bind]
      by_cases hreported : Reported services walletAddress manager
      · obtain ⟨list, hlist, hrepresents⟩ := h.exists_list hreported
        simp only [hlist, Trapping.ok_bind]
        rcases h.lookup howner hrepresents with ⟨hmem, hcontains, prev, hbefore, hpoints⟩ |
          ⟨hsentinel, hcontains, hbefore⟩ | ⟨hmem, hsentinel, hcontains⟩
        · simp only [hcontains, ↓reduceIte, hbefore, Trapping.ok_bind, Trapping.pure_eq_ok]
          refine .built ⟨hreported, owner, howner, hmem⟩ ?_ (changes_replace_iff h howner hpoints)
          exact List.ne_nil_of_length_pos (by rw [length_swapOwner h.selectors]; norm_num)
        · simp only [hcontains, ↓reduceIte, hbefore]
          refine .stopped ?_ (.inr ⟨hreported, owner, howner, hsentinel⟩)
          simp [Builds, howner, hsentinel, sentinel_not_mem]
        · simp only [hcontains, Bool.false_eq_true, ↓reduceIte, Trapping.pure_eq_ok]
          exact .nothing (by simp [Builds, howner, hmem]) (by simp [Stops, howner, hsentinel])
      · simp only [h.list_eq_none hreported, Trapping.ok_bind, Trapping.pure_eq_ok]
        exact .nothing (by simp [Builds, hreported]) (by simp [Stops, howner, hreported])

theorem outcome_connectTwoFA
    (h : OwnerUpdate services derive newAddress store id tx wallet walletAddress manager) :
    connectTwoFA.OutcomeOf services newAddress store wallet walletAddress manager
      (ConnectTwoFADomainService.realTransactionData services newAddress store) := by
  simp only [ConnectTwoFADomainService.realTransactionData, h.requiredWallet_eq, Trapping.ok_bind,
    Trapping.pure_eq_ok]
  refine .built trivial ?_ (changes_connect_iff h)
  exact List.ne_nil_of_length_pos (by rw [length_addOwner h.selectors]; norm_num)

theorem outcome_disconnectTwoFA
    (h : OwnerUpdate services derive newAddress store id tx wallet walletAddress manager) :
    disconnectTwoFA.OutcomeOf services newAddress store wallet walletAddress manager
      (DisconnectTwoFADomainService.realTransactionData services store) := by
  simp only [DisconnectTwoFADomainService.realTransactionData, h.wallet_eq, Option.bind_some]
  cases howner : wallet.twoFAOwner with
  | none => exact .nothing (by simp [Builds, howner]) (by simp [Stops, howner])
  | some owner =>
      simp only [h.requiredWallet_eq, Trapping.ok_bind]
      by_cases hreported : Reported services walletAddress manager
      · obtain ⟨list, hlist, hrepresents⟩ := h.exists_list hreported
        simp only [hlist, Trapping.ok_bind]
        rcases h.lookup howner hrepresents with ⟨hmem, hcontains, prev, hbefore, hpoints⟩ |
          ⟨hsentinel, hcontains, hbefore⟩ | ⟨hmem, hsentinel, hcontains⟩
        · simp only [hcontains, ↓reduceIte, hbefore, Trapping.ok_bind, Trapping.pure_eq_ok]
          refine .built ⟨hreported, owner, howner, hmem⟩ ?_
            (iff_of_true (changes_disconnect h howner hpoints) trivial)
          exact List.ne_nil_of_length_pos (by rw [length_removeOwner h.selectors]; norm_num)
        · simp only [hcontains, ↓reduceIte, hbefore]
          refine .stopped ?_ ⟨hreported, owner, howner, hsentinel⟩
          simp [Builds, howner, hsentinel, sentinel_not_mem]
        · simp only [hcontains, Bool.false_eq_true, ↓reduceIte, Trapping.pure_eq_ok]
          exact .nothing (by simp [Builds, howner, hmem]) (by simp [Stops, howner, hsentinel])
      · simp only [h.list_eq_none hreported, Trapping.ok_bind, Trapping.pure_eq_ok]
        exact .nothing (by simp [Builds, hreported]) (by simp [Stops, hreported])

/-- Two owners that are there can always be swapped on the copy. -/
theorem exists_transactionData {list : OwnerLinkedList}
    (hrepresents : list.Represents manager.owners) {old : List Address} {new₁ new₂ : Address}
    (hlength : old.length = 2) (hnodup : (old.map Address.onChain).Nodup)
    (hold : ∀ owner ∈ old, owner.WellFormed ∧ owner.onChain ∈ manager.owners)
    (hnew : new₁.WellFormed ∧ new₂.WellFormed) :
    ∃ calls, ReplaceRecoveryPhraseDomainService.transactionData services walletAddress list old
      [new₁, new₂] =
        .ok (some (ReplaceRecoveryPhraseDomainService.batch services walletAddress calls)) := by
  obtain ⟨first, second, rfl⟩ := List.length_eq_two.mp hlength
  obtain ⟨hwf₁, hmem₁⟩ := hold first (by simp)
  obtain ⟨hwf₂, hmem₂⟩ := hold second (by simp)
  have hne : second.onChain ≠ first.onChain := fun heq => by simp [heq] at hnodup
  have hpresent : OwnerSwap.Present manager.owners [(first, new₁), (second, new₂)] := by
    refine ⟨hmem₁, (manager.valid _ hmem₁).2, ?_, (manager.valid _ hmem₂).2, trivial⟩
    exact Linked.mem_replace_of_ne hmem₂ hne
  have hwf : ∀ pair ∈ [(first, new₁), (second, new₂)], pair.1.WellFormed ∧ pair.2.WellFormed := by
    simp [hwf₁, hwf₂, hnew]
  obtain ⟨swaps, hcalls, -, -⟩ := OwnerSwap.swapCalls_linked services.kit hrepresents hwf hpresent
  refine ⟨swaps.map (OwnerSwap.data services.kit), ?_⟩
  simp only [ReplaceRecoveryPhraseDomainService.transactionData, List.length_cons,
    List.length_nil, ↓reduceIte, List.zip_cons_cons, List.zip_nil_left, hcalls, Trapping.ok_bind]
  rfl

/-- The owners that are enumerated first are different owners of the contract. -/
theorem enumerated_spec (enumeration : Enumeration) (wallet : Wallet) (manager : OwnerManager)
    (count : ℕ) {old : List Address}
    (hold : old = (enumeration.array ((ReplaceRecoveryPhraseDomainService.replaceableOwners wallet
      manager.owners).map Address.ofChain)).take count) :
    (∀ owner ∈ old, owner.WellFormed ∧ owner.onChain ∈ manager.owners) ∧
      (old.map Address.onChain).Nodup := by
  have hperm := enumeration.perm ((ReplaceRecoveryPhraseDomainService.replaceableOwners wallet
    manager.owners).map Address.ofChain)
  subst hold
  constructor
  · intro owner howner
    obtain ⟨x, hx, rfl⟩ := List.mem_map.mp (hperm.mem_iff.mp (List.mem_of_mem_take howner))
    refine ⟨(Address.ofChain_spec x).1, ?_⟩
    rw [Address.onChain_ofChain]
    exact List.mem_of_mem_filter hx
  · refine List.Nodup.sublist ((List.take_sublist count _).map _) ?_
    rw [(hperm.map Address.onChain).nodup_iff, List.map_map]
    simpa [Function.comp_def, ReplaceRecoveryPhraseDomainService.replaceableOwners] using
      manager.nodup.filter _

theorem outcome_replaceRecoveryPhrase
    (h : OwnerUpdate services derive newAddress store id tx wallet walletAddress manager) :
    replaceRecoveryPhrase.OutcomeOf services newAddress store wallet walletAddress manager
      (ReplaceRecoveryPhraseDomainService.realTransactionData services enumeration derive
        newAddress store) := by
  simp only [ReplaceRecoveryPhraseDomainService.realTransactionData, h.requiredWallet_eq,
    Trapping.ok_bind]
  by_cases hreported : Reported services walletAddress manager
  · obtain ⟨list, hlist, hrepresents⟩ := h.exists_list hreported
    simp only [hlist, Trapping.ok_bind,
      ReplaceRecoveryPhraseDomainService.modifiable_eq hrepresents]
    set owners := ReplaceRecoveryPhraseDomainService.replaceableOwners wallet manager.owners
      with howners
    have hlength := (enumeration.perm (owners.map Address.ofChain)).length_eq
    rw [List.length_map] at hlength
    by_cases htwo : 2 ≤ owners.length
    · rw [if_pos (by omega)]
      cases haccount : store.externallyOwnedAccounts.find newAddress with
      | none => exact .nothing (by simp [Builds, haccount]) (by simp [Stops])
      | some account =>
          obtain ⟨hold, hnodup⟩ := enumerated_spec enumeration wallet manager 2 rfl
          obtain ⟨calls, hcalls⟩ : ∃ calls, ReplaceRecoveryPhraseDomainService.transactionData
              services walletAddress list
              ((enumeration.array (owners.map Address.ofChain)).take 2)
              [account.address, (derive account).address] = .ok (some
                (ReplaceRecoveryPhraseDomainService.batch services walletAddress calls)) :=
            exists_transactionData hrepresents (by rw [List.length_take]; omega) hnodup hold
              (h.accounts account haccount)
          simp only [hcalls]
          exact .built ⟨hreported, htwo, by simp [haccount]⟩
            (ReplaceRecoveryPhraseDomainService.batch_ne_nil walletAddress calls) Iff.rfl
    · rw [if_neg (by omega)]
      exact .nothing (by simp [Builds, ← howners, htwo]) (by simp [Stops])
  · simp only [h.list_eq_none hreported, Trapping.ok_bind, Trapping.pure_eq_ok]
    exact .nothing (by simp [Builds, hreported]) (by simp [Stops])

theorem outcome
    (h : OwnerUpdate services derive newAddress store id tx wallet walletAddress manager) :
    service.OutcomeOf services newAddress store wallet walletAddress manager
      (service.realTransactionData services enumeration derive newAddress store) := by
  cases service with
  | replaceTwoFA => exact outcome_replaceTwoFA h
  | connectTwoFA => exact outcome_connectTwoFA h
  | disconnectTwoFA => exact outcome_disconnectTwoFA h
  | replaceRecoveryPhrase => exact outcome_replaceRecoveryPhrase h

end

/-- A payload is right, or nothing changes, exactly when a payload can be built for a possible
owner or the transaction is one that has nothing to lose. -/
theorem update_rightOrKept_iff {services : Services} {enumeration : Enumeration}
    {derive : ExternallyOwnedAccount → ExternallyOwnedAccount} {newAddress : Address}
    {store : Store} {id : TransactionID} {tx : Transaction} {wallet : Wallet}
    {walletAddress : Address} {manager : OwnerManager} (service : OwnerChangeService) (now : Date)
    (h : OwnerUpdate services derive newAddress store id tx wallet walletAddress manager) :
    RightOrKept services enumeration derive newAddress service store id tx wallet manager now ↔
      (service.Builds services newAddress store wallet walletAddress manager ∧
        service.BringsOwner newAddress) ∨
      (¬ service.Builds services newAddress store wallet walletAddress manager ∧
        ¬ service.Stops services wallet walletAddress manager ∧
        tx.data = none ∧ tx.status ≠ .signing) := by
  have houtcome : service.OutcomeOf services newAddress store wallet walletAddress manager
      (service.realTransactionData services enumeration derive newAddress store) := outcome h
  have hne : ∀ data, service.realTransactionData services enumeration derive newAddress store =
      .ok (some data) → data ≠ [] := by
    intro data hdata
    rw [hdata] at houtcome
    cases houtcome with
    | built hbuilds hne hchanges => exact hne
  rw [rightOrKept_iff h.transaction_eq now hne]
  generalize service.realTransactionData services enumeration derive newAddress store = payload
    at houtcome ⊢
  cases houtcome with
  | built hbuilds hne hchanges => simp [hbuilds, hchanges]
  | nothing hbuilds hstops => simp [hbuilds, hstops]
  | stopped hbuilds hstops => simp [hbuilds, hstops]

section Example

open RecoveryTransactionBuilder ReplaceRecoveryPhraseDomainService

/-- A change of owners that waits for its signatures. -/
def signedChange : Transaction :=
  { ownerChangeDraft with status := .signing, data := some [0xe3, 0x18, 0xb5, 0x2b] }

/-- The wallet with its change of owners. -/
def signingStore : Store := phraseStore.saveTransaction signedChange

theorem ownerUpdate {services : Services} (hkit : services.kit = recoveryKit)
    (howners : Reported services safe retriedManager ∨ getOwners services safe = .ok none) :
    OwnerUpdate services deriveNew newAccount.address signingStore "owners" signedChange
      phraseWallet safe retriedManager := by
  obtain ⟨hwf, hwf', honChain, -⟩ := newAccount_spec
  refine ⟨hkit ▸ recoveryKit_selectors, find_saveTransaction rfl, rfl, rfl, ?_, howners, by decide,
    ?_, ?_⟩
  · intro owner howner
    cases howner
    exact (Address.ofChain_spec _).1
  · rw [honChain]
    decide
  · intro account haccount
    cases (Table.find_of_mem (List.mem_singleton_self newAccount)).symm.trans haccount
    rw [deriveNew, if_pos rfl]
    exact ⟨hwf, hwf'⟩

/-- Online the authenticator is replaced. -/
theorem update_rightOrKept_iff_online :
    RightOrKept (phraseServices retriedManager) (.putFirst .zero) deriveNew newAccount.address
      replaceTwoFA signingStore "owners" signedChange phraseWallet retriedManager 1 := by
  have hanswers : Answers (phraseServices retriedManager) safe retriedManager := answers_answering
  have hreported : Reported (phraseServices retriedManager) safe retriedManager := by
    have howners := getOwners_eq hanswers
    rwa [if_pos (by decide)] at howners
  refine (update_rightOrKept_iff replaceTwoFA 1 (ownerUpdate rfl (.inl hreported))).mpr (.inl ?_)
  refine ⟨⟨hreported, ⟨.ofChain authenticatorAddress, .browserExtension⟩, rfl, ?_⟩, ?_⟩
  · rw [Address.onChain_ofChain]
    decide
  · simp only [BringsOwner, newAccount_spec.2.2.1]
    decide

/-- Offline the change of owners loses its data and is a draft again. -/
theorem offline_loses_data :
    OwnerUpdate (.offline recoveryKit recoveryMetadata) deriveNew newAccount.address signingStore
      "owners" signedChange phraseWallet safe retriedManager ∧
    ¬ RightOrKept (.offline recoveryKit recoveryMetadata) (.putFirst .zero) deriveNew
      newAccount.address replaceTwoFA signingStore "owners" signedChange phraseWallet
      retriedManager 1 := by
  have hupdate : OwnerUpdate (.offline recoveryKit recoveryMetadata) deriveNew newAccount.address
      signingStore "owners" signedChange phraseWallet safe retriedManager :=
    ownerUpdate rfl (.inr rfl)
  have hnothing : replaceTwoFA.realTransactionData (.offline recoveryKit recoveryMetadata)
      (.putFirst .zero) deriveNew newAccount.address signingStore = .ok none := rfl
  refine ⟨hupdate, fun hkept => ?_⟩
  rw [rightOrKept_iff hupdate.transaction_eq 1 (by rw [hnothing]; simp), hnothing] at hkept
  rcases hkept with ⟨data, hdata, -⟩ | ⟨-, hdata, -⟩
  · cases hdata
  · cases hdata

end Example

end OwnerChangeService

end SafeWallet
