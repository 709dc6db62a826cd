/-
# Payloads for the estimation of fees

Before the new owner is known a transaction gets call data that is made up from the
owners the contract reports, so that the service can estimate its fee. The data has to
be there whatever the contract reports, and a call that does not follow the links of
the owner list would be estimated as a failing one.

The neighbour of an owner is looked up in a copy with the sentinel at both ends. After
the only owner of a contract comes the sentinel, and nothing comes before it.
-/

import SafeWallet.Wallet.PhraseReplacement

namespace SafeWallet

open SafeOwnerManagerContractProxy

/-! ## The pairs in call data -/

/-- An address argument of a call. -/
def OwnerManager.addressArgument (data : Data) (i : ℕ) : ChainAddress :=
  BitVec.ofNat 160 (argument data i)

/-- Every call names an owner and the one before it in the list, as the calls before leave it. -/
def OwnerManager.AlongLinks : List ChainAddress → List Data → Prop
  | _, [] => True
  | owners, call :: rest =>
    Linked.PointsTo sentinel owners (addressArgument call 0) (addressArgument call 1) ∧
      AlongLinks (owners.replace (addressArgument call 1) (addressArgument call 2)) rest

theorem addressArgument_swapOwner {kit : EthereumKit} (h : OwnerSelectors kit)
    (prevOwner old new : Address) :
    OwnerManager.addressArgument (swapOwner kit prevOwner old new) 0 = prevOwner.onChain ∧
    OwnerManager.addressArgument (swapOwner kit prevOwner old new) 1 = old.onChain ∧
    OwnerManager.addressArgument (swapOwner kit prevOwner old new) 2 = new.onChain := by
  have hargument : ∀ i (hi : i < 3), OwnerManager.argument (swapOwner kit prevOwner old new) i =
      [prevOwner.toUInt, old.toUInt, new.toUInt][i] % 2 ^ 256 :=
    argument_invocation (by rw [h.swapOwner]; rfl) [prevOwner.toUInt, old.toUInt, new.toUInt]
  simp only [OwnerManager.addressArgument, hargument 0 (by omega), hargument 1 (by omega),
    hargument 2 (by omega), List.getElem_cons_zero, List.getElem_cons_succ, address_argument,
    and_self]

theorem addressArgument_removeOwner {kit : EthereumKit} (h : OwnerSelectors kit)
    (prevOwner owner : Address) (threshold : ℕ) :
    OwnerManager.addressArgument (removeOwner kit prevOwner owner threshold) 0 =
      prevOwner.onChain ∧
    OwnerManager.addressArgument (removeOwner kit prevOwner owner threshold) 1 = owner.onChain := by
  have hargument : ∀ i (hi : i < 3),
      OwnerManager.argument (removeOwner kit prevOwner owner threshold) i =
        [prevOwner.toUInt, owner.toUInt, threshold][i] % 2 ^ 256 :=
    argument_invocation (by rw [h.removeOwner]; rfl) [prevOwner.toUInt, owner.toUInt, threshold]
  simp only [OwnerManager.addressArgument, hargument 0 (by omega), hargument 1 (by omega),
    List.getElem_cons_zero, List.getElem_cons_succ, address_argument, and_self]

theorem OwnerSwap.Linked.alongLinks {kit : EthereumKit} (h : OwnerSelectors kit)
    {owners : List ChainAddress} {swaps : List OwnerSwap}
    (hlinked : OwnerSwap.Linked owners swaps) :
    OwnerManager.AlongLinks owners (swaps.map (OwnerSwap.data kit)) := by
  induction swaps generalizing owners with
  | nil => trivial
  | cons swap rest ih =>
      obtain ⟨hprev, hold, hnew⟩ := addressArgument_swapOwner h swap.prev swap.old swap.new
      rw [List.map_cons, OwnerManager.AlongLinks, OwnerSwap.data, hprev, hold, hnew]
      exact ⟨hlinked.1, ih hlinked.2⟩

/-! ## What is made up -/

theorem two_three_spec : Address.two.WellFormed ∧ Address.three.WellFormed ∧
    Address.two.onChain = 2 ∧ Address.three.onChain = 3 ∧ Address.zero.onChain = 0 := by
  decide +kernel

namespace ReplaceTwoFADomainService

/-- Before the only owner of a list that is made up stands the sentinel. -/
theorem neighbourOfZero_eq : neighbourOfZero = .ok (Address.ofChain OwnerManager.sentinel) := by
  have hzero := Address.not_hasLetters_zero.1
  obtain ⟨list, hlist, hrepresents⟩ := OwnerLinkedList.represents_add_empty hzero
  have hne : Address.zero.onChain ≠ OwnerManager.sentinel := by
    rw [two_three_spec.2.2.2.2]
    decide
  obtain ⟨prev, hbefore, hpoints⟩ := hrepresents.addressBefore hzero List.mem_cons_self hne
  have hprev : [prev, Address.zero.onChain] = [OwnerManager.sentinel, Address.zero.onChain] :=
    List.IsInfix.eq_of_length hpoints rfl
  cases hprev
  simp only [neighbourOfZero, hlist, Trapping.ok_bind, hbefore]

end ReplaceTwoFADomainService

/-! ## The stored data -/

/-- A transaction of the selected wallet that is estimated, and what is known of the owners: the
query fails, or the contract reports different owners that are not the sentinel. -/
structure Estimation (services : Services) (store : Store) (id : TransactionID) (tx : Transaction)
    (wallet : Wallet) (walletAddress : Address) (reported : Option (List ChainAddress)) : Prop where
  selectors : OwnerSelectors services.kit
  multiSend : services.metadata.multiSendContractAddress.WellFormed
  transaction_eq : store.transactions.find id = some tx
  wallet_eq : store.selectedWallet = some wallet
  address_eq : wallet.address = some walletAddress
  address_wellFormed : walletAddress.WellFormed
  authenticator : ∀ owner ∈ wallet.twoFAOwner, owner.address.WellFormed
  owners_eq : getOwners services walletAddress =
    .ok (reported.map fun owners => owners.map Address.ofChain)
  nodup : ∀ owners ∈ reported, owners.Nodup
  sentinel : ∀ owners ∈ reported, OwnerManager.sentinel ∉ owners

/-- A call ends, and the data it stored is accepted. -/
def Stores (result : Trapping Store) (id : TransactionID) (accepted : Data → Prop) : Prop :=
  ∃ store' tx' data, result = .ok store' ∧ store'.transactions.find id = some tx' ∧
    tx'.data = some data ∧ accepted data

/-- Calls that follow the links of the owners, if there are any. -/
def FollowsReported (reported : Option (List ChainAddress)) (calls : List Data) : Prop :=
  ∀ owners ∈ reported, owners ≠ [] → OwnerManager.AlongLinks owners calls

section

variable {services : Services} {store : Store} {id : TransactionID} {tx : Transaction}
  {wallet : Wallet} {walletAddress : Address} {reported : Option (List ChainAddress)}

theorem find_saveTransaction (hid : tx.id = id) :
    (store.saveTransaction tx).transactions.find id = some (Transactions.persisted tx) := by
  rw [← hid]
  exact Table.find_save_self

/-- A transaction with the call that was made up. -/
def withCall (tx : Transaction) (recipient : Option Address) (operation : WalletOperation)
    (now : Date) (data : Data) : Transaction :=
  { tx with
    recipient := recipient, operation := some operation, data := some data,
    updatedDate := some now }

/-- Saving what was made up. -/
theorem stores_iff (hid : tx.id = id) {dummy : Trapping Data}
    (hne : ∀ data, dummy = .ok data → data ≠ []) {accepted : Data → Prop}
    (recipient : Option Address) (operation : WalletOperation) (now : Date) :
    Stores (dummy >>= fun data =>
        .ok (store.saveTransaction (withCall tx recipient operation now data))) id accepted ↔
      ∃ data, dummy = .ok data ∧ accepted data := by
  have hsaved : ∀ data,
      (store.saveTransaction (withCall tx recipient operation now data)).transactions.find id =
        some (Transactions.persisted (withCall tx recipient operation now data)) :=
    fun data => find_saveTransaction hid
  have hkept : ∀ data, data ≠ [] →
      (Transactions.persisted (withCall tx recipient operation now data)).data = some data := by
    intro data hdata
    simp [Transactions.persisted, withCall, hdata]
  constructor
  · intro hstores
    obtain ⟨store', tx', bytes, hresult, hfind, hbytes, haccepted⟩ := hstores
    obtain ⟨data, hdummy, hresult⟩ := Trapping.bind_eq_ok_iff.mp hresult
    cases hresult
    cases (hsaved data).symm.trans hfind
    have hsame : data = bytes :=
      Option.some.inj ((hkept data (hne data hdummy)).symm.trans hbytes)
    exact ⟨data, hdummy, hsame ▸ haccepted⟩
  · intro hdummy
    obtain ⟨data, hdummy, haccepted⟩ := hdummy
    exact ⟨_, _, data, by rw [hdummy]; rfl, hsaved data, hkept data (hne data hdummy), haccepted⟩

theorem Estimation.id_eq
    (h : Estimation services store id tx wallet walletAddress reported) : tx.id = id :=
  (Table.mem_of_find h.transaction_eq).2

/-- The list of the contract, when it is there. -/
theorem Estimation.list_of_available
    (h : Estimation services store id tx wallet walletAddress reported)
    {owners : List ChainAddress} (howners : owners ∈ reported) (hne : owners ≠ []) :
    ∃ list, ReplaceTwoFADomainService.remoteOwnersList services walletAddress = .ok (some list) ∧
      list.Represents owners := by
  apply ReplaceTwoFADomainService.remoteOwnersList_of_owners hne
  rw [h.owners_eq, Option.mem_def.mp howners]
  rfl

theorem Estimation.none_of_unavailable
    (h : Estimation services store id tx wallet walletAddress reported)
    (hnone : ∀ owners ∈ reported, owners = []) :
    ReplaceTwoFADomainService.remoteOwnersList services walletAddress = .ok none := by
  apply ReplaceTwoFADomainService.remoteOwnersList_of_none
  rw [h.owners_eq]
  cases hreported : reported with
  | none => exact .inl rfl
  | some owners =>
      rw [hnone owners hreported]
      exact .inr rfl

/-- The owners are reported, or nothing is. -/
theorem available_or (reported : Option (List ChainAddress)) :
    (∀ owners ∈ reported, owners = []) ∨ ∃ owners ∈ reported, owners ≠ [] := by
  by_cases hnone : ∀ owners ∈ reported, owners = []
  · exact .inl hnone
  · simp only [not_forall, exists_prop] at hnone
    exact .inr hnone

theorem followsReported_of_unavailable (hnone : ∀ owners ∈ reported, owners = [])
    (calls : List Data) : FollowsReported reported calls :=
  fun owners howners hne => absurd (hnone owners howners) hne

theorem forall_available_iff {owners : List ChainAddress} (howners : owners ∈ reported)
    (hne : owners ≠ []) {p : List ChainAddress → Prop} :
    (∀ owners ∈ reported, owners ≠ [] → p owners) ↔ p owners := by
  constructor
  · intro h
    exact h owners howners hne
  · intro h owners' howners' _
    rw [Option.mem_unique howners' howners]
    exact h

theorem followsReported_iff {owners : List ChainAddress} (howners : owners ∈ reported)
    (hne : owners ≠ []) (calls : List Data) :
    FollowsReported reported calls ↔ OwnerManager.AlongLinks owners calls :=
  forall_available_iff howners hne

end

/-! ## The three services -/

namespace ReplaceTwoFADomainService

variable {services : Services} {store : Store} {id : TransactionID} {tx : Transaction}
  {wallet : Wallet} {walletAddress : Address} {reported : Option (List ChainAddress)}

/-- The first owner of the contract is replaced, behind the sentinel. -/
theorem exists_dummyTransactionData
    (h : Estimation services store id tx wallet walletAddress reported) :
    ∃ data, dummyTransactionData services walletAddress = .ok data ∧ data ≠ [] ∧
      FollowsReported reported [data] := by
  have hlength : ∀ prevOwner old new : Address, swapOwner services.kit prevOwner old new ≠ [] :=
    fun prevOwner old new =>
      List.ne_nil_of_length_pos (by rw [length_swapOwner h.selectors]; norm_num)
  rcases available_or reported with hnone | ⟨owners, howners, hne⟩
  · refine ⟨swapOwner services.kit (Address.ofChain OwnerManager.sentinel) .zero .zero, ?_,
      hlength _ _ _, followsReported_of_unavailable hnone _⟩
    simp only [dummyTransactionData, h.none_of_unavailable hnone, Trapping.ok_bind,
      Option.bind_none, neighbourOfZero_eq, Trapping.pure_eq_ok]
  · obtain ⟨list, hlist, hrepresents⟩ := h.list_of_available howners hne
    obtain ⟨first, rest, rfl⟩ := List.exists_cons_of_ne_nil hne
    have hfirst : first ≠ OwnerManager.sentinel :=
      fun heq => h.sentinel _ howners (heq ▸ List.mem_cons_self)
    have hmem : (Address.ofChain first).onChain ∈ first :: rest := by
      rw [Address.onChain_ofChain]
      exact List.mem_cons_self
    obtain ⟨prev, hbefore, hpoints⟩ := hrepresents.addressBefore (Address.ofChain_spec first).1 hmem
      (by rwa [Address.onChain_ofChain])
    refine ⟨swapOwner services.kit (Address.ofChain prev) (Address.ofChain first) walletAddress, ?_,
      hlength _ _ _, ?_⟩
    · simp only [dummyTransactionData, hlist, Trapping.ok_bind, Option.bind_some,
        hrepresents.firstAddress hfirst, Option.map_some, hbefore, Trapping.pure_eq_ok]
    · rw [followsReported_iff howners hne]
      obtain ⟨hprev, hold, -⟩ := addressArgument_swapOwner h.selectors (Address.ofChain prev)
        (Address.ofChain first) walletAddress
      rw [OwnerManager.AlongLinks, hprev, hold, Address.onChain_ofChain]
      exact ⟨hpoints, trivial⟩

theorem addDummyData_eq (h : Estimation services store id tx wallet walletAddress reported)
    (now : Date) :
    addDummyData services store id now =
      dummyTransactionData services walletAddress >>= fun data =>
        .ok (store.saveTransaction (withCall tx wallet.address .call now data)) := by
  simp only [addDummyData, transaction, h.transaction_eq, requiredWallet, h.wallet_eq, h.address_eq,
    Trapping.unwrap_some, Trapping.ok_bind, Trapping.pure_eq_ok, withCall]

theorem addDummyData_stores (h : Estimation services store id tx wallet walletAddress reported)
    (now : Date) :
    Stores (addDummyData services store id now) id fun data => FollowsReported reported [data] := by
  obtain ⟨data, hdummy, hne, hfollows⟩ := exists_dummyTransactionData h
  rw [addDummyData_eq h, stores_iff h.id_eq]
  · exact ⟨data, hdummy, hfollows⟩
  · intro other hother
    cases hdummy.symm.trans hother
    exact hne

end ReplaceTwoFADomainService

namespace DisconnectTwoFADomainService

open ReplaceTwoFADomainService

variable {services : Services} {store : Store} {id : TransactionID} {tx : Transaction}
  {wallet : Wallet} {walletAddress : Address} {reported : Option (List ChainAddress)}

/-- The authenticator is one of the owners, or the pair that is made up without it happens to be
a link. -/
def EstimatesRemoval (wallet : Wallet) (owners : List ChainAddress) : Prop :=
  (∃ owner ∈ wallet.twoFAOwner, owner.address.onChain ∈ owners) ∨
    (owners.head? = some 0 ∧
      ∀ owner ∈ wallet.twoFAOwner, owner.address.onChain ≠ OwnerManager.sentinel)

theorem dummyTransactionData_ne_nil (hselectors : OwnerSelectors services.kit) {data : Data}
    (h : dummyTransactionData services wallet walletAddress = .ok data) : data ≠ [] := by
  have hlength : ∀ prevOwner owner : Address, removeOwner services.kit prevOwner owner 1 ≠ [] :=
    fun prevOwner owner =>
      List.ne_nil_of_length_pos (by rw [length_removeOwner hselectors]; norm_num)
  simp only [dummyTransactionData, Trapping.bind_eq_ok_iff] at h
  obtain ⟨remote, -, h⟩ := h
  split at h <;>
    · obtain ⟨prevOwner, -, h⟩ := Trapping.bind_eq_ok_iff.mp h
      cases h
      exact hlength _ _

/-- The made-up pair is a link exactly behind the sentinel. -/
theorem pointsTo_sentinel_iff {owners : List ChainAddress} {owner : ChainAddress}
    (hsentinel : OwnerManager.sentinel ∉ owners) :
    Linked.PointsTo OwnerManager.sentinel owners OwnerManager.sentinel owner ↔
      owners.head? = some owner := by
  constructor
  · intro h
    obtain ⟨front, back, h⟩ := h
    cases front with
    | nil =>
        cases h
        rfl
    | cons first front =>
        cases h
        simp at hsentinel
  · intro h
    obtain ⟨rest, rfl⟩ := List.head?_eq_some_iff.mp h
    exact ⟨[], rest, rfl⟩

/-- The call that is made up without the authenticator. -/
def madeUpCall (kit : EthereumKit) : Data :=
  removeOwner kit (Address.ofChain OwnerManager.sentinel) .zero 1

theorem madeUpCall_follows_iff {kit : EthereumKit} (hselectors : OwnerSelectors kit)
    {owners : List ChainAddress} (hsentinel : OwnerManager.sentinel ∉ owners) :
    OwnerManager.AlongLinks owners [madeUpCall kit] ↔ owners.head? = some 0 := by
  obtain ⟨hprev, howner⟩ := addressArgument_removeOwner hselectors
    (Address.ofChain OwnerManager.sentinel) .zero 1
  rw [Address.onChain_ofChain] at hprev
  rw [two_three_spec.2.2.2.2] at howner
  rw [OwnerManager.AlongLinks, madeUpCall, hprev, howner, pointsTo_sentinel_iff hsentinel]
  exact and_iff_left trivial

theorem dummyTransactionData_madeUp {list : Option OwnerLinkedList}
    (hlist : remoteOwnersList services walletAddress = .ok list)
    (hmissing : ∀ linkedList ∈ list, ∀ owner ∈ wallet.twoFAOwner,
      linkedList.contains owner.address = false) :
    dummyTransactionData services wallet walletAddress = .ok (madeUpCall services.kit) := by
  have hnone : (list.bind fun linkedList =>
      (wallet.twoFAOwner.filter fun owner => linkedList.contains owner.address).map
        fun owner => (linkedList, owner.address)) = none := by
    cases hsome : list with
    | none => rfl
    | some linkedList =>
        rw [Option.bind_some, Option.map_eq_none_iff]
        cases howner : wallet.twoFAOwner with
        | none => rfl
        | some owner => simp [hmissing linkedList hsome owner howner]
  simp only [dummyTransactionData, hlist, Trapping.ok_bind, hnone, neighbourOfZero_eq,
    Trapping.pure_eq_ok, madeUpCall]

theorem dummyTransactionData_of_contains {list : OwnerLinkedList} {owner : Owner}
    (hlist : remoteOwnersList services walletAddress = .ok (some list))
    (howner : wallet.twoFAOwner = some owner) (hthere : list.contains owner.address = true) :
    dummyTransactionData services wallet walletAddress =
      list.addressBefore owner.address >>= fun prevOwner =>
        .ok (removeOwner services.kit prevOwner owner.address 1) := by
  have hfilter : (wallet.twoFAOwner.filter fun owner => list.contains owner.address) =
      some owner := by
    rw [howner, Option.filter_some, if_pos hthere]
  simp only [dummyTransactionData, hlist, Trapping.ok_bind, Option.bind_some, hfilter,
    Option.map_some, Trapping.pure_eq_ok]

theorem dummyTransactionData_follows_iff
    (h : Estimation services store id tx wallet walletAddress reported) :
    (∃ data, dummyTransactionData services wallet walletAddress = .ok data ∧
        FollowsReported reported [data]) ↔
      ∀ owners ∈ reported, owners ≠ [] → EstimatesRemoval wallet owners := by
  rcases available_or reported with hnone | ⟨owners, howners, hne⟩
  · have hdata : dummyTransactionData services wallet walletAddress =
        .ok (madeUpCall services.kit) :=
      dummyTransactionData_madeUp (h.none_of_unavailable hnone) fun _ hmem => by cases hmem
    exact iff_of_true ⟨_, hdata, followsReported_of_unavailable hnone _⟩ fun owners howners hne =>
      absurd (hnone owners howners) hne
  · have hsentinel := h.sentinel owners howners
    obtain ⟨list, hlist, hrepresents⟩ := h.list_of_available howners hne
    rw [forall_available_iff howners hne, EstimatesRemoval]
    simp only [followsReported_iff howners hne]
    by_cases hthere : ∃ owner ∈ wallet.twoFAOwner, list.contains owner.address = true
    · obtain ⟨owner, howner, hthere⟩ := hthere
      have hwf := h.authenticator owner howner
      rw [dummyTransactionData_of_contains hlist howner hthere, Option.mem_def.mp howner]
      rcases (hrepresents.contains hwf).mp hthere with heq | hmem
      · -- the sentinel is found in the copy, and nothing stands before it
        simp [hrepresents.addressBefore_sentinel hwf heq, heq, hsentinel]
      · have hvalid : owner.address.onChain ≠ OwnerManager.sentinel :=
          fun heq => hsentinel (heq ▸ hmem)
        obtain ⟨prev, hbefore, hpoints⟩ := hrepresents.addressBefore hwf hmem hvalid
        obtain ⟨hprev, hold⟩ := addressArgument_removeOwner h.selectors (Address.ofChain prev)
          owner.address 1
        refine iff_of_true ⟨_, by rw [hbefore, Trapping.ok_bind], ?_⟩ (.inl ⟨owner, rfl, hmem⟩)
        rw [OwnerManager.AlongLinks, hprev, hold, Address.onChain_ofChain]
        exact ⟨hpoints, trivial⟩
    · have hmissing : ∀ owner ∈ wallet.twoFAOwner, list.contains owner.address = false := by
        intro owner howner
        rw [← Bool.not_eq_true]
        exact fun hcontains => hthere ⟨owner, howner, hcontains⟩
      have hdata := dummyTransactionData_madeUp hlist fun linkedList hlinked owner howner => by
        cases hlinked
        exact hmissing owner howner
      have habsent : ∀ owner ∈ wallet.twoFAOwner, owner.address.onChain ≠ OwnerManager.sentinel ∧
          owner.address.onChain ∉ owners := by
        intro owner howner
        have hnot := (hrepresents.contains (h.authenticator owner howner)).not.mp
          (by simp [hmissing owner howner])
        exact not_or.mp hnot
      simp only [hdata, Except.ok.injEq, exists_eq_left',
        madeUpCall_follows_iff h.selectors hsentinel]
      constructor
      · intro hhead
        exact .inr ⟨hhead, fun owner howner => (habsent owner howner).1⟩
      · intro hremoval
        rcases hremoval with ⟨owner, howner, hmem⟩ | ⟨hhead, -⟩
        · exact absurd hmem (habsent owner howner).2
        · exact hhead

theorem addDummyData_eq (h : Estimation services store id tx wallet walletAddress reported)
    (now : Date) :
    addDummyData services store id now =
      dummyTransactionData services wallet walletAddress >>= fun data =>
        .ok (store.saveTransaction (withCall tx wallet.address .call now data)) := by
  simp only [addDummyData, transaction, h.transaction_eq, requiredWallet, h.wallet_eq, h.address_eq,
    Trapping.unwrap_some, Trapping.ok_bind, Trapping.pure_eq_ok, withCall]

theorem addDummyData_stores_iff
    (h : Estimation services store id tx wallet walletAddress reported) (now : Date) :
    (Stores (addDummyData services store id now) id fun data =>
        FollowsReported reported [data]) ↔
      ∀ owners ∈ reported, owners ≠ [] → EstimatesRemoval wallet owners := by
  rw [addDummyData_eq h, stores_iff h.id_eq fun _ => dummyTransactionData_ne_nil h.selectors,
    dummyTransactionData_follows_iff h]

end DisconnectTwoFADomainService

namespace ReplaceRecoveryPhraseDomainService

open ReplaceTwoFADomainService

variable {services : Services} {store : Store} {id : TransactionID} {tx : Transaction}
  {wallet : Wallet} {walletAddress : Address} {reported : Option (List ChainAddress)}

theorem batch_ne_nil (walletAddress : Address) (calls : List Data) :
    batch services walletAddress calls ≠ [] := by
  apply List.ne_nil_of_length_pos
  simp only [batch, MultiSend.multiSend, MultiSend.encodeArguments, ContractProxy.invocation,
    List.flatten_cons, List.length_append, ContractProxy.length_encodeUInt]
  omega

/-- The data is a batch of calls to the wallet that follow the links. -/
def FollowsBatch (services : Services) (walletAddress : Address)
    (reported : Option (List ChainAddress)) (data : Data) : Prop :=
  ∃ calls, MultiSend.decodeMultiSendArguments services.kit
      services.metadata.multiSendContractAddress services.metadata.multiSend
      services.metadata.multiSendContractAddress data =
        .ok (some (calls.map fun call => ⟨.call, walletAddress.normalized, 0, call⟩)) ∧
    FollowsReported reported calls

/-- The first two owners of a list, and the two that are made up to replace them. -/
theorem exists_transactionData (hselectors : OwnerSelectors services.kit)
    (haddress : walletAddress.WellFormed) {list : OwnerLinkedList} {first second : ChainAddress}
    {rest : List ChainAddress} (hrepresents : list.Represents (first :: second :: rest))
    (hne : second ≠ first) (hfirst : first ≠ OwnerManager.sentinel)
    (hsecond : second ≠ OwnerManager.sentinel) {old₁ old₂ : Address} (hwf₁ : old₁.WellFormed)
    (hwf₂ : old₂.WellFormed) (hold₁ : old₁.onChain = first) (hold₂ : old₂.onChain = second) :
    ∃ calls, transactionData services walletAddress list [old₁, old₂] [.two, .three] =
        .ok (some (batch services walletAddress calls)) ∧
      MultiSend.decodeMultiSendArguments services.kit services.metadata.multiSendContractAddress
          services.metadata.multiSend services.metadata.multiSendContractAddress
          (batch services walletAddress calls) =
        .ok (some (calls.map fun call => ⟨.call, walletAddress.normalized, 0, call⟩)) ∧
      OwnerManager.AlongLinks (first :: second :: rest) calls := by
  obtain ⟨htwo, hthree, -⟩ := two_three_spec
  let pairs := [(old₁, Address.two), (old₂, Address.three)]
  have hwf : ∀ pair ∈ pairs, pair.1.WellFormed ∧ pair.2.WellFormed := by
    simp only [pairs, List.mem_cons, List.not_mem_nil, or_false, forall_eq_or_imp, forall_eq]
    exact ⟨⟨hwf₁, htwo⟩, hwf₂, hthree⟩
  have hpresent : OwnerSwap.Present (first :: second :: rest) pairs := by
    simp only [pairs, OwnerSwap.Present, hold₁, hold₂, and_true]
    exact ⟨List.mem_cons_self, hfirst, Linked.mem_replace_of_ne (by simp) hne, hsecond⟩
  obtain ⟨swaps, hcalls, hpairs, hlinked⟩ :=
    OwnerSwap.swapCalls_linked services.kit hrepresents hwf hpresent
  have hlength : (swaps.map (OwnerSwap.data services.kit)).length ≤ 2 := by
    rw [List.length_map, ← List.length_map (f := OwnerSwap.pair), hpairs]
    exact le_rfl
  have hshort : ∀ call ∈ swaps.map (OwnerSwap.data services.kit), call.length ≤ 100 := by
    intro call hcall
    obtain ⟨swap, -, rfl⟩ := List.mem_map.mp hcall
    exact (OwnerSwap.length_data hselectors swap).le
  refine ⟨swaps.map (OwnerSwap.data services.kit), ?_,
    RecoveryTransactionBuilder.decode_batch (Address.Respelled.refl _) haddress hlength hshort,
    hlinked.alongLinks hselectors⟩
  simp only [transactionData, List.length_cons, List.length_nil, ↓reduceIte, List.zip_cons_cons,
    List.zip_nil_left]
  simp only [pairs] at hcalls
  rw [hcalls]
  rfl

/-- The list of the two owners that are made up. -/
theorem exists_madeUp : ∃ list, dummyOwners.madeUp = .ok (list, [.two, .three]) ∧
    list.Represents [2, 3] := by
  obtain ⟨htwo, hthree, honChain, honChain', -⟩ := two_three_spec
  obtain ⟨list, hlist, hrepresents⟩ := OwnerLinkedList.represents_add_empty htwo
  obtain ⟨list', hlist', hrepresents'⟩ := hrepresents.add hthree
  rw [honChain, honChain'] at hrepresents'
  refine ⟨list', ?_, hrepresents'⟩
  simp only [dummyOwners.madeUp, hlist, Trapping.ok_bind, hlist', Trapping.pure_eq_ok]

theorem dummyOwners_eq {list : OwnerLinkedList} {first : ChainAddress}
    {others : List ChainAddress} (hlist : remoteOwnersList services walletAddress = .ok (some list))
    (hrepresents : list.Represents (first :: others)) (hfirst : first ≠ OwnerManager.sentinel) :
    dummyOwners services walletAddress = .ok (list,
      [Address.ofChain first, Address.ofChain (others.headD OwnerManager.sentinel)]) := by
  simp only [dummyOwners, hlist, Trapping.ok_bind, Option.bind_some,
    hrepresents.firstAddress hfirst, Option.map_some, hrepresents.addressAfter hfirst,
    Trapping.pure_eq_ok]

/-- After the only owner comes the sentinel, and nothing stands before it. -/
theorem dummyTransactionData_of_single {list : OwnerLinkedList} {first : ChainAddress}
    (hlist : remoteOwnersList services walletAddress = .ok (some list))
    (hrepresents : list.Represents [first]) (hfirst : first ≠ OwnerManager.sentinel) :
    dummyTransactionData services walletAddress = .error .precondition := by
  have hwf := (Address.ofChain_spec first).1
  have hmem : (Address.ofChain first).onChain ∈ [first] := by
    rw [Address.onChain_ofChain]
    exact List.mem_cons_self
  have hvalid : (Address.ofChain first).onChain ≠ OwnerManager.sentinel := by
    rwa [Address.onChain_ofChain]
  have htraps : swapCalls services.kit list [(Address.ofChain first, .two),
      (Address.ofChain OwnerManager.sentinel, .three)] = .error .precondition := by
    obtain ⟨prev, hbefore, -⟩ := hrepresents.addressBefore hwf hmem hvalid
    have hswapped := hrepresents.replace hwf two_three_spec.1 hmem hvalid
    have hnothing := hswapped.addressBefore_sentinel
      (Address.ofChain_spec OwnerManager.sentinel).1
      (Address.onChain_ofChain OwnerManager.sentinel)
    simp only [swapCalls, hbefore, Trapping.ok_bind, hnothing]
    rfl
  simp only [dummyTransactionData, dummyOwners_eq hlist hrepresents hfirst, Trapping.ok_bind,
    transactionData, List.headD_nil, List.zip_cons_cons, List.zip_nil_left, List.length_cons,
    List.length_nil, ↓reduceIte, htraps]
  rfl

/-- The owners that are reported are two at least, or none. -/
theorem dummyTransactionData_follows_iff
    (h : Estimation services store id tx wallet walletAddress reported) :
    (∃ data, dummyTransactionData services walletAddress = .ok data ∧
        FollowsBatch services walletAddress reported data) ↔
      ∀ owners ∈ reported, owners.length ≠ 1 := by
  rcases available_or reported with hnone | ⟨owners, howners, hne⟩
  · obtain ⟨list, hmade, hrepresents⟩ := exists_madeUp
    obtain ⟨htwo, hthree, honChain, honChain', -⟩ := two_three_spec
    obtain ⟨calls, hdata, hdecode, -⟩ := exists_transactionData h.selectors h.address_wellFormed
      hrepresents (by decide) (by decide) (by decide) htwo hthree honChain honChain'
    refine iff_of_true ⟨_, ?_, calls, hdecode, followsReported_of_unavailable hnone _⟩ ?_
    · simp only [dummyTransactionData, dummyOwners, h.none_of_unavailable hnone, Trapping.ok_bind,
        Option.bind_none, hmade, hdata, Trapping.unwrap_some]
    · intro owners howners
      rw [hnone owners howners]
      simp
  · obtain ⟨list, hlist, hrepresents⟩ := h.list_of_available howners hne
    have hsentinel := h.sentinel owners howners
    have hnodup := h.nodup owners howners
    obtain ⟨first, others, rfl⟩ := List.exists_cons_of_ne_nil hne
    have hfirst : first ≠ OwnerManager.sentinel := fun heq => hsentinel (heq ▸ List.mem_cons_self)
    have hdummy := dummyOwners_eq hlist hrepresents hfirst
    cases others with
    | nil =>
        refine iff_of_false ?_ fun hlength => hlength [first] howners rfl
        rintro ⟨data, hdata, -⟩
        rw [dummyTransactionData_of_single hlist hrepresents hfirst] at hdata
        cases hdata
    | cons second rest =>
        have hsecond : second ≠ OwnerManager.sentinel := fun heq => hsentinel (by simp [heq])
        have hdiffer : second ≠ first := fun heq => by simp [heq] at hnodup
        obtain ⟨calls, hdata, hdecode, hlinks⟩ := exists_transactionData h.selectors
          h.address_wellFormed hrepresents hdiffer hfirst hsecond (Address.ofChain_spec first).1
          (Address.ofChain_spec second).1 (Address.onChain_ofChain first)
          (Address.onChain_ofChain second)
        refine iff_of_true
          ⟨_, ?_, calls, hdecode, (followsReported_iff howners hne calls).mpr hlinks⟩ ?_
        · simp only [dummyTransactionData, hdummy, Trapping.ok_bind, List.headD_cons, hdata,
            Trapping.unwrap_some]
        · intro owners' howners'
          rw [Option.mem_unique howners' howners]
          simp

theorem addDummyData_eq (h : Estimation services store id tx wallet walletAddress reported)
    (now : Date) :
    ∃ recipient, addDummyData services store id now =
      dummyTransactionData services walletAddress >>= fun data =>
        .ok (store.saveTransaction (withCall tx (some recipient) .delegateCall now data)) := by
  obtain ⟨recipient, hrecipient, -⟩ := services.kit.formatted_of_wellFormed h.multiSend
  refine ⟨recipient, ?_⟩
  simp only [addDummyData, transaction, h.transaction_eq, requiredWallet, h.wallet_eq, h.address_eq,
    hrecipient, Trapping.unwrap_some, Trapping.ok_bind, Trapping.pure_eq_ok, withCall]

theorem dummyTransactionData_ne_nil {data : Data}
    (h : dummyTransactionData services walletAddress = .ok data) : data ≠ [] := by
  simp only [dummyTransactionData, Trapping.bind_eq_ok_iff] at h
  obtain ⟨⟨list, old⟩, -, made, hmade, h⟩ := h
  cases Trapping.unwrap_eq_ok_iff.mp h
  unfold transactionData at hmade
  split at hmade
  · obtain ⟨calls, -, hmade⟩ := Trapping.bind_eq_ok_iff.mp hmade
    cases hmade
    exact batch_ne_nil walletAddress calls
  · cases hmade

theorem addDummyData_stores_iff
    (h : Estimation services store id tx wallet walletAddress reported) (now : Date) :
    Stores (addDummyData services store id now) id (FollowsBatch services walletAddress reported) ↔
      ∀ owners ∈ reported, owners.length ≠ 1 := by
  obtain ⟨recipient, heq⟩ := addDummyData_eq h now
  rw [heq, stores_iff h.id_eq fun _ => dummyTransactionData_ne_nil,
    dummyTransactionData_follows_iff h]

end ReplaceRecoveryPhraseDomainService

/-- All three services store data that follows the links, exactly when the contract has no
single owner and the authenticator is one of its owners. -/
theorem addDummyData_follows_iff {services : Services} {store : Store} {id : TransactionID}
    {tx : Transaction} {wallet : Wallet} {walletAddress : Address}
    {reported : Option (List ChainAddress)} (now : Date)
    (h : Estimation services store id tx wallet walletAddress reported) :
    ((Stores (ReplaceTwoFADomainService.addDummyData services store id now) id fun data =>
        FollowsReported reported [data]) ∧
      (Stores (DisconnectTwoFADomainService.addDummyData services store id now) id fun data =>
        FollowsReported reported [data]) ∧
      Stores (ReplaceRecoveryPhraseDomainService.addDummyData services store id now) id
        (ReplaceRecoveryPhraseDomainService.FollowsBatch services walletAddress reported)) ↔
      ∀ owners ∈ reported, owners.length ≠ 1 ∧
        (owners ≠ [] → DisconnectTwoFADomainService.EstimatesRemoval wallet owners) := by
  rw [DisconnectTwoFADomainService.addDummyData_stores_iff h,
    ReplaceRecoveryPhraseDomainService.addDummyData_stores_iff h]
  constructor
  · intro hstores owners howners
    exact ⟨hstores.2.2 owners howners, hstores.2.1 owners howners⟩
  · intro hreported
    exact ⟨ReplaceTwoFADomainService.addDummyData_stores h now,
      fun owners howners => (hreported owners howners).2,
      fun owners howners => (hreported owners howners).1⟩

section Example

open RecoveryTransactionBuilder ReplaceRecoveryPhraseDomainService

/-- A draft of a change of owners. -/
def ownerChangeDraft : Transaction :=
  .new "owners" .replaceRecoveryPhrase ⟨Token.Ether.id, "wallet"⟩ 0

/-- The wallet, the key of the new phrase and a draft. -/
def estimatedStore : Store := phraseStore.saveTransaction ownerChangeDraft

/-- A contract that only the authenticator controls. -/
def singleManager : OwnerManager where
  owners := [authenticatorAddress]
  threshold := 1
  nodup := by decide
  valid := by simp [authenticatorAddress]

theorem estimation (manager : OwnerManager) (hsmall : manager.owners.length < 10) :
    Estimation (phraseServices manager) estimatedStore "owners"
      (Transactions.persisted ownerChangeDraft) phraseWallet safe (some manager.owners) := by
  have hanswers : Answers (phraseServices manager) safe manager := answers_answering
  have howners := getOwners_eq hanswers
  rw [if_pos (by omega)] at howners
  refine ⟨recoveryKit_selectors, recoveryMetadata_wellFormed, find_saveTransaction rfl, rfl, rfl,
    (Address.ofChain_spec _).1, ?_, howners, ?_, ?_⟩
  · intro owner howner
    cases howner
    exact (Address.ofChain_spec _).1
  · intro owners heq
    cases heq
    exact manager.nodup
  · intro owners heq hmem
    cases heq
    exact (manager.valid _ hmem).2 rfl

theorem estimatesRemoval_of_mem {owners : List ChainAddress} (h : authenticatorAddress ∈ owners) :
    DisconnectTwoFADomainService.EstimatesRemoval phraseWallet owners := by
  refine .inl ⟨⟨.ofChain authenticatorAddress, .browserExtension⟩, rfl, ?_⟩
  rwa [Address.onChain_ofChain]

/-- Of a contract with four owners the fees can be estimated. -/
theorem addDummyData_follows_iff_four :
    Stores (ReplaceRecoveryPhraseDomainService.addDummyData (phraseServices retriedManager)
      estimatedStore "owners" 1) "owners"
        (FollowsBatch (phraseServices retriedManager) safe (some retriedManager.owners)) := by
  refine ((addDummyData_follows_iff 1 (estimation retriedManager (by decide))).mpr ?_).2.2
  intro owners howners
  cases howners
  exact ⟨by decide, fun _ => estimatesRemoval_of_mem (by decide)⟩

/-- The data for a new phrase cannot be made up when the contract has one owner. -/
theorem singleManager_stops :
    Estimation (phraseServices singleManager) estimatedStore "owners"
      (Transactions.persisted ownerChangeDraft) phraseWallet safe (some singleManager.owners) ∧
    ReplaceRecoveryPhraseDomainService.addDummyData (phraseServices singleManager)
      estimatedStore "owners" 1 = .error .precondition := by
  have hestimation := estimation singleManager (by decide)
  obtain ⟨list, hlist, hrepresents⟩ := hestimation.list_of_available rfl (by decide)
  obtain ⟨recipient, heq⟩ := ReplaceRecoveryPhraseDomainService.addDummyData_eq hestimation 1
  refine ⟨hestimation, ?_⟩
  rw [heq, dummyTransactionData_of_single hlist hrepresents (by decide)]
  rfl

end Example

end SafeWallet
