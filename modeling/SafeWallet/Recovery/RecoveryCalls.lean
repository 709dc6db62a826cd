/-
# The calls in the recovery transaction

The builder plans every call on its copy of the owner list. Each planning step is
followed here together with the contract: if the copy stands for the contract's
owners, executing the planned call is the step of the plan, and the new copy stands
for the new owners. The calls end up in the transaction, alone or as a batch.
-/

import SafeWallet.Recovery.OwnerChange

namespace SafeWallet

open SafeOwnerManagerContractProxy

namespace RecoveryTransactionBuilder

/-- The owners a wallet is to have after its recovery. -/
structure RecoveryOwners where
  device : Address
  paper : Address
  derived : Address
  authenticator : Option Address
  deriving DecidableEq, Repr

/-- Every owner with a role of its own is the one found by its role. -/
def UniqueRoles (wallet : Wallet) : Prop :=
  ∀ owner ∈ wallet.owners, owner.role ≠ .unknown → wallet.owner owner.role = some owner

/-- The local wallet of a recovery and its owners. -/
structure RecoveryOwners.OfWallet (owners : RecoveryOwners) (wallet : Wallet) : Prop where
  device : wallet.owner .thisDevice = some ⟨owners.device, .thisDevice⟩
  paper : wallet.owner .paperWallet = some ⟨owners.paper, .paperWallet⟩
  derived : wallet.owner .paperWalletDerived = some ⟨owners.derived, .paperWalletDerived⟩
  authenticator : ((wallet.owner .browserExtension).or (wallet.owner .keycard)).map Owner.address =
    owners.authenticator
  unique : UniqueRoles wallet
  wellFormed : ∀ owner ∈ wallet.owners, owner.address.WellFormed

/-! ## Planning steps -/

section Steps

variable {services : Services} {builder : RecoveryTransactionBuilder} {role : OwnerRole}
  {owner : Owner} {copied rest : List ChainAddress} {first : ChainAddress}

/-- The builder's copy and the owners it may still replace. -/
structure Tracks (builder : RecoveryTransactionBuilder) (copied rest : List ChainAddress) :
    Prop where
  list : builder.ownerList.Represents copied
  modifiable : builder.modifiableOwners = rest.map fun x => ⟨Address.ofChain x, .unknown⟩

/-- The planned data that are calls. -/
def calls (data : List Data) : List Data := data.filter (· ≠ [])

theorem executeAll_calls_cons (manager : OwnerManager) (data : Data) (others : List Data) :
    manager.executeAll (calls (data :: others)) =
      (manager.executeAll (calls [data])).bind fun manager => manager.executeAll (calls others) := by
  have hsplit : calls (data :: others) = calls [data] ++ calls others := by
    rw [calls, ← List.singleton_append, List.filter_append]
    rfl
  rw [hsplit, OwnerManager.executeAll, List.foldlM_append]
  rfl

theorem executeAll_calls_single (manager : OwnerManager) {data : Data} (hne : data ≠ []) :
    manager.executeAll (calls [data]) = manager.execute data := by
  simp [calls, hne, OwnerManager.executeAll]

/-- The step that puts an owner in the place of the first replaceable one. -/
theorem swapOwnerData_spec (hselectors : OwnerSelectors services.kit)
    (h : builder.Tracks copied (first :: rest)) (hmem : first ∈ copied)
    (hsentinel : first ≠ OwnerManager.sentinel) (howner : builder.wallet.owner role = some owner)
    (hwf : owner.address.WellFormed) :
    ∃ builder' data, builder.swapOwnerData services role = .ok (builder', data) ∧
      builder'.wallet = builder.wallet ∧ builder'.walletAddress = builder.walletAddress ∧
      builder'.newScheme = builder.newScheme ∧
      builder'.Tracks (if owner.address.onChain = first then copied
        else copied.replace first owner.address.onChain) rest ∧
      data.length ≤ 100 ∧ (data = [] ↔ owner.address.onChain = first) ∧
      ∀ manager : OwnerManager, manager.owners = copied →
        manager.executeAll (calls [data]) = manager.exchange first owner.address.onChain := by
  have hfirst := (Address.ofChain_spec first).1
  have honChain := Address.onChain_ofChain first
  have hmem' : (Address.ofChain first).onChain ∈ copied := by rwa [honChain]
  have hsentinel' : (Address.ofChain first).onChain ≠ OwnerManager.sentinel := by rwa [honChain]
  obtain ⟨prev, hbefore, hpoints⟩ := h.list.addressBefore hfirst hmem' hsentinel'
  rw [honChain] at hpoints
  simp only [swapOwnerData, h.modifiable, List.map_cons, hbefore, Trapping.ok_bind, howner,
    Trapping.unwrap_some, hwf.normalized_eq_iff hfirst, honChain]
  by_cases hsame : owner.address.onChain = first
  · rw [if_pos hsame]
    refine ⟨_, _, rfl, rfl, rfl, rfl, ?_, by simp, by simp [hsame], fun manager _ => ?_⟩
    · rw [if_pos hsame]
      exact ⟨h.list, rfl⟩
    · simp [calls, OwnerManager.executeAll, OwnerManager.exchange, hsame]
  · rw [if_neg hsame]
    have hlength := length_swapOwner hselectors (Address.ofChain prev) (Address.ofChain first)
      owner.address
    have hne : swapOwner services.kit (Address.ofChain prev) (Address.ofChain first)
        owner.address ≠ [] := List.ne_nil_of_length_pos (by omega)
    refine ⟨_, _, rfl, rfl, rfl, rfl, ?_, hlength.le, by simp [hne, hsame], fun manager hmanager => ?_⟩
    · rw [if_neg hsame]
      have hreplace := h.list.replace hfirst hwf hmem' hsentinel'
      rw [honChain] at hreplace
      exact ⟨hreplace, rfl⟩
    · rw [executeAll_calls_single manager hne, execute_swapOwner hselectors,
        Address.onChain_ofChain, Address.onChain_ofChain]
      rw [← hmanager] at hpoints
      exact OwnerManager.swapOwner_eq_exchange hpoints hsame

/-- The step that adds an owner, unless the copy has it. -/
theorem addOwnerData_spec (hselectors : OwnerSelectors services.kit)
    (h : builder.ownerList.Represents copied) (howner : builder.wallet.owner role = some owner)
    (hwf : owner.address.WellFormed) :
    ∃ builder' data, builder.addOwnerData services role = .ok (builder', data) ∧
      builder'.walletAddress = builder.walletAddress ∧
      builder'.wallet.confirmationCount =
        (if owner.address.onChain = OwnerManager.sentinel ∨ owner.address.onChain ∈ copied then
          builder.wallet.confirmationCount else builder.newScheme.confirmations) ∧
      data.length ≤ 100 ∧
      (data = [] ↔ owner.address.onChain = OwnerManager.sentinel ∨ owner.address.onChain ∈ copied) ∧
      ∀ manager : OwnerManager, manager.owners = copied →
        manager.executeAll (calls [data]) =
          if owner.address.onChain = OwnerManager.sentinel ∨ owner.address.onChain ∈ copied then
            some manager
          else manager.addOwnerWithThreshold owner.address.onChain
            (BitVec.ofNat 256 builder.newScheme.confirmations) := by
  have hcontains := h.contains hwf
  simp only [addOwnerData, howner, Trapping.unwrap_some, Trapping.ok_bind]
  by_cases hthere : owner.address.onChain = OwnerManager.sentinel ∨ owner.address.onChain ∈ copied
  · simp only [hcontains.mpr hthere, ↓reduceIte, hthere]
    exact ⟨_, _, rfl, rfl, rfl, by simp, by simp,
      fun manager _ => by simp [calls, OwnerManager.executeAll]⟩
  · have hnot : builder.ownerList.contains owner.address = false := by
      rw [← Bool.not_eq_true]
      exact fun hc => hthere (hcontains.mp hc)
    obtain ⟨ownerList, hadd, -⟩ := h.add hwf
    have hlength := length_addOwner hselectors owner.address builder.newScheme.confirmations
    have hne : addOwner services.kit owner.address builder.newScheme.confirmations ≠ [] :=
      List.ne_nil_of_length_pos (by omega)
    simp only [hnot, Bool.false_eq_true, ↓reduceIte, hadd, Trapping.ok_bind, hthere]
    refine ⟨_, _, rfl, rfl, rfl, by omega, by simp [hne], fun manager _ => ?_⟩
    rw [executeAll_calls_single manager hne, execute_addOwner hselectors]

/-- The step that removes the next replaceable owner. -/
theorem removeOwnerData_spec (hselectors : OwnerSelectors services.kit)
    (h : builder.Tracks copied (first :: rest)) (hmem : first ∈ copied)
    (hsentinel : first ≠ OwnerManager.sentinel) :
    ∃ builder' data, builder.removeOwnerData services = .ok (builder', data) ∧
      builder'.walletAddress = builder.walletAddress ∧
      builder'.wallet.confirmationCount = builder.newScheme.confirmations ∧
      data.length ≤ 100 ∧
      ∀ manager : OwnerManager, manager.owners = copied →
        manager.executeAll (calls [data]) =
          manager.discard first (BitVec.ofNat 256 builder.newScheme.confirmations) := by
  have hfirst := (Address.ofChain_spec first).1
  have honChain := Address.onChain_ofChain first
  have hmem' : (Address.ofChain first).onChain ∈ copied := by rwa [honChain]
  have hsentinel' : (Address.ofChain first).onChain ≠ OwnerManager.sentinel := by rwa [honChain]
  obtain ⟨prev, hbefore, hpoints⟩ := h.list.addressBefore hfirst hmem' hsentinel'
  have hlength := length_removeOwner hselectors (Address.ofChain prev) (Address.ofChain first)
    builder.newScheme.confirmations
  have hne : removeOwner services.kit (Address.ofChain prev) (Address.ofChain first)
      builder.newScheme.confirmations ≠ [] := List.ne_nil_of_length_pos (by omega)
  simp only [removeOwnerData, h.modifiable, List.map_cons, hbefore, Trapping.ok_bind]
  refine ⟨_, _, rfl, rfl, rfl, hlength.le, fun manager hmanager => ?_⟩
  rw [honChain, ← hmanager] at hpoints
  rw [executeAll_calls_single manager hne, execute_removeOwner hselectors,
    Address.onChain_ofChain, honChain]
  exact OwnerManager.removeOwner_eq_discard hpoints

end Steps

/-! ## The transaction -/

/-- The calls a transaction makes to a wallet's contract: none or one on its own,
several through the batch contract. -/
inductive MakesCalls (services : Services) (walletAddress : Address) (tx : Transaction) :
    List Data → Prop
  | none (hoperation : tx.operation = some .call) (hrecipient : tx.recipient = some walletAddress)
      (hdata : tx.data = .none) : MakesCalls services walletAddress tx []
  | single {call : Data} (hoperation : tx.operation = some .call)
      (hrecipient : tx.recipient = some walletAddress) (hdata : tx.data = some call) :
      MakesCalls services walletAddress tx [call]
  | batch {recipient : Address} {calls : List Data} (hoperation : tx.operation = some .delegateCall)
      (hrecipient : tx.recipient = some recipient)
      (hcontract : services.metadata.multiSendContractAddress.Respelled recipient)
      (hdata : MultiSend.decodeMultiSendArguments services.kit
        services.metadata.multiSendContractAddress services.metadata.multiSend recipient tx.ethData =
          .ok (some (calls.map fun data => ⟨.call, walletAddress.normalized, 0, data⟩))) :
      MakesCalls services walletAddress tx calls

/-- A transaction makes one list of calls. -/
theorem MakesCalls.unique {services : Services} {walletAddress : Address} {tx : Transaction}
    {made made' : List Data} (h : MakesCalls services walletAddress tx made)
    (h' : MakesCalls services walletAddress tx made') : made = made' := by
  have hinjective : Function.Injective fun data : Data =>
      (⟨.call, walletAddress.normalized, 0, data⟩ : MultiSendTransaction) := by
    intro first second heq
    exact congrArg MultiSendTransaction.data heq
  cases h with
  | none hoperation _ hdata =>
      cases h' with
      | none => rfl
      | single _ _ hdata' =>
          rw [hdata] at hdata'
          cases hdata'
      | batch hoperation' =>
          rw [hoperation] at hoperation'
          cases hoperation'
  | single hoperation _ hdata =>
      cases h' with
      | none _ _ hdata' =>
          rw [hdata] at hdata'
          cases hdata'
      | single _ _ hdata' =>
          rw [hdata] at hdata'
          cases hdata'
          rfl
      | batch hoperation' =>
          rw [hoperation] at hoperation'
          cases hoperation'
  | batch hoperation hrecipient _ hdata =>
      cases h' with
      | none hoperation' =>
          rw [hoperation] at hoperation'
          cases hoperation'
      | single hoperation' =>
          rw [hoperation] at hoperation'
          cases hoperation'
      | batch _ hrecipient' _ hdata' =>
          rw [hrecipient] at hrecipient'
          cases hrecipient'
          rw [hdata] at hdata'
          exact hinjective.list_map (Option.some.inj (Except.ok.inj hdata'))

/-- A batch of calls to the wallet is read back from its data. -/
theorem decode_batch {services : Services} {walletAddress recipient : Address}
    (hcontract : services.metadata.multiSendContractAddress.Respelled recipient)
    (haddress : walletAddress.WellFormed) {made : List Data} (htwo : made.length ≤ 2)
    (hlength : ∀ call ∈ made, call.length ≤ 100) :
    MultiSend.decodeMultiSendArguments services.kit services.metadata.multiSendContractAddress
        services.metadata.multiSend recipient
        (MultiSend.multiSend services.kit services.metadata.multiSendContractAddress
          services.metadata.multiSend Address.zero
          (made.map fun data => ⟨.call, walletAddress, 0, data⟩)) =
      .ok (some (made.map fun data => ⟨.call, walletAddress.normalized, 0, data⟩)) := by
  have hzero : MultiSend.multiSend services.kit services.metadata.multiSendContractAddress
      services.metadata.multiSend Address.zero
      (made.map fun data => ⟨.call, walletAddress, 0, data⟩) =
      MultiSend.multiSend services.kit services.metadata.multiSendContractAddress
        services.metadata.multiSend services.metadata.multiSendContractAddress
        (made.map fun data => ⟨.call, walletAddress, 0, data⟩) := by
    simp [MultiSend.multiSend]
  rw [hzero, MultiSend.decodeMultiSendArguments_multiSend _ _ _ hcontract]
  · simp [MultiSend.normalized, Function.comp_def]
  · intro transaction hmem
    obtain ⟨call, hcall, rfl⟩ := List.mem_map.mp hmem
    have := hlength call hcall
    exact ⟨haddress, by simp, by norm_num, by simp only; omega⟩
  · have hsum : ∀ made : List Data, (∀ call ∈ made, call.length ≤ 100) →
        ((made.map fun data => (⟨.call, walletAddress, 0, data⟩ :
          MultiSendTransaction)).map fun t => 256 + t.data.length).sum ≤ made.length * 356 := by
      intro made
      induction made with
      | nil => simp
      | cons first rest ih =>
          intro h
          have := h first List.mem_cons_self
          have := ih fun call hcall => h call (List.mem_cons_of_mem _ hcall)
          simp only [List.map_cons, List.sum_cons, List.length_cons]
          omega
    have := hsum made hlength
    omega

/-- The planned calls are in the transaction. -/
theorem buildTransactionData_spec {services : Services} {builder : RecoveryTransactionBuilder}
    (hcontract : services.metadata.multiSendContractAddress.WellFormed)
    (haddress : builder.walletAddress.WellFormed) {data : List Data} (htwo : data.length ≤ 2)
    (hlength : ∀ call ∈ data, call.length ≤ 100) (now : Date) :
    ∃ built, builder.buildTransactionData services data now = .ok built ∧
      built.wallet = builder.wallet ∧
      MakesCalls services builder.walletAddress built.transaction (calls data) := by
  have hfew : (calls data).length ≤ 2 ∧ ∀ call ∈ calls data, call.length ≤ 100 :=
    ⟨(List.length_filter_le _ _).trans htwo, fun call hcall =>
      hlength call (List.mem_filter.mp hcall).1⟩
  rw [calls] at hfew ⊢
  unfold buildTransactionData
  generalize data.filter (· ≠ []) = made at hfew
  match made, hfew with
  | [], _ => exact ⟨_, rfl, rfl, .none rfl rfl rfl⟩
  | [call], _ => exact ⟨_, rfl, rfl, .single rfl rfl rfl⟩
  | call :: call' :: rest, ⟨htwo, hlength⟩ =>
      obtain ⟨address, hformatted, -, hwf, hvalue⟩ :=
        services.kit.formatted_of_wellFormed hcontract
      have hspelled : services.metadata.multiSendContractAddress.Respelled address :=
        ⟨hcontract.1.trans hwf.1.symm, (Address.normalized_eq_iff hcontract hwf).mpr hvalue.symm⟩
      simp only [hformatted, Trapping.unwrap_some, Trapping.ok_bind]
      exact ⟨_, rfl, rfl,
        .batch rfl rfl hspelled (decode_batch hspelled haddress htwo hlength)⟩

/-! ## The whole plan -/

/-- What the builder knows after it pulled the data of a contract. -/
structure Pulled (builder : RecoveryTransactionBuilder) (owners : RecoveryOwners)
    (manager : OwnerManager) : Prop where
  tracks : builder.Tracks manager.owners
    (manager.replaceable owners.paper.onChain owners.derived.onChain)
  oldScheme : builder.oldScheme = ⟨manager.threshold.toNat, manager.owners.length⟩
  confirmations : builder.newScheme.confirmations = if owners.authenticator.isSome then 2 else 1
  confirmationCount : builder.wallet.confirmationCount = manager.threshold.toNat
  device : builder.wallet.owner .thisDevice = some ⟨owners.device, .thisDevice⟩
  authenticator : ((builder.wallet.owner .browserExtension).or
    (builder.wallet.owner .keycard)).map Owner.address = owners.authenticator
  device_wellFormed : owners.device.WellFormed
  authenticator_wellFormed : ∀ a ∈ owners.authenticator, a.WellFormed
  address_wellFormed : builder.walletAddress.WellFormed

section Plan

variable {services : Services} {builder : RecoveryTransactionBuilder} {owners : RecoveryOwners}
  {manager : OwnerManager}

/-- The first role an authenticator is found under. -/
theorem withAuthenticator_spec {a : Address}
    (h : ((builder.wallet.owner .browserExtension).or (builder.wallet.owner .keycard)).map
      Owner.address = some a) :
    ∃ role owner, builder.wallet.owner role = some owner ∧ owner.address = a ∧
      ∀ execute, builder.withAuthenticator execute = execute builder role := by
  cases hextension : builder.wallet.owner .browserExtension with
  | some owner =>
      refine ⟨.browserExtension, owner, hextension, by simpa [hextension] using h, fun execute => ?_⟩
      simp [withAuthenticator, hextension]
  | none =>
      cases hkeycard : builder.wallet.owner .keycard with
      | some owner =>
          refine ⟨.keycard, owner, hkeycard, by simpa [hextension, hkeycard] using h,
            fun execute => ?_⟩
          simp [withAuthenticator, hextension, hkeycard]
      | none => simp [hextension, hkeycard] at h

/-- The planned calls, executed, are the plan. -/
structure Plans (services : Services) (builder : RecoveryTransactionBuilder)
    (owners : RecoveryOwners) (manager : OwnerManager) (planned : RecoveryTransactionBuilder)
    (data : List Data) : Prop where
  plannedCalls_eq : builder.plannedCalls services = .ok (planned, data)
  address : planned.walletAddress = builder.walletAddress
  count : data.length ≤ 2
  length : ∀ call ∈ data, call.length ≤ 100
  executes : manager.executeAll (calls data) = manager.recovered owners.device.onChain
    owners.paper.onChain owners.derived.onChain (owners.authenticator.map Address.onChain)
  confirmationCount : ∀ manager', manager.recovered owners.device.onChain owners.paper.onChain
      owners.derived.onChain (owners.authenticator.map Address.onChain) = some manager' →
    planned.wallet.confirmationCount = manager'.threshold.toNat
  unchanged : manager.replaceable owners.paper.onChain owners.derived.onChain =
      owners.device.onChain :: (owners.authenticator.map Address.onChain).toList →
    manager.owners.length = 3 + (owners.authenticator.map Address.onChain).toList.length →
    calls data = []

/-- The first step of every plan: the device takes the first place, in the copy
and on the contract. -/
structure Swaps (services : Services) (builder : RecoveryTransactionBuilder)
    (owners : RecoveryOwners) (manager : OwnerManager) (first : ChainAddress)
    (others : List ChainAddress) (swapped : RecoveryTransactionBuilder) (swap : Data)
    (copied : List ChainAddress) : Prop where
  replaceable : manager.replaceable owners.paper.onChain owners.derived.onChain = first :: others
  swapOwnerData_eq : builder.swapOwnerData services .thisDevice = .ok (swapped, swap)
  wallet : swapped.wallet = builder.wallet
  address : swapped.walletAddress = builder.walletAddress
  newScheme : swapped.newScheme = builder.newScheme
  length : swap.length ≤ 100
  nil_iff : swap = [] ↔ owners.device.onChain = first
  executes : manager.executeAll (calls [swap]) = manager.exchange first owners.device.onChain
  tracks : swapped.Tracks copied others
  copied_eq : ∀ exchanged, manager.exchange first owners.device.onChain = some exchanged →
    exchanged.owners = copied ∧ exchanged.threshold = manager.threshold
  others_mem : ∀ second ∈ others, second ∈ copied ∧ second ≠ OwnerManager.sentinel

theorem Pulled.exists_swap (h : builder.Pulled owners manager)
    (hselectors : OwnerSelectors services.kit) {first : ChainAddress} {others : List ChainAddress}
    (hreplaceable : manager.replaceable owners.paper.onChain owners.derived.onChain =
      first :: others) :
    ∃ swapped swap copied,
      Swaps services builder owners manager first others swapped swap copied := by
  have hnodup := hreplaceable ▸ (OwnerManager.nodup_replaceable :
    (manager.replaceable owners.paper.onChain owners.derived.onChain).Nodup)
  have hmem : ∀ x ∈ first :: others, x ∈ manager.owners := by
    intro x hx
    rw [← hreplaceable] at hx
    exact (OwnerManager.mem_replaceable.mp hx).1
  have hfirst := hmem first List.mem_cons_self
  have htracks := h.tracks
  rw [hreplaceable] at htracks
  obtain ⟨swapped, swap, hswap, hwallet, haddress, hscheme, htracks', hlength, hnil, hexecutes⟩ :=
    swapOwnerData_spec hselectors htracks hfirst (manager.valid first hfirst).2 h.device
      h.device_wellFormed
  refine ⟨swapped, swap, _, hreplaceable, hswap, hwallet, haddress, hscheme, hlength, hnil,
    hexecutes manager rfl, htracks', fun exchanged hexchange =>
      ⟨OwnerManager.owners_of_exchange hexchange,
        (OwnerManager.exchange_spec hexchange hfirst).2.1⟩, ?_⟩
  intro second hsecond
  have hmember := hmem second (List.mem_cons_of_mem _ hsecond)
  refine ⟨?_, (manager.valid second hmember).2⟩
  have hne : second ≠ first := by
    rintro rfl
    exact (List.nodup_cons.mp hnodup).1 hsecond
  split
  · exact hmember
  · exact (Linked.mem_replace manager.nodup hfirst).mpr (.inr ⟨hmember, hne⟩)

section Cases

variable {first : ChainAddress} {others : List ChainAddress} {swapped : RecoveryTransactionBuilder}
  {swap : Data} {copied : List ChainAddress}

/-- Executing the second step behind the first. -/
theorem Swaps.executeAll (h : Swaps services builder owners manager first others swapped swap copied)
    {data : Data} {step : OwnerManager → Option OwnerManager}
    (hstep : ∀ exchanged : OwnerManager, exchanged.owners = copied →
      exchanged.executeAll (calls [data]) = step exchanged) :
    manager.executeAll (calls [swap, data]) =
      (manager.exchange first owners.device.onChain).bind step := by
  rw [executeAll_calls_cons, h.executes]
  cases hexchange : manager.exchange first owners.device.onChain with
  | none => rfl
  | some exchanged => exact hstep exchanged (h.copied_eq exchanged hexchange).1

theorem Pulled.plan_without (h : builder.Pulled owners manager)
    (hswap : Swaps services builder owners manager first others swapped swap copied)
    (hold : builder.oldScheme = .withoutExtension) (hnew : builder.newScheme = .withoutExtension) :
    Plans services builder owners manager swapped [swap] := by
  have hthree : manager.owners.length = 3 :=
    congrArg WalletScheme.owners (h.oldScheme.symm.trans hold)
  have hnone : owners.authenticator = none := by
    cases hauth : owners.authenticator with
    | none => rfl
    | some a => simpa [hauth, hnew, WalletScheme.withoutExtension] using h.confirmations
  have hrecovered : manager.recovered owners.device.onChain owners.paper.onChain
      owners.derived.onChain (owners.authenticator.map Address.onChain) =
        manager.exchange first owners.device.onChain := by
    simp [OwnerManager.recovered, hswap.replaceable, hthree, hnone]
  refine ⟨?_, hswap.address, by simp, by simpa using hswap.length, ?_, ?_, ?_⟩
  · simp [plannedCalls, hold, hnew, hswap.swapOwnerData_eq]
  · rw [hswap.executes, hrecovered]
  · intro manager' hmanager'
    rw [hrecovered] at hmanager'
    rw [hswap.wallet, h.confirmationCount, (hswap.copied_eq manager' hmanager').2]
  · intro hplaces _
    rw [hswap.replaceable, List.cons.injEq] at hplaces
    simp [calls, hswap.nil_iff.mpr hplaces.1.symm]

theorem Pulled.plan_add (h : builder.Pulled owners manager)
    (hselectors : OwnerSelectors services.kit)
    (hswap : Swaps services builder owners manager first others swapped swap copied)
    (hold : builder.oldScheme = .withoutExtension) (hnew : builder.newScheme = .withExtension) :
    ∃ planned add, Plans services builder owners manager planned [swap, add] := by
  have hthree : manager.owners.length = 3 :=
    congrArg WalletScheme.owners (h.oldScheme.symm.trans hold)
  cases hauth : owners.authenticator with
  | none => simpa [hauth, hnew, WalletScheme.withExtension] using h.confirmations
  | some a =>
      have hoptions := h.authenticator
      rw [← hswap.wallet, hauth] at hoptions
      obtain ⟨role, owner, howner, rfl, hexecute⟩ := withAuthenticator_spec hoptions
      have hwf : owner.address.WellFormed := h.authenticator_wellFormed _ hauth
      obtain ⟨added, add, hadd, haddress, hcount, hlength, -, hadds⟩ :=
        addOwnerData_spec hselectors hswap.tracks.list howner hwf
      rw [hswap.newScheme, hnew] at hadds hcount
      have hrecovered : manager.recovered owners.device.onChain owners.paper.onChain
          owners.derived.onChain (owners.authenticator.map Address.onChain) =
            (manager.exchange first owners.device.onChain).bind fun exchanged =>
              if owner.address.onChain = OwnerManager.sentinel ∨ owner.address.onChain ∈ copied then
                some exchanged
              else exchanged.addOwnerWithThreshold owner.address.onChain 2#256 := by
        simp only [OwnerManager.recovered, hswap.replaceable, hthree, hauth]
        cases hexchange : manager.exchange first owners.device.onChain with
        | none => rfl
        | some exchanged =>
            rw [← (hswap.copied_eq exchanged hexchange).1]
            rfl
      refine ⟨added, add, ?_, haddress.trans hswap.address, by simp, ?_, ?_, ?_, ?_⟩
      · simp [plannedCalls, hold, hnew, hswap.swapOwnerData_eq, hexecute, hadd]
      · simp [hswap.length, hlength]
      · rw [hrecovered]
        exact hswap.executeAll hadds
      · intro manager' hmanager'
        rw [hrecovered] at hmanager'
        obtain ⟨exchanged, hexchange, hmanager'⟩ := Option.bind_eq_some_iff.mp hmanager'
        obtain ⟨-, hthreshold⟩ := hswap.copied_eq exchanged hexchange
        split at hmanager'
        · rename_i hthere
          cases hmanager'
          rw [hcount, if_pos hthere, hswap.wallet, h.confirmationCount, hthreshold]
        · rename_i hthere
          rw [hcount, if_neg hthere, (OwnerManager.add_spec hmanager').2.1]
          rfl
      · intro _ hfull
        simp [hthree, hauth] at hfull

/-- On a contract of four owners a second one can be replaced. -/
theorem Pulled.exists_second (h : builder.Pulled owners manager)
    (hswap : Swaps services builder owners manager first others swapped swap copied)
    (hold : builder.oldScheme = .withExtension) :
    manager.owners.length ≠ 3 ∧ manager.threshold.toNat = 2 ∧
      ∃ second rest, others = second :: rest := by
  have hscheme := h.oldScheme.symm.trans hold
  have hfour : manager.owners.length = 4 := congrArg WalletScheme.owners hscheme
  have hge := manager.length_replaceable_ge owners.paper.onChain owners.derived.onChain
  rw [hswap.replaceable, hfour, List.length_cons] at hge
  exact ⟨by omega, congrArg WalletScheme.confirmations hscheme,
    List.exists_cons_of_length_pos (by omega)⟩

theorem Pulled.plan_remove (h : builder.Pulled owners manager)
    (hselectors : OwnerSelectors services.kit)
    (hswap : Swaps services builder owners manager first others swapped swap copied)
    (hold : builder.oldScheme = .withExtension) (hnew : builder.newScheme = .withoutExtension) :
    ∃ planned remove, Plans services builder owners manager planned [swap, remove] := by
  obtain ⟨hthree, -, second, rest, rfl⟩ := h.exists_second hswap hold
  have hnone : owners.authenticator = none := by
    cases hauth : owners.authenticator with
    | none => rfl
    | some a => simpa [hauth, hnew, WalletScheme.withoutExtension] using h.confirmations
  obtain ⟨hsecond, hsentinel⟩ := hswap.others_mem second List.mem_cons_self
  obtain ⟨removed, remove, hremove, haddress, hcount, hlength, hremoves⟩ :=
    removeOwnerData_spec hselectors hswap.tracks hsecond hsentinel
  rw [hswap.newScheme, hnew] at hremoves hcount
  have hrecovered : manager.recovered owners.device.onChain owners.paper.onChain
      owners.derived.onChain (owners.authenticator.map Address.onChain) =
        (manager.exchange first owners.device.onChain).bind fun exchanged =>
          exchanged.discard second 1#256 := by
    simp only [OwnerManager.recovered, hswap.replaceable, hthree, hnone]
    rfl
  refine ⟨removed, remove, ?_, haddress.trans hswap.address, by simp, ?_, ?_, ?_, ?_⟩
  · simp [plannedCalls, hold, hnew, hswap.swapOwnerData_eq, hremove]
  · simp [hswap.length, hlength]
  · rw [hrecovered]
    exact hswap.executeAll hremoves
  · intro manager' hmanager'
    rw [hrecovered] at hmanager'
    obtain ⟨exchanged, -, hdiscard⟩ := Option.bind_eq_some_iff.mp hmanager'
    rw [hcount, (OwnerManager.discard_spec hdiscard).2.1]
    rfl
  · intro _ hfull
    simp [hthree, hnone] at hfull

theorem Pulled.plan_swap (h : builder.Pulled owners manager)
    (hselectors : OwnerSelectors services.kit)
    (hswap : Swaps services builder owners manager first others swapped swap copied)
    (hold : builder.oldScheme = .withExtension) (hnew : builder.newScheme = .withExtension) :
    ∃ planned swap', Plans services builder owners manager planned [swap, swap'] := by
  obtain ⟨hthree, htwo, second, rest, rfl⟩ := h.exists_second hswap hold
  cases hauth : owners.authenticator with
  | none => simpa [hauth, hnew, WalletScheme.withExtension] using h.confirmations
  | some a =>
      have hoptions := h.authenticator
      rw [← hswap.wallet, hauth] at hoptions
      obtain ⟨role, owner, howner, rfl, hexecute⟩ := withAuthenticator_spec hoptions
      have hwf : owner.address.WellFormed := h.authenticator_wellFormed _ hauth
      obtain ⟨hsecond, hsentinel⟩ := hswap.others_mem second List.mem_cons_self
      obtain ⟨planned, swap', hswap', hwallet, haddress, -, -, hlength, hnil, hswaps⟩ :=
        swapOwnerData_spec hselectors hswap.tracks hsecond hsentinel howner hwf
      have hrecovered : manager.recovered owners.device.onChain owners.paper.onChain
          owners.derived.onChain (owners.authenticator.map Address.onChain) =
            (manager.exchange first owners.device.onChain).bind fun exchanged =>
              exchanged.exchange second owner.address.onChain := by
        simp only [OwnerManager.recovered, hswap.replaceable, hthree, hauth]
        rfl
      refine ⟨planned, swap', ?_, haddress.trans hswap.address, by simp, ?_, ?_, ?_, ?_⟩
      · simp [plannedCalls, hold, hnew, hswap.swapOwnerData_eq, hexecute, hswap']
      · simp [hswap.length, hlength]
      · rw [hrecovered]
        exact hswap.executeAll hswaps
      · intro manager' hmanager'
        rw [hrecovered] at hmanager'
        obtain ⟨exchanged, hexchange, hexchange'⟩ := Option.bind_eq_some_iff.mp hmanager'
        obtain ⟨hcopied, hthreshold⟩ := hswap.copied_eq exchanged hexchange
        rw [hwallet, hswap.wallet, h.confirmationCount, ← hthreshold,
          (OwnerManager.exchange_spec hexchange' (hcopied ▸ hsecond)).2.1]
      · intro hplaces _
        simp only [hswap.replaceable, hauth, Option.map_some, Option.toList_some,
          List.cons.injEq] at hplaces
        simp [calls, hswap.nil_iff.mpr hplaces.1.symm, hnil.mpr hplaces.2.1.symm]

end Cases

/-- Accepted owners are not all of the recovery phrase. -/
theorem Pulled.length_replaceable_pos (h : builder.Pulled owners manager)
    (howners : builder.isSupportedSafeOwners = true) :
    0 < (manager.replaceable owners.paper.onChain owners.derived.onChain).length := by
  have hcount : (manager.replaceable owners.paper.onChain owners.derived.onChain).length = 1 ∨
      (manager.replaceable owners.paper.onChain owners.derived.onChain).length = 2 := by
    simpa [isSupportedSafeOwners, h.tracks.modifiable] using howners
  omega

/-- The builder always makes the plan. -/
theorem Pulled.exists_plan (h : builder.Pulled owners manager)
    (hselectors : OwnerSelectors services.kit)
    (hpos : 0 < (manager.replaceable owners.paper.onChain owners.derived.onChain).length)
    (hscheme : builder.isSupportedScheme = true) :
    ∃ planned data, Plans services builder owners manager planned data := by
  obtain ⟨first, others, hreplaceable⟩ := List.exists_cons_of_length_pos hpos
  obtain ⟨swapped, swap, copied, hswap⟩ := h.exists_swap hselectors hreplaceable
  simp only [isSupportedScheme, supportedSchemes, List.mem_cons, List.not_mem_nil, or_false,
    decide_eq_true_eq] at hscheme
  obtain ⟨hold | hold, hnew | hnew⟩ := hscheme
  · exact ⟨swapped, [swap], h.plan_without hswap hold hnew⟩
  · obtain ⟨planned, add, hplan⟩ := h.plan_add hselectors hswap hold hnew
    exact ⟨planned, [swap, add], hplan⟩
  · obtain ⟨planned, remove, hplan⟩ := h.plan_remove hselectors hswap hold hnew
    exact ⟨planned, [swap, remove], hplan⟩
  · obtain ⟨planned, swap', hplan⟩ := h.plan_swap hselectors hswap hold hnew
    exact ⟨planned, [swap, swap'], hplan⟩

end Plan

end RecoveryTransactionBuilder

end SafeWallet
