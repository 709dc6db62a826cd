/-
# Recovery transactions that connect an authenticator

After a recovery the program asks of the stored transaction alone whether it connected an
authenticator: it is a batch of two calls, and the second one adds or exchanges an owner. The
builder leaves calls out that would change nothing, and so the answer depends on the order in
which the owners stand on the contract.
-/

import SafeWallet.Recovery.RecoveredOwners
import SafeWallet.Wallet.OwnerServices

namespace SafeWallet

open SafeOwnerManagerContractProxy

/-! ## The recogniser -/

namespace RecoveryDomainService

/-- Whether a call adds or exchanges an owner. -/
def changesOwner (kit : EthereumKit) (data : Data) : Trapping Bool := do
  let added ← decodeAddOwnerArguments kit data
  return added.isSome || (decodeSwapOwnerArguments kit data).isSome

/-- `isTransactionConnectsAuthenticator(_:)`. -/
def isTransactionConnectsAuthenticator (services : Services) (store : Store)
    (transactionID : TransactionID) : Trapping Bool :=
  match store.transactions.find transactionID with
  | none => return false
  | some tx =>
    if tx.type = .walletRecovery ∧ tx.operation = some .delegateCall then
      match tx.recipient, tx.data with
      | some recipient, some data => do
        match ← MultiSend.decodeMultiSendArguments services.kit
          services.metadata.multiSendContractAddress services.metadata.multiSend recipient data with
        | some [_, authenticatorTransaction] =>
          changesOwner services.kit authenticatorTransaction.data
        | _ => return false
      | _, _ => return false
    else return false

section Calls

variable {kit : EthereumKit}

theorem changesOwner_addOwner (owner : Address) {threshold : ℕ} (h : threshold < 2 ^ 63) :
    changesOwner kit (addOwner kit owner threshold) = .ok true := by
  have hnumber : ContractProxy.decodeUInt (ContractProxy.encodeUInt threshold) = threshold := by
    have hword := ContractProxy.decodeUInt_encodeUInt threshold []
    have hlt : threshold < 2 ^ 256 := h.trans (by norm_num)
    rwa [List.append_nil, Nat.mod_eq_of_lt hlt] at hword
  simp [changesOwner, decodeAddOwnerArguments, addOwner, ContractProxy.invocation, hnumber,
    Trapping.toInt_of_lt h]

/-- A call with three arguments adds nobody. -/
theorem changesOwner_of_length (h : OwnerSelectors kit) {data : Data} (hlength : data.length = 100) :
    changesOwner kit data = .ok (decodeSwapOwnerArguments kit data).isSome := by
  simp [changesOwner, decodeAddOwnerArguments, h.addOwner, hlength]

theorem changesOwner_swapOwner (h : OwnerSelectors kit) (prevOwner old new : Address) :
    changesOwner kit (swapOwner kit prevOwner old new) = .ok true := by
  rw [changesOwner_of_length h (length_swapOwner h prevOwner old new)]
  simp [decodeSwapOwnerArguments, swapOwner, ContractProxy.invocation]

theorem changesOwner_removeOwner (h : OwnerSelectors kit) (prevOwner owner : Address)
    (threshold : ℕ) : changesOwner kit (removeOwner kit prevOwner owner threshold) = .ok false := by
  rw [changesOwner_of_length h (length_removeOwner h prevOwner owner threshold)]
  simp [decodeSwapOwnerArguments, removeOwner, ContractProxy.invocation, h.swapOwner,
    h.removeOwner]

end Calls

end RecoveryDomainService

/-! ## What the builder plans -/

namespace OwnerManager

variable (manager : OwnerManager) (device paper derived : ChainAddress)

/-- Two calls are planned, and the second is about the authenticator. -/
def PlansConnection : Option ChainAddress → Prop
  | none => False
  | some a =>
    match manager.replaceable paper derived with
    | [] => False
    | first :: others => device ≠ first ∧
        if manager.owners.length = 3 then
          ¬(a = sentinel ∨ a ∈ manager.owners.replace first device)
        else others.head? ≠ some a

/-- The plan makes the authenticator an owner that it was not before. -/
def Connects (authenticator : Option ChainAddress) : Prop :=
  ∃ a manager', authenticator = some a ∧
    manager.recovered device paper derived authenticator = some manager' ∧
    a ∉ manager.owners ∧ a ∈ manager'.owners

/-- When two planned calls mean a new authenticator. If this device is the first replaceable
owner, the authenticator must not be a possible new owner. If it is not, the two must be
different possible new owners, or no call for the authenticator is planned: it is the sentinel, an
owner out of the way, or an impossible device on a contract of three owners, and the second
replaceable owner on one of four. -/
def PlanTells : Option ChainAddress → Prop
  | none => True
  | some a =>
    match manager.replaceable paper derived with
    | [] => True
    | first :: others =>
      if device = first then ¬manager.CanAdd a
      else (manager.CanAdd device ∧ manager.CanAdd a ∧ a ≠ device) ∨
        if manager.owners.length = 3 then
          a = sentinel ∨ (a ∈ manager.owners ∧ a ≠ first) ∨ (a = device ∧ ¬manager.CanAdd device)
        else others.head? = some a

section Connection

variable {manager device paper derived} {a first : ChainAddress} {others : List ChainAddress}

theorem first_mem (hreplaceable : manager.replaceable paper derived = first :: others) :
    first ∈ manager.owners :=
  (mem_replaceable.mp (hreplaceable ▸ List.mem_cons_self)).1

/-- On a contract of three owners the authenticator becomes one if it and the device can. -/
theorem connects_iff_of_three (hreplaceable : manager.replaceable paper derived = first :: others)
    (hthree : manager.owners.length = 3) :
    manager.Connects device paper derived (some a) ↔
      (device = first ∨ manager.CanAdd device) ∧ manager.CanAdd a := by
  have hfirst := first_mem hreplaceable
  constructor
  · rintro ⟨b, manager', hb, hrecovered, hnew, hmem⟩
    cases hb
    obtain ⟨first', others', exchanged, hreplaceable', hexchange, hcases⟩ :=
      recovered_cases hrecovered
    rw [hreplaceable] at hreplaceable'
    cases hreplaceable'
    obtain ⟨hdevice, -, -, hmembers⟩ := exchange_spec hexchange hfirst
    refine ⟨hdevice, ?_⟩
    rcases hcases with ⟨-, hnone, -⟩ | ⟨-, b, hb, rfl⟩ | ⟨-, b, hb, hadd⟩ | ⟨hfour, -⟩ | ⟨hfour, -⟩
    · cases hnone
    · -- Nobody was added, so the authenticator is the device itself.
      obtain rfl : a = device := ((hmembers a).mp hmem).resolve_right fun h => hnew h.1
      exact hdevice.resolve_left fun heq => hnew (heq ▸ hfirst)
    · cases hb
      obtain ⟨hcan, -, -⟩ := add_spec hadd
      exact ⟨hcan.1, hcan.2.1, hnew⟩
    · exact absurd hthree hfour
    · exact absurd hthree hfour
  · rintro ⟨hdevice, hcan⟩
    obtain ⟨exchanged, hexchange⟩ := exists_exchange hfirst hdevice
    obtain ⟨-, -, hlength, hmembers⟩ := exchange_spec hexchange hfirst
    by_cases hthere : a ∈ exchanged.owners
    · refine ⟨a, exchanged, rfl, ?_, hcan.2.2, hthere⟩
      simp [recovered, hreplaceable, hexchange, hthree, hthere]
    · obtain ⟨manager', hadd⟩ : ∃ manager', exchanged.addOwnerWithThreshold a 2#256 =
          some manager' := exists_add ⟨hcan.1, hcan.2.1, hthere⟩ (by simp; omega)
      refine ⟨a, manager', rfl, ?_, hcan.2.2, by simp [(add_spec hadd).2.2]⟩
      simp [recovered, hreplaceable, hexchange, hthree, hthere, hcan.2.1, hadd]

/-- On a contract of four owners it must also be another address than the device. -/
theorem connects_iff_of_four {second : ChainAddress} {rest : List ChainAddress}
    (hreplaceable : manager.replaceable paper derived = first :: second :: rest)
    (hfour : manager.owners.length ≠ 3) :
    manager.Connects device paper derived (some a) ↔
      (device = first ∨ manager.CanAdd device) ∧ manager.CanAdd a ∧ a ≠ device := by
  have hfirst := first_mem hreplaceable
  have hsecond : second ∈ manager.owners :=
    (mem_replaceable.mp (hreplaceable ▸ List.mem_cons_of_mem _ List.mem_cons_self)).1
  constructor
  · rintro ⟨b, manager', hb, hrecovered, hnew, hmem⟩
    cases hb
    obtain ⟨first', others', exchanged, hreplaceable', hexchange, hcases⟩ :=
      recovered_cases hrecovered
    rw [hreplaceable] at hreplaceable'
    cases hreplaceable'
    obtain ⟨hdevice, -, -, hmembers⟩ := exchange_spec hexchange hfirst
    rcases hcases with ⟨hthree, -⟩ | ⟨hthree, -⟩ | ⟨hthree, -⟩ | ⟨-, hnone, -⟩ |
      ⟨-, second', rest', b, hothers, hb, hswap⟩
    · exact absurd hthree hfour
    · exact absurd hthree hfour
    · exact absurd hthree hfour
    · cases hnone
    · cases hothers
      cases hb
      have hexchanged := second_mem_exchanged hreplaceable hexchange
      have hcan := (exchange_spec hswap hexchanged).1.resolve_left
        fun heq => hnew (heq ▸ hsecond)
      exact ⟨hdevice, ⟨hcan.1, hcan.2.1, hnew⟩,
        fun heq => hcan.2.2 ((hmembers a).mpr (.inl heq))⟩
  · rintro ⟨hdevice, hcan, hne⟩
    obtain ⟨exchanged, hexchange⟩ := exists_exchange hfirst hdevice
    obtain ⟨-, -, -, hmembers⟩ := exchange_spec hexchange hfirst
    have hexchanged := second_mem_exchanged hreplaceable hexchange
    have hcan' : exchanged.CanAdd a := by
      refine ⟨hcan.1, hcan.2.1, fun hmem => ?_⟩
      rcases (hmembers a).mp hmem with heq | ⟨hold, -⟩
      · exact hne heq
      · exact hcan.2.2 hold
    obtain ⟨manager', hswap⟩ := exists_exchange hexchanged (.inr hcan')
    refine ⟨a, manager', rfl, ?_, hcan.2.2,
      ((exchange_spec hswap hexchanged).2.2.2 a).mpr (.inl rfl)⟩
    simp [recovered, hreplaceable, hexchange, hfour, hswap]

/-- Two planned calls mean a new authenticator exactly under the condition. -/
theorem plansConnection_iff_connects (authenticator : Option ChainAddress)
    (hreplaceable : manager.replaceable paper derived = first :: others)
    (hothers : manager.owners.length = 3 ∨ others ≠ []) :
    (manager.PlansConnection device paper derived authenticator ↔
      manager.Connects device paper derived authenticator) ↔
    manager.PlanTells device paper derived authenticator := by
  have hfirst := first_mem hreplaceable
  cases authenticator with
  | none => simp [PlansConnection, Connects, PlanTells]
  | some a =>
      simp only [PlansConnection, PlanTells, hreplaceable]
      by_cases hthree : manager.owners.length = 3
      · rw [connects_iff_of_three hreplaceable hthree]
        have hreplace := Linked.mem_replace manager.nodup hfirst (y := device) (z := a)
        simp only [hthree, if_true, hreplace]
        by_cases hdevice : device = first
        · simp [hdevice]
        · simp only [hdevice, if_false, CanAdd]
          grind
      · obtain ⟨second, rest, rfl⟩ := List.exists_cons_of_ne_nil (hothers.resolve_left hthree)
        have hsecond : second ∈ manager.owners :=
          (mem_replaceable.mp (hreplaceable ▸ List.mem_cons_of_mem _ List.mem_cons_self)).1
        rw [connects_iff_of_four hreplaceable hthree]
        simp only [hthree, if_false, List.head?_cons]
        by_cases hdevice : device = first
        · simp only [hdevice, CanAdd]
          grind
        · simp only [hdevice, if_false, CanAdd]
          grind

end Connection

end OwnerManager

/-! ## The planned calls -/

namespace RecoveryTransactionBuilder

variable {services : Services} {builder builder' planned : RecoveryTransactionBuilder}
  {role : OwnerRole} {data : Data} {owners : RecoveryOwners} {manager : OwnerManager}

theorem swapOwnerData_data (h : builder.swapOwnerData services role = .ok (builder', data)) :
    builder'.transaction = builder.transaction ∧
      (data ≠ [] → ∃ prevOwner old new, data = swapOwner services.kit prevOwner old new) := by
  unfold swapOwnerData at h
  split at h
  · cases h
  · simp only [Trapping.bind_eq_ok_iff] at h
    obtain ⟨before, -, newOwner, -, h⟩ := h
    split at h
    · cases h
      exact ⟨rfl, fun hne => absurd rfl hne⟩
    · cases h
      exact ⟨rfl, fun _ => ⟨_, _, _, rfl⟩⟩

theorem addOwnerData_data (h : builder.addOwnerData services role = .ok (builder', data)) :
    builder'.transaction = builder.transaction ∧
      (data ≠ [] → ∃ owner, data = addOwner services.kit owner builder.newScheme.confirmations) := by
  simp only [addOwnerData, Trapping.bind_eq_ok_iff] at h
  obtain ⟨newOwner, -, h⟩ := h
  split at h
  · cases h
    exact ⟨rfl, fun hne => absurd rfl hne⟩
  · simp only [Trapping.bind_eq_ok_iff] at h
    obtain ⟨ownerList, -, h⟩ := h
    cases h
    exact ⟨rfl, fun _ => ⟨_, rfl⟩⟩

theorem removeOwnerData_data (h : builder.removeOwnerData services = .ok (builder', data)) :
    builder'.transaction = builder.transaction ∧
      ∃ prevOwner owner, data = removeOwner services.kit prevOwner owner
        builder.newScheme.confirmations := by
  unfold removeOwnerData at h
  split at h
  · cases h
  · simp only [Trapping.bind_eq_ok_iff] at h
    obtain ⟨before, -, h⟩ := h
    cases h
    exact ⟨rfl, _, _, rfl⟩

/-- The answer of the recogniser to the calls of a transaction. -/
def recognised (kit : EthereumKit) : List Data → Trapping Bool
  | [_, call] => RecoveryDomainService.changesOwner kit call
  | _ => return false

theorem recognised_single (kit : EthereumKit) (swap : Data) :
    recognised kit (calls [swap]) = .ok false := by
  by_cases hswap : swap = [] <;> simp [calls, hswap, recognised]

theorem recognised_pair (kit : EthereumKit) (swap data : Data) :
    recognised kit (calls [swap, data]) = if swap = [] ∨ data = [] then .ok false
      else RecoveryDomainService.changesOwner kit data := by
  by_cases hswap : swap = [] <;> by_cases hdata : data = [] <;>
    simp [calls, hswap, hdata, recognised]

/-- The copy after the first step. -/
theorem Swaps.represents {first : ChainAddress} {others copied : List ChainAddress} {swap : Data}
    {swapped : RecoveryTransactionBuilder} (h : builder.Pulled owners manager)
    (hselectors : OwnerSelectors services.kit)
    (hswap : Swaps services builder owners manager first others swapped swap copied) :
    swapped.ownerList.Represents (if owners.device.onChain = first then manager.owners
      else manager.owners.replace first owners.device.onChain) := by
  have hfirst := OwnerManager.first_mem hswap.replaceable
  have htracks := h.tracks
  rw [hswap.replaceable] at htracks
  obtain ⟨swapped', swap', hswap', -, -, -, htracks', -, -, -⟩ :=
    swapOwnerData_spec hselectors htracks hfirst (manager.valid first hfirst).2 h.device
      h.device_wellFormed
  rw [hswap.swapOwnerData_eq] at hswap'
  cases hswap'
  exact htracks'.list

section Recognised

variable {first : ChainAddress} {others copied : List ChainAddress} {swap : Data}
  {swapped : RecoveryTransactionBuilder} {made : List Data}

/-- Without an authenticator at most one call is recognisable. -/
theorem Pulled.authenticator_none (h : builder.Pulled owners manager)
    (hnew : builder.newScheme = .withoutExtension) : owners.authenticator = none := by
  cases hauth : owners.authenticator with
  | none => rfl
  | some a => simpa [hauth, hnew, WalletScheme.withoutExtension] using h.confirmations

/-- With one there is a role it is found under. -/
theorem Pulled.exists_authenticator (h : builder.Pulled owners manager)
    (hnew : builder.newScheme = .withExtension) (hwallet : swapped.wallet = builder.wallet) :
    ∃ role owner, swapped.wallet.owner role = some owner ∧ owner.address.WellFormed ∧
      owners.authenticator = some owner.address ∧
      ∀ execute, swapped.withAuthenticator execute = execute swapped role := by
  cases hauth : owners.authenticator with
  | none => simpa [hauth, hnew, WalletScheme.withExtension] using h.confirmations
  | some a =>
      have hoptions := h.authenticator
      rw [← hwallet, hauth] at hoptions
      obtain ⟨role, owner, howner, rfl, hexecute⟩ := withAuthenticator_spec hoptions
      exact ⟨role, owner, howner, h.authenticator_wellFormed _ hauth, rfl, hexecute⟩

/-- The planned calls are recognised exactly if there are two and the second is about the
authenticator. -/
theorem Pulled.recognised_iff (h : builder.Pulled owners manager)
    (hselectors : OwnerSelectors services.kit)
    (hpos : 0 < (manager.replaceable owners.paper.onChain owners.derived.onChain).length)
    (hscheme : builder.isSupportedScheme = true)
    (hplanned : builder.plannedCalls services = .ok (planned, made)) :
    planned.transaction = builder.transaction ∧
    ∃ connects, recognised services.kit (calls made) = .ok connects ∧
      (connects = true ↔ manager.PlansConnection owners.device.onChain owners.paper.onChain
        owners.derived.onChain (owners.authenticator.map Address.onChain)) := by
  obtain ⟨first, others, hreplaceable⟩ := List.exists_cons_of_length_pos hpos
  obtain ⟨swapped, swap, copied, hswap⟩ := h.exists_swap hselectors hreplaceable
  obtain ⟨htransaction, -⟩ := swapOwnerData_data hswap.swapOwnerData_eq
  simp only [isSupportedScheme, supportedSchemes, List.mem_cons, List.not_mem_nil, or_false,
    decide_eq_true_eq] at hscheme
  obtain ⟨hold | hold, hnew | hnew⟩ := hscheme
  · -- Only the device takes a place.
    simp only [plannedCalls, hold, hnew, and_self, if_true, hswap.swapOwnerData_eq,
      Trapping.ok_bind, Trapping.pure_eq_ok, Except.ok.injEq, Prod.mk.injEq] at hplanned
    obtain ⟨rfl, rfl⟩ := hplanned
    refine ⟨htransaction, false, recognised_single _ _, ?_⟩
    simp [h.authenticator_none hnew, OwnerManager.PlansConnection]
  · obtain ⟨role, owner, howner, hwf, hauth, hexecute⟩ :=
      h.exists_authenticator hnew hswap.wallet
    obtain ⟨added, add, hadd, -, -, -, hnil, -⟩ :=
      addOwnerData_spec hselectors (hswap.represents h hselectors) howner hwf
    obtain ⟨htransaction', hdata⟩ := addOwnerData_data hadd
    simp only [plannedCalls, hold, hnew, WalletScheme.withExtension_ne, and_false, if_false,
      and_self, if_true, hswap.swapOwnerData_eq, Trapping.ok_bind, hexecute, hadd,
      Trapping.pure_eq_ok, Except.ok.injEq, Prod.mk.injEq] at hplanned
    obtain ⟨rfl, rfl⟩ := hplanned
    refine ⟨htransaction'.trans htransaction, ?_⟩
    have hthree : manager.owners.length = 3 :=
      congrArg WalletScheme.owners (h.oldScheme.symm.trans hold)
    rw [recognised_pair]
    simp only [hauth, Option.map_some, OwnerManager.PlansConnection, hreplaceable, hthree, if_true]
    by_cases hempty : swap = [] ∨ add = []
    · refine ⟨false, by rw [if_pos hempty], ?_⟩
      rw [hswap.nil_iff, hnil] at hempty
      simp only [Bool.false_eq_true, false_iff]
      rintro ⟨hne, hnot⟩
      rw [if_neg hne] at hempty
      exact hempty.elim hne hnot
    · have hfull := not_or.mp hempty
      obtain ⟨new, hnewData⟩ := hdata hfull.2
      have hconfirmations : swapped.newScheme.confirmations < 2 ^ 63 := by
        rw [hswap.newScheme, hnew]
        decide
      refine ⟨true, ?_, ?_⟩
      · rw [if_neg hempty, hnewData]
        exact RecoveryDomainService.changesOwner_addOwner new hconfirmations
      · rw [hswap.nil_iff, hnil] at hfull
        rw [if_neg hfull.1] at hfull
        simpa using hfull
  · obtain ⟨-, -, second, rest, rfl⟩ := h.exists_second hswap hold
    obtain ⟨hsecond, hsentinel⟩ := hswap.others_mem second List.mem_cons_self
    obtain ⟨removed, remove, hremove, -⟩ :=
      removeOwnerData_spec hselectors hswap.tracks hsecond hsentinel
    obtain ⟨htransaction', prevOwner, owner, hdata⟩ := removeOwnerData_data hremove
    simp only [plannedCalls, hold, hnew, WalletScheme.withExtension_ne,
      WalletScheme.withoutExtension_ne, and_false, false_and, if_false, and_self, if_true,
      hswap.swapOwnerData_eq, Trapping.ok_bind, hremove, Trapping.pure_eq_ok, Except.ok.injEq,
      Prod.mk.injEq] at hplanned
    obtain ⟨rfl, rfl⟩ := hplanned
    refine ⟨htransaction'.trans htransaction, false, ?_, ?_⟩
    · rw [recognised_pair, hdata, RecoveryDomainService.changesOwner_removeOwner hselectors, ite_self]
    · simp [h.authenticator_none hnew, OwnerManager.PlansConnection]
  · obtain ⟨hthree, -, second, rest, rfl⟩ := h.exists_second hswap hold
    obtain ⟨role, owner, howner, hwf, hauth, hexecute⟩ :=
      h.exists_authenticator hnew hswap.wallet
    obtain ⟨hsecond, hsentinel⟩ := hswap.others_mem second List.mem_cons_self
    obtain ⟨swapped', swap', hswap', -, -, -, -, -, hnil, -⟩ :=
      swapOwnerData_spec hselectors hswap.tracks hsecond hsentinel howner hwf
    obtain ⟨htransaction', hdata⟩ := swapOwnerData_data hswap'
    simp only [plannedCalls, hold, hnew, WalletScheme.withExtension_ne, and_false, false_and,
      if_false, and_self, if_true, hswap.swapOwnerData_eq, Trapping.ok_bind, hexecute, hswap',
      Trapping.pure_eq_ok, Except.ok.injEq, Prod.mk.injEq] at hplanned
    obtain ⟨rfl, rfl⟩ := hplanned
    refine ⟨htransaction'.trans htransaction, ?_⟩
    rw [recognised_pair]
    simp only [hauth, Option.map_some, OwnerManager.PlansConnection, hreplaceable, hthree, if_false,
      List.head?_cons, ne_eq, Option.some.injEq]
    by_cases hempty : swap = [] ∨ swap' = []
    · refine ⟨false, by rw [if_pos hempty], ?_⟩
      rw [hswap.nil_iff, hnil] at hempty
      simp only [Bool.false_eq_true, false_iff]
      rintro ⟨hne, hnot⟩
      exact hempty.elim hne fun heq => hnot heq.symm
    · have hfull := not_or.mp hempty
      obtain ⟨prevOwner, old, new, hnewData⟩ := hdata hfull.2
      refine ⟨true, ?_, ?_⟩
      · rw [if_neg hempty, hnewData]
        exact RecoveryDomainService.changesOwner_swapOwner hselectors prevOwner old new
      · rw [hswap.nil_iff, hnil] at hfull
        simpa using ⟨hfull.1, fun heq => hfull.2 heq.symm⟩

end Recognised

/-! ## The stored transaction -/

section Stored

variable {tx tx' : Transaction} {walletAddress : Address} {made : List Data} {store : Store}
  {built : RecoveryTransactionBuilder} {now : Date}

/-- A transaction that makes the call of another one. -/
structure SameCall (tx tx' : Transaction) : Prop where
  type : tx'.type = tx.type
  operation : tx'.operation = tx.operation
  recipient : tx'.recipient = tx.recipient
  data : tx'.data = tx.data

theorem MakesCalls.sameCall (h : MakesCalls services walletAddress tx made)
    (hsame : SameCall tx tx') : MakesCalls services walletAddress tx' made := by
  cases h with
  | none hoperation hrecipient hdata =>
      exact .none (hsame.operation.trans hoperation) (hsame.recipient.trans hrecipient)
        (hsame.data.trans hdata)
  | single hoperation hrecipient hdata =>
      exact .single (hsame.operation.trans hoperation) (hsame.recipient.trans hrecipient)
        (hsame.data.trans hdata)
  | batch hoperation hrecipient hcontract hdata =>
      refine .batch (hsame.operation.trans hoperation) (hsame.recipient.trans hrecipient)
        hcontract ?_
      rwa [Transaction.ethData, hsame.data]

/-- The recogniser looks at the calls of a recovery transaction. -/
theorem isTransactionConnectsAuthenticator_eq
    (hfind : store.transactions.find tx.id = some tx) (htype : tx.type = .walletRecovery)
    (hmade : MakesCalls services walletAddress tx made)
    (hbatch : tx.operation = some .delegateCall → tx.data.isSome) :
    RecoveryDomainService.isTransactionConnectsAuthenticator services store tx.id =
      recognised services.kit made := by
  simp only [RecoveryDomainService.isTransactionConnectsAuthenticator, hfind, htype, true_and]
  cases hmade with
  | none hoperation => simp [hoperation, recognised]
  | single hoperation => simp [hoperation, recognised]
  | batch hoperation hrecipient hcontract hdata =>
      obtain ⟨data, hsome⟩ := Option.isSome_iff_exists.mp (hbatch hoperation)
      rw [Transaction.ethData, hsome, Option.getD_some] at hdata
      simp only [hoperation, if_true, hrecipient, hsome, hdata, Trapping.ok_bind]
      -- Only a batch of exactly two calls is looked at.
      rcases made with _ | ⟨first, _ | ⟨second, _ | ⟨third, rest⟩⟩⟩
      · rfl
      · rfl
      · rfl
      · rfl

/-- The type of a built transaction stays, and a batch has data. -/
theorem buildTransactionData_kept (h : builder.buildTransactionData services made now = .ok built) :
    built.transaction.type = builder.transaction.type ∧
      (built.transaction.operation = some .delegateCall → built.transaction.data.isSome) := by
  unfold buildTransactionData at h
  split at h
  · cases h
    exact ⟨rfl, fun hbatch => by cases hbatch⟩
  · cases h
    exact ⟨rfl, fun hbatch => by cases hbatch⟩
  · simp only [Trapping.bind_eq_ok_iff] at h
    obtain ⟨address, -, h⟩ := h
    cases h
    exact ⟨rfl, fun _ => rfl⟩

/-- Executing a transaction makes the authenticator an owner that it was not before. -/
def ConnectsAuthenticator (services : Services) (walletAddress : Address) (tx : Transaction)
    (owners : RecoveryOwners) (manager : OwnerManager) : Prop :=
  ∃ a made manager', owners.authenticator = some a ∧ MakesCalls services walletAddress tx made ∧
    manager.executeAll made = some manager' ∧ a.onChain ∉ manager.owners ∧
    a.onChain ∈ manager'.owners

/-- The transaction is built, and wherever it is stored, whatever was changed besides its call,
the recogniser tells whether it connects the authenticator. -/
def Tells (services : Services) (builder : RecoveryTransactionBuilder) (owners : RecoveryOwners)
    (manager : OwnerManager) (now : Date) : Prop :=
  ∃ built, builder.buildData services now = .ok built ∧
    ∀ (store : Store) (tx : Transaction), store.transactions.find tx.id = some tx →
      SameCall built.transaction tx →
      ∃ connects,
        RecoveryDomainService.isTransactionConnectsAuthenticator services store tx.id =
          .ok connects ∧
        (connects = true ↔ ConnectsAuthenticator services builder.walletAddress tx owners manager)

theorem connectsAuthenticator_iff (hmade : MakesCalls services walletAddress tx made)
    (hexecutes : manager.executeAll made = manager.recovered owners.device.onChain
      owners.paper.onChain owners.derived.onChain (owners.authenticator.map Address.onChain)) :
    ConnectsAuthenticator services walletAddress tx owners manager ↔
      manager.Connects owners.device.onChain owners.paper.onChain owners.derived.onChain
        (owners.authenticator.map Address.onChain) := by
  constructor
  · rintro ⟨a, made', manager', ha, hmade', hexecuted, hnew, hmem⟩
    rw [hmade'.unique hmade, hexecutes] at hexecuted
    exact ⟨a.onChain, manager', by rw [ha]; rfl, hexecuted, hnew, hmem⟩
  · rintro ⟨x, manager', hx, hrecovered, hnew, hmem⟩
    obtain ⟨a, ha, rfl⟩ := Option.map_eq_some_iff.mp hx
    exact ⟨a, made, manager', ha, hmade, hexecutes.trans hrecovered, hnew, hmem⟩

/-- The recogniser tells exactly if two planned calls mean a new authenticator. -/
theorem Pulled.tells_iff (h : builder.Pulled owners manager)
    (hselectors : OwnerSelectors services.kit)
    (hcontract : services.metadata.multiSendContractAddress.WellFormed)
    (htype : builder.transaction.type = .walletRecovery)
    (howners : builder.isSupportedSafeOwners = true)
    (hscheme : builder.isSupportedScheme = true) (now : Date) :
    Tells services builder owners manager now ↔
      manager.PlanTells owners.device.onChain owners.paper.onChain owners.derived.onChain
        (owners.authenticator.map Address.onChain) := by
  have hpos := h.length_replaceable_pos howners
  obtain ⟨planned, data, built, hplan, hbuilt, -, hmade⟩ :=
    h.exists_built hselectors hcontract hpos hscheme now
  obtain ⟨htransaction, connects, hrecognised, hconnects⟩ :=
    h.recognised_iff hselectors hpos hscheme hplan.plannedCalls_eq
  obtain ⟨first, others, hreplaceable⟩ := List.exists_cons_of_length_pos hpos
  have hothers : manager.owners.length = 3 ∨ others ≠ [] := by
    have hge := manager.length_replaceable_ge owners.paper.onChain owners.derived.onChain
    rw [hreplaceable, List.length_cons] at hge
    rcases h.scheme hscheme with ⟨-, hthree⟩ | ⟨-, hfour⟩
    · exact .inl hthree
    · exact .inr (List.ne_nil_of_length_pos (by omega))
  have hkept : built.transaction.type = .walletRecovery ∧
      (built.transaction.operation = some .delegateCall → built.transaction.data.isSome) := by
    have hbuilt' := hbuilt
    simp only [buildData, hplan.plannedCalls_eq, Trapping.ok_bind] at hbuilt'
    obtain ⟨hsame, hdata⟩ := buildTransactionData_kept hbuilt'
    exact ⟨hsame.trans ((congrArg Transaction.type htransaction).trans htype), hdata⟩
  have hanswer : ∀ (store : Store) (tx : Transaction), store.transactions.find tx.id = some tx →
      SameCall built.transaction tx →
      RecoveryDomainService.isTransactionConnectsAuthenticator services store tx.id = .ok connects ∧
      (ConnectsAuthenticator services builder.walletAddress tx owners manager ↔
        manager.Connects owners.device.onChain owners.paper.onChain owners.derived.onChain
          (owners.authenticator.map Address.onChain)) := by
    intro store tx hfind hsame
    have hmade' := hmade.sameCall hsame
    refine ⟨(isTransactionConnectsAuthenticator_eq hfind (hsame.type.trans hkept.1) hmade' ?_).trans
      hrecognised, connectsAuthenticator_iff hmade' hplan.executes⟩
    intro hoperation
    rw [hsame.data]
    exact hkept.2 (hsame.operation.symm.trans hoperation)
  rw [← OwnerManager.plansConnection_iff_connects _ hreplaceable hothers, ← hconnects]
  constructor
  · rintro ⟨built', hbuilt', htells⟩
    rw [hbuilt] at hbuilt'
    cases hbuilt'
    have hfind : (Store.ofWallets Table.empty
        (Table.empty.save built.transaction)).transactions.find built.transaction.id =
          some built.transaction := Table.find_save_self
    have hsame : SameCall built.transaction built.transaction := ⟨rfl, rfl, rfl, rfl⟩
    obtain ⟨connects', hconnects', htells⟩ := htells _ _ hfind hsame
    obtain ⟨hanswered, hiff⟩ := hanswer _ _ hfind hsame
    rw [hanswered] at hconnects'
    cases hconnects'
    exact htells.trans hiff
  · intro hiff
    refine ⟨built, hbuilt, fun store tx hfind hsame => ?_⟩
    obtain ⟨hanswered, hiff'⟩ := hanswer store tx hfind hsame
    exact ⟨connects, hanswered, hiff.trans hiff'.symm⟩

variable {wallet : Wallet} {address : Address} {balancesUpdated : Bool}

theorem type_of_pullData
    (h : pullData services store wallet now balancesUpdated = .ok (some builder)) :
    builder.transaction.type = .walletRecovery := by
  obtain ⟨-, transaction, -, -, -, -, -, -, -, htransaction, rfl⟩ := pullData_spec h
  simp only [newTransaction, Trapping.bind_eq_ok_iff] at htransaction
  obtain ⟨accountID, -, htransaction⟩ := htransaction
  cases htransaction
  rfl

/-- For every contract and wallet that the builder accepts, the recogniser tells whether the
transaction connects the authenticator exactly if two planned calls mean a new one. -/
theorem tells_iff_planTells (hselectors : OwnerSelectors services.kit)
    (hcontract : services.metadata.multiSendContractAddress.WellFormed)
    (haddress : wallet.address = some address) (hwf : address.WellFormed)
    (hanswers : Answers services address manager) (howners : owners.OfWallet wallet)
    (hpull : pullData services store wallet now balancesUpdated = .ok (some builder))
    (hreplaceable : builder.isSupportedSafeOwners = true)
    (hscheme : builder.isSupportedScheme = true) :
    Tells services builder owners manager now ↔
      manager.PlanTells owners.device.onChain owners.paper.onChain owners.derived.onChain
        (owners.authenticator.map Address.onChain) :=
  (pulled_of_pullData hpull haddress hwf hanswers howners hscheme).1.tells_iff hselectors hcontract
    (type_of_pullData hpull) hreplaceable hscheme now

end Stored

/-! ## Two recoveries with an authenticator -/

/-- A first recovery in which device and authenticator are new. -/
theorem lostDevice_tells :
    ∃ builder, pullData (answering recoveryKit recoveryMetadata safe lostManager)
        (.ofWallets Table.empty Table.empty)
        (recoveryWallet deviceAddress paperAddress derivedAddress (some authenticatorAddress)) 0
        true = .ok (some builder) ∧
      Tells (answering recoveryKit recoveryMetadata safe lostManager) builder
        (recoveryOwners deviceAddress paperAddress derivedAddress (some authenticatorAddress))
        lostManager 0 := by
  obtain ⟨builder, hpull, hreplaceable, hscheme⟩ := exists_builder lostManager deviceAddress
    paperAddress derivedAddress (some authenticatorAddress) (by decide) (by decide)
  refine ⟨builder, hpull, (tells_iff_planTells recoveryKit_selectors recoveryMetadata_wellFormed
    rfl (Address.ofChain_spec _).1 answers_answering ofWallet_recoveryWallet hpull hreplaceable
    hscheme).mpr ?_⟩
  simp only [recoveryOwners, Option.map_some, Address.onChain_ofChain]
  have hplaces : lostManager.replaceable paperAddress derivedAddress = [lostAddress] := by decide
  rw [OwnerManager.PlanTells, hplaces]
  exact .inl (by decide)

/-- A retry in which the device is the first replaceable owner adds the authenticator with a
single call, and the recogniser says no. -/
theorem halfway_not_tells :
    ∃ builder, pullData (answering recoveryKit recoveryMetadata safe halfwayManager)
        (.ofWallets Table.empty Table.empty)
        (recoveryWallet deviceAddress paperAddress derivedAddress (some authenticatorAddress)) 0
        true = .ok (some builder) ∧
      builder.isSupportedSafeOwners = true ∧ builder.isSupportedScheme = true ∧
      (recoveryOwners deviceAddress paperAddress derivedAddress
        (some authenticatorAddress)).OfWallet
        (recoveryWallet deviceAddress paperAddress derivedAddress (some authenticatorAddress)) ∧
      ¬ Tells (answering recoveryKit recoveryMetadata safe halfwayManager) builder
        (recoveryOwners deviceAddress paperAddress derivedAddress (some authenticatorAddress))
        halfwayManager 0 := by
  obtain ⟨builder, hpull, hreplaceable, hscheme⟩ := exists_builder halfwayManager deviceAddress
    paperAddress derivedAddress (some authenticatorAddress) (by decide) (by decide)
  refine ⟨builder, hpull, hreplaceable, hscheme, ofWallet_recoveryWallet, ?_⟩
  have hpulled := (pulled_of_pullData hpull rfl (Address.ofChain_spec _).1 answers_answering
    ofWallet_recoveryWallet hscheme).1
  rw [hpulled.tells_iff recoveryKit_selectors recoveryMetadata_wellFormed (type_of_pullData hpull)
    hreplaceable hscheme]
  simp only [recoveryOwners, Option.map_some, Address.onChain_ofChain]
  have hplaces : halfwayManager.replaceable paperAddress derivedAddress = [deviceAddress] := by
    decide
  rw [OwnerManager.PlanTells, hplaces]
  simp only [if_true, not_not]
  decide

end RecoveryTransactionBuilder

end SafeWallet
