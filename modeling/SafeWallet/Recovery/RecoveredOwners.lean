/-
# The owners after a recovery

The recovery transaction promises a set of owners and a number of confirmations.
For a contract on which neither this device nor the authenticator is an owner yet,
it keeps the promise as soon as the local addresses are different and possible
owners. When an earlier recovery already put this device on the contract, it keeps
the promise only if this device is the first replaceable owner: the first one is
always exchanged for this device, which the contract refuses if this device stands
behind it.
-/

import SafeWallet.Recovery.RecoveryCalls

namespace SafeWallet

open SafeOwnerManagerContractProxy

namespace RecoveryTransactionBuilder

/-- All owners after the recovery, on the chain. -/
def RecoveryOwners.onChain (owners : RecoveryOwners) : List ChainAddress :=
  [owners.device.onChain, owners.paper.onChain, owners.derived.onChain] ++
    (owners.authenticator.map Address.onChain).toList

/-- The contract has exactly the owners, with the given number of confirmations. -/
def Reaches (manager : OwnerManager) (owners : RecoveryOwners) (confirmations : ℕ) : Prop :=
  (∀ x, x ∈ manager.owners ↔ x ∈ owners.onChain) ∧ manager.threshold.toNat = confirmations

/-- The transaction is built, executing its calls gives the contract and the wallet
what the new scheme promises, and there are no calls if the contract already has
it. -/
def Recovers (services : Services) (builder : RecoveryTransactionBuilder)
    (owners : RecoveryOwners) (manager : OwnerManager) (now : Date) : Prop :=
  ∃ built made manager', builder.buildData services now = .ok built ∧
    MakesCalls services builder.walletAddress built.transaction made ∧
    manager.executeAll made = some manager' ∧
    Reaches manager' owners builder.newScheme.confirmations ∧
    built.wallet.confirmationCount = builder.newScheme.confirmations ∧
    (Reaches manager owners builder.newScheme.confirmations → made = [])

/-- What the plan takes for granted about the contract and the local wallet. -/
abbrev RecoveryOwners.Recoverable (owners : RecoveryOwners) (manager : OwnerManager) : Prop :=
  manager.Recoverable owners.device.onChain owners.paper.onChain owners.derived.onChain
    (owners.authenticator.map Address.onChain)

section

variable {services : Services} {store : Store} {wallet : Wallet} {address : Address}
  {manager : OwnerManager} {owners : RecoveryOwners} {builder : RecoveryTransactionBuilder}
  {now : Date} {balancesUpdated : Bool}

/-! ## The pulled data -/

/-- The recovery phrase is told apart by the numbers of its addresses. -/
theorem RecoveryOwners.OfWallet.mem_readonly (h : owners.OfWallet wallet) (x : ChainAddress) :
    (Address.ofChain x).normalized.value ∈ readonlyAddresses wallet ↔
      x = owners.paper.onChain ∨ x = owners.derived.onChain := by
  have hrole : ∀ role a, role ≠ .unknown → wallet.owner role = some ⟨a, role⟩ →
      (((Address.ofChain x).normalized = a.normalized ↔ x = a.onChain) ∧
        ∀ owner ∈ wallet.owners, owner.role = role → owner.address = a) := by
    intro role a hknown howner
    have hwf := h.wellFormed _ (Wallet.owner_mem howner).1
    constructor
    · rw [(Address.ofChain_spec x).1.normalized_eq_iff hwf, Address.onChain_ofChain]
    · intro owner hmem hrole
      have := h.unique owner hmem (by rw [hrole]; exact hknown)
      rw [hrole, howner] at this
      exact (congrArg Owner.address (Option.some.inj this)).symm
  obtain ⟨hpaper, hpaper'⟩ := hrole .paperWallet owners.paper (by decide) h.paper
  obtain ⟨hderived, hderived'⟩ := hrole .paperWalletDerived owners.derived (by decide) h.derived
  have hvalue : ∀ a b : Address, a.value = b.value ↔ a = b := by
    intro a b
    exact ⟨fun heq => by cases a; cases b; cases heq; rfl, congrArg Address.value⟩
  rw [← hpaper, ← hderived]
  simp only [readonlyAddresses, List.mem_map, List.mem_filter, decide_eq_true_eq]
  constructor
  · rintro ⟨owner, ⟨hmem, hrole | hrole⟩, heq⟩
    · rw [hpaper' owner hmem hrole] at heq
      exact .inl ((hvalue _ _).mp heq.symm)
    · rw [hderived' owner hmem hrole] at heq
      exact .inr ((hvalue _ _).mp heq.symm)
  · rintro (heq | heq)
    · exact ⟨_, ⟨(Wallet.owner_mem h.paper).1, .inl rfl⟩, congrArg Address.value heq.symm⟩
    · exact ⟨_, ⟨(Wallet.owner_mem h.derived).1, .inr rfl⟩, congrArg Address.value heq.symm⟩

/-- The builder may replace the owners outside the recovery phrase. -/
theorem RecoveryOwners.OfWallet.mutableOwners_eq (h : owners.OfWallet wallet) (threshold : ℕ) :
    mutableOwners (withRemote wallet (manager.owners.map Address.ofChain) threshold) =
      (manager.replaceable owners.paper.onChain owners.derived.onChain).map
        fun x => ⟨Address.ofChain x, .unknown⟩ := by
  have hreplaceable : manager.replaceable owners.paper.onChain owners.derived.onChain =
      manager.owners.filter fun x =>
        (Address.ofChain x).normalized.value ∉ readonlyAddresses wallet := by
    rw [OwnerManager.replaceable, (manager.nodup.erase _).erase_eq_filter,
      manager.nodup.erase_eq_filter, List.filter_filter]
    apply List.filter_congr
    intro x _
    simp only [h.mem_readonly x]
    grind
  rw [mutableOwners_withRemote, hreplaceable, List.filter_map, List.map_map]
  rfl

theorem RecoveryOwners.OfWallet.newScheme_eq (h : owners.OfWallet wallet) (addresses : List Address)
    (threshold : ℕ) : newWalletScheme (withRemote wallet addresses threshold) =
      ⟨if owners.authenticator.isSome then 2 else 1, (localOwners wallet).length⟩ := by
  have hlocal : localOwners (withRemote wallet addresses threshold) = localOwners wallet :=
    filter_withRemote fun owner howner => by simpa using howner
  have hauthenticator : hasAuthenticator (withRemote wallet addresses threshold) =
      owners.authenticator.isSome := by
    rw [← h.authenticator, hasAuthenticator, owner_withRemote (by decide),
      owner_withRemote (by decide)]
    cases wallet.owner .browserExtension <;> cases wallet.owner .keycard <;> rfl
  rw [newWalletScheme, hlocal, hauthenticator]

theorem oldScheme_eq (wallet : Wallet) (addresses : List Address) (threshold : ℕ) :
    oldWalletScheme (withRemote wallet addresses threshold) = ⟨threshold, addresses.length⟩ := by
  rw [oldWalletScheme, remoteOwners_withRemote, List.length_map, withRemote_eq]

/-- After pulling, the builder's copy stands for the contract's owners. -/
theorem pulled_of_pullData
    (hpull : pullData services store wallet now balancesUpdated = .ok (some builder))
    (haddress : wallet.address = some address) (hwf : address.WellFormed)
    (hanswers : Answers services address manager) (howners : owners.OfWallet wallet)
    (hsupported : builder.isSupportedScheme = true) :
    builder.Pulled owners manager ∧ builder.walletAddress = address ∧
      builder.newScheme.owners = (localOwners wallet).length := by
  obtain ⟨walletAddress, transaction, addresses, threshold, ownerList, haddress', hread, hcount,
    hlist, -, rfl⟩ := pullData_spec hpull
  obtain rfl : address = walletAddress := Option.some.inj (haddress.symm.trans haddress')
  obtain rfl : addresses = manager.owners.map Address.ofChain :=
    Option.some.inj (getOwners_of_answers hanswers hread)
  obtain rfl : threshold = manager.threshold.toNat :=
    Option.some.inj (getThreshold_of_answers hanswers hcount)
  have hold : oldWalletScheme (withRemote wallet (manager.owners.map Address.ofChain)
      manager.threshold.toNat) = ⟨manager.threshold.toNat, manager.owners.length⟩ := by
    rw [oldScheme_eq, List.length_map]
  have hne : manager.owners ≠ [] := by
    intro hnil
    simp only [isSupportedScheme, hold, decide_eq_true_eq] at hsupported
    simp [hnil, supportedSchemes, WalletScheme.withoutExtension,
      WalletScheme.withExtension] at hsupported
  have hrepresents : ownerList.Represents manager.owners := by
    obtain ⟨ownerList', hfold, hrepresents⟩ :=
      OwnerLinkedList.represents_foldlM manager.owners hne
    rw [ownerLinkedList, remoteOwners_withRemote, List.map_map] at hlist
    have hsame : (Except.ok ownerList : Trapping OwnerLinkedList) = .ok ownerList' := by
      rw [← hlist, ← hfold]
      simp [Function.comp_def]
    cases hsame
    exact hrepresents
  have hscheme := howners.newScheme_eq (manager.owners.map Address.ofChain) manager.threshold.toNat
  refine ⟨⟨⟨hrepresents, howners.mutableOwners_eq _⟩, hold, ?_, ?_, ?_, ?_, ?_, ?_, hwf⟩, rfl, ?_⟩
  · exact congrArg WalletScheme.confirmations hscheme
  · simp [withRemote_eq]
  · exact (owner_withRemote (by decide)).trans howners.device
  · rw [owner_withRemote (by decide), owner_withRemote (by decide), howners.authenticator]
  · exact howners.wellFormed _ (Wallet.owner_mem howners.device).1
  · intro a ha
    have hauthenticator := howners.authenticator
    rw [ha, Option.map_eq_some_iff] at hauthenticator
    obtain ⟨owner, howner, rfl⟩ := hauthenticator
    rcases Option.or_eq_some_iff.mp howner with howner | ⟨-, howner⟩
    · exact howners.wellFormed _ (Wallet.owner_mem howner).1
    · exact howners.wellFormed _ (Wallet.owner_mem howner).1
  · exact congrArg WalletScheme.owners hscheme

/-- The builder accepts every contract with an accepted scheme. -/
theorem exists_pullData {transaction : Transaction} (haddress : wallet.address = some address)
    (hanswers : Answers services address manager)
    (htransaction : newTransaction services store wallet now = .ok transaction)
    (howners : owners.OfWallet wallet)
    (hlocal : (localOwners wallet).length = 3 + owners.authenticator.toList.length)
    (hscheme : (⟨manager.threshold.toNat, manager.owners.length⟩ : WalletScheme) ∈ supportedSchemes)
    (hreplaceable :
      (manager.replaceable owners.paper.onChain owners.derived.onChain).length ∈ [1, 2]) :
    ∃ builder, pullData services store wallet now true = .ok (some builder) ∧
      builder.isSupportedSafeOwners = true ∧ builder.isSupportedScheme = true := by
  have hsmall : manager.owners.length * 32 < 2 ^ 63 ∧ manager.threshold.toNat < 2 ^ 63 ∧
      manager.owners ≠ [] := by
    simp only [supportedSchemes, List.mem_cons, List.not_mem_nil, or_false,
      WalletScheme.withoutExtension, WalletScheme.withExtension, WalletScheme.mk.injEq] at hscheme
    refine ⟨by omega, by omega, ?_⟩
    intro hnil
    rw [hnil] at hscheme
    simp at hscheme
  have hread := getOwners_eq hanswers
  rw [if_pos hsmall.1] at hread
  have hcount := getThreshold_eq hanswers
  rw [Trapping.toInt_of_lt hsmall.2.1] at hcount
  obtain ⟨ownerList, hfold, -⟩ := OwnerLinkedList.represents_foldlM manager.owners hsmall.2.2
  have hlist : ownerLinkedList (withRemote wallet (manager.owners.map Address.ofChain)
      manager.threshold.toNat) = .ok ownerList := by
    rw [ownerLinkedList, remoteOwners_withRemote, ← hfold]
    simp [Function.comp_def]
  refine ⟨_, pullData_eq haddress htransaction hread hcount hlist, ?_, ?_⟩
  · rw [isSupportedSafeOwners, howners.mutableOwners_eq, List.length_map]
    simpa using hreplaceable
  · have hnew : newWalletScheme (withRemote wallet (manager.owners.map Address.ofChain)
        manager.threshold.toNat) ∈ supportedSchemes := by
      rw [howners.newScheme_eq, hlocal]
      cases owners.authenticator <;>
        simp [supportedSchemes, WalletScheme.withoutExtension, WalletScheme.withExtension]
    simp only [isSupportedScheme, oldScheme_eq, List.length_map, hnew, hscheme, and_self,
      decide_true]

/-! ## Keeping the promise -/

/-- The schemes the builder accepts a contract with. -/
theorem Pulled.scheme (h : builder.Pulled owners manager)
    (hscheme : builder.isSupportedScheme = true) :
    (manager.threshold.toNat = 1 ∧ manager.owners.length = 3) ∨
      (manager.threshold.toNat = 2 ∧ manager.owners.length = 4) := by
  simp only [isSupportedScheme, supportedSchemes, List.mem_cons, List.not_mem_nil, or_false,
    decide_eq_true_eq, h.oldScheme] at hscheme
  rcases hscheme.1 with hold | hold
  · exact .inl ⟨congrArg WalletScheme.confirmations hold, congrArg WalletScheme.owners hold⟩
  · exact .inr ⟨congrArg WalletScheme.confirmations hold, congrArg WalletScheme.owners hold⟩

theorem Pulled.reaches_iff (h : builder.Pulled owners manager) (manager' : OwnerManager) :
    Reaches manager' owners builder.newScheme.confirmations ↔
      manager'.HasOwners owners.device.onChain owners.paper.onChain owners.derived.onChain
        (owners.authenticator.map Address.onChain) := by
  rw [Reaches, h.confirmations, OwnerManager.HasOwners, Option.isSome_map]
  rfl

/-- The built transaction makes the calls of the plan. -/
theorem Pulled.exists_built (h : builder.Pulled owners manager)
    (hselectors : OwnerSelectors services.kit)
    (hcontract : services.metadata.multiSendContractAddress.WellFormed)
    (hpos : 0 < (manager.replaceable owners.paper.onChain owners.derived.onChain).length)
    (hscheme : builder.isSupportedScheme = true) (now : Date) :
    ∃ planned data built, Plans services builder owners manager planned data ∧
      builder.buildData services now = .ok built ∧ built.wallet = planned.wallet ∧
      MakesCalls services builder.walletAddress built.transaction (calls data) := by
  obtain ⟨planned, data, hplan⟩ := h.exists_plan hselectors hpos hscheme
  have haddress : planned.walletAddress.WellFormed := by
    rw [hplan.address]
    exact h.address_wellFormed
  obtain ⟨built, hbuilt, hwallet, hcalls⟩ :=
    buildTransactionData_spec hcontract haddress hplan.count hplan.length now
  rw [hplan.address] at hcalls
  refine ⟨planned, data, built, hplan, ?_, hwallet, hcalls⟩
  simp only [buildData, hplan.plannedCalls_eq, Trapping.ok_bind, hbuilt]

/-- The promise is kept exactly if the plan could take its conditions for
granted. -/
theorem Pulled.recovers_iff (h : builder.Pulled owners manager)
    (hselectors : OwnerSelectors services.kit)
    (hcontract : services.metadata.multiSendContractAddress.WellFormed)
    (hreplaceable : builder.isSupportedSafeOwners = true)
    (hscheme : builder.isSupportedScheme = true) (now : Date) :
    Recovers services builder owners manager now ↔ owners.Recoverable manager := by
  obtain ⟨planned, data, built, hplan, hbuilt, hwallet, hcalls⟩ :=
    h.exists_built hselectors hcontract (h.length_replaceable_pos hreplaceable) hscheme now
  have hschemes := h.scheme hscheme
  constructor
  · rintro ⟨built', made, manager', hbuilt', hmade, hexecutes, hreaches, -, -⟩
    rw [hbuilt] at hbuilt'
    cases hbuilt'
    rw [hmade.unique hcalls, hplan.executes] at hexecutes
    exact OwnerManager.Recoverable.of_recovered (by omega) (by omega) hexecutes
      ((h.reaches_iff manager').mp hreaches)
  · intro hrecoverable
    obtain ⟨manager', hrecovered, howners⟩ := hrecoverable.recovered hschemes
    refine ⟨built, calls data, manager', hbuilt, hcalls, hplan.executes.trans hrecovered,
      (h.reaches_iff manager').mpr howners, ?_, fun hreached => ?_⟩
    · rw [hwallet, hplan.confirmationCount manager' hrecovered, howners.2, h.confirmations,
        Option.isSome_map]
    · have hhas := (h.reaches_iff manager).mp hreached
      have hperm : manager.owners.Perm _ :=
        (List.perm_ext_iff_of_nodup manager.nodup hrecoverable.distinct).mpr hhas.1
      refine hplan.unchanged (hrecoverable.replaceable_eq hhas) (hperm.length_eq.trans ?_)
      rw [List.length_append]
      rfl

/-- For every contract and wallet the builder accepts, the recovery transaction
keeps its promise exactly if the plan could take its conditions for granted. -/
theorem recovers_iff_recoverable (hselectors : OwnerSelectors services.kit)
    (hcontract : services.metadata.multiSendContractAddress.WellFormed)
    (haddress : wallet.address = some address) (hwf : address.WellFormed)
    (hanswers : Answers services address manager) (howners : owners.OfWallet wallet)
    (hpull : pullData services store wallet now balancesUpdated = .ok (some builder))
    (hreplaceable : builder.isSupportedSafeOwners = true)
    (hscheme : builder.isSupportedScheme = true) :
    Recovers services builder owners manager now ↔ owners.Recoverable manager :=
  (pulled_of_pullData hpull haddress hwf hanswers howners hscheme).1.recovers_iff hselectors
    hcontract hreplaceable hscheme now

/-- A first recovery keeps its promise if the phrase gives two addresses, and this
device and the authenticator are two other addresses that can be owners. -/
theorem fresh_recovers (hselectors : OwnerSelectors services.kit)
    (hcontract : services.metadata.multiSendContractAddress.WellFormed)
    (haddress : wallet.address = some address) (hwf : address.WellFormed)
    (hanswers : Answers services address manager) (howners : owners.OfWallet wallet)
    (hpull : pullData services store wallet now balancesUpdated = .ok (some builder))
    (hreplaceable : builder.isSupportedSafeOwners = true)
    (hscheme : builder.isSupportedScheme = true)
    (hpaper : owners.paper.onChain ∈ manager.owners)
    (hderived : owners.derived.onChain ∈ manager.owners)
    (hdevice : owners.device.onChain ∉ manager.owners)
    (hauthenticator : ∀ a ∈ owners.authenticator, a.onChain ∉ manager.owners)
    (hphrase : owners.paper.onChain ≠ owners.derived.onChain)
    (hdistinct : ∀ a ∈ owners.authenticator, a.onChain ≠ owners.device.onChain)
    (hvalid : ∀ a ∈ owners.device :: owners.authenticator.toList,
      a.onChain ≠ 0 ∧ a.onChain ≠ OwnerManager.sentinel) :
    Recovers services builder owners manager now := by
  have hpulled := (pulled_of_pullData hpull haddress hwf hanswers howners hscheme).1
  rw [hpulled.recovers_iff hselectors hcontract hreplaceable hscheme now]
  refine ⟨?_, ?_, hpaper, hderived, fun hmem => absurd hmem hdevice⟩
  · cases hauth : owners.authenticator with
    | none => simp; grind
    | some a =>
        have := hauthenticator a hauth
        have := hdistinct a hauth
        simp
        grind
  · intro a ha
    rcases List.mem_cons.mp ha with rfl | ha
    · exact hvalid _ List.mem_cons_self
    · obtain ⟨b, hb, rfl⟩ := Option.map_eq_some_iff.mp (Option.mem_toList.mp ha)
      exact hvalid b (List.mem_cons_of_mem _ (Option.mem_toList.mpr hb))

end

/-! ## Recoveries of one wallet -/

section Example

/-- A node that knows one contract. -/
def answering (kit : EthereumKit) (metadata : SafeContractMetadata) (contract : Address)
    (manager : OwnerManager) : Services :=
  { Services.offline kit metadata with
    eth_call := fun called data =>
      if called = contract ∧ data = ContractProxy.invocation kit "getOwners()" [] then
        some (ContractProxy.encodeArrayUInt (manager.owners.map BitVec.toNat))
      else if called = contract ∧ data = ContractProxy.invocation kit "getThreshold()" [] then
        some (ContractProxy.encodeUInt manager.threshold.toNat)
      else none }

/-- The hashes of the signatures the builder uses. -/
def recoveryKit : EthereumKit := .ofRecording
  { hashes :=
      [(ContractProxy.ascii "getOwners()", EthereumKit.bytes 32
        0xa0e67e2bdc0a6d8a09ccd6c353c9df590807ad66ff5e6630c4f31a86dfa84821),
      (ContractProxy.ascii "getThreshold()", EthereumKit.bytes 32
        0xe75235b8e3646246bff01a77976826b2f4773b4878796da11bfdcd9fbd68e83f),
      (ContractProxy.ascii "multiSend(bytes)", EthereumKit.bytes 32
        0x8d80ff0a19eeb79604f91006b003a79847afc54b18a8fde61bb59e08da5da9cf),
      (ContractProxy.ascii "swapOwner(address,address,address)", EthereumKit.bytes 32
        0xe318b52b9bee2870ac7ee0af86866eb2e8f9569b34de6028eb487e7983ba6df8),
      (ContractProxy.ascii "addOwnerWithThreshold(address,uint256)", EthereumKit.bytes 32
        0x0d582f13d757778d349075a68bf5d92ef44d17aa3b3ca38da8eb82cb56c41c90),
      (ContractProxy.ascii "removeOwner(address,address,uint256)", EthereumKit.bytes 32
        0xf8dc5dd91c83c64a09d4878e686963ef56fde408d6dfdfe8047e612cc3e3702b)]
    checksums := [(EthereumKit.bytes 20 0x8d29be29923b68abfdd21e541b9374737b49cdad,
      "8D29bE29923b68abfDD21e541b9374737B49cdAD".toList)]
    signers := []
    signatures := [] }

theorem recoveryKit_selectors : OwnerSelectors recoveryKit := by
  refine ⟨?_, ?_, ?_⟩ <;> decide +kernel

/-- The batch contract. -/
def recoveryMetadata : SafeContractMetadata :=
  ⟨⟨"0x8D29bE29923b68abfDD21e541b9374737B49cdAD"⟩, [],
    [⟨⟨"0x8D29bE29923b68abfDD21e541b9374737B49cdAD"⟩, 2⟩]⟩

/-- The contract that is recovered. -/
def safe : Address := Address.ofChain 0x5aaeb6053f3e94c9b9a09f33669435e7ef1beaed

/-- The addresses of a recovery. -/
def recoveryOwners (device paper derived : ChainAddress) (authenticator : Option ChainAddress) :
    RecoveryOwners :=
  ⟨.ofChain device, .ofChain paper, .ofChain derived, authenticator.map .ofChain⟩

/-- The local wallet with these addresses. -/
def recoveryWallet (device paper derived : ChainAddress) (authenticator : Option ChainAddress) :
    Wallet where
  id := "wallet"
  state := .recoveryDraft
  owners := [⟨.ofChain device, .thisDevice⟩, ⟨.ofChain paper, .paperWallet⟩,
    ⟨.ofChain derived, .paperWalletDerived⟩] ++
      (authenticator.map fun a => (⟨.ofChain a, .browserExtension⟩ : Owner)).toList
  address := some safe
  feePaymentTokenAddress := none
  confirmationCount := 1
  masterCopyAddress := none

variable {device paper derived : ChainAddress} {authenticator : Option ChainAddress}
  {manager : OwnerManager}

theorem ofWallet_recoveryWallet : (recoveryOwners device paper derived authenticator).OfWallet
    (recoveryWallet device paper derived authenticator) := by
  refine ⟨rfl, rfl, rfl, ?_, ?_, ?_⟩
  · cases authenticator <;> rfl
  · intro owner hmem
    cases authenticator with
    | none => simp [recoveryWallet] at hmem; rcases hmem with rfl | rfl | rfl <;> intro _ <;> rfl
    | some a =>
        simp [recoveryWallet] at hmem
        rcases hmem with rfl | rfl | rfl | rfl <;> intro _ <;> rfl
  · intro owner hmem
    cases authenticator with
    | none =>
        simp [recoveryWallet] at hmem
        rcases hmem with rfl | rfl | rfl <;> exact (Address.ofChain_spec _).1
    | some a =>
        simp [recoveryWallet] at hmem
        rcases hmem with rfl | rfl | rfl | rfl <;> exact (Address.ofChain_spec _).1

theorem answers_answering {contract : Address} :
    Answers (answering recoveryKit recoveryMetadata contract manager) contract manager := by
  have hne : ContractProxy.invocation recoveryKit "getThreshold()" [] ≠
      ContractProxy.invocation recoveryKit "getOwners()" [] := by decide +kernel
  constructor
  · simp [answering, Services.offline]
  · simp [answering, Services.offline, hne]

/-- A contract with an accepted scheme is accepted. -/
theorem exists_builder (manager : OwnerManager) (device paper derived : ChainAddress)
    (authenticator : Option ChainAddress) (hscheme :
      (⟨manager.threshold.toNat, manager.owners.length⟩ : WalletScheme) ∈ supportedSchemes)
    (hreplaceable : (manager.replaceable paper derived).length ∈ [1, 2]) :
    ∃ builder, pullData (answering recoveryKit recoveryMetadata safe manager)
        (.ofWallets Table.empty Table.empty) (recoveryWallet device paper derived authenticator) 0
        true = .ok (some builder) ∧
      builder.isSupportedSafeOwners = true ∧ builder.isSupportedScheme = true := by
  have howners : (recoveryOwners device paper derived authenticator).OfWallet
    (recoveryWallet device paper derived authenticator) := ofWallet_recoveryWallet
  refine exists_pullData rfl answers_answering rfl howners ?_ hscheme ?_
  · cases authenticator <;> rfl
  · simpa [recoveryOwners] using hreplaceable

/-- The key of this device. -/
def deviceAddress : ChainAddress := 0x7e5f4552091a69125d5dfcb7b8c2659029395bdf

/-- The key of the authenticator. -/
def authenticatorAddress : ChainAddress := 0x2b5ad5c4795c026514f8317c7a215e218dccd6cf

/-- The first key of the recovery phrase. -/
def paperAddress : ChainAddress := 0x6813eb9362372eef6200f3b1dbc3f819671cba69

/-- The second key of the recovery phrase. -/
def derivedAddress : ChainAddress := 0x1eff47bc3a10a45d4b230b5d10e37751fe6aa718

/-- The key of a lost device. -/
def lostAddress : ChainAddress := 0xe1ab8145f7e55dc933d51a18c793f901a3a0b276

/-- The contract with a lost device. -/
def lostManager : OwnerManager where
  owners := [lostAddress, paperAddress, derivedAddress]
  threshold := 1
  nodup := by decide
  valid := by simp [lostAddress, paperAddress, derivedAddress]

/-- The contract after a recovery whose first call was another one. -/
def retriedManager : OwnerManager where
  owners := [authenticatorAddress, deviceAddress, paperAddress, derivedAddress]
  threshold := 2
  nodup := by decide
  valid := by simp [authenticatorAddress, deviceAddress, paperAddress, derivedAddress]

theorem recoveryMetadata_wellFormed : recoveryMetadata.multiSendContractAddress.WellFormed := by
  decide +kernel

/-- A wallet whose authenticator is this device itself is accepted, but gets one
confirmation instead of two. -/
theorem sameDevice_not_recovers :
    ∃ builder, pullData (answering recoveryKit recoveryMetadata safe lostManager)
        (.ofWallets Table.empty Table.empty)
        (recoveryWallet deviceAddress paperAddress derivedAddress (some deviceAddress)) 0 true =
          .ok (some builder) ∧
      builder.isSupportedSafeOwners = true ∧ builder.isSupportedScheme = true ∧
      (recoveryOwners deviceAddress paperAddress derivedAddress (some deviceAddress)).OfWallet
        (recoveryWallet deviceAddress paperAddress derivedAddress (some deviceAddress)) ∧
      paperAddress ∈ lostManager.owners ∧ derivedAddress ∈ lostManager.owners ∧
      deviceAddress ∉ lostManager.owners ∧
      ¬ Recovers (answering recoveryKit recoveryMetadata safe lostManager) builder
        (recoveryOwners deviceAddress paperAddress derivedAddress (some deviceAddress))
        lostManager 0 := by
  obtain ⟨builder, hpull, hreplaceable, hscheme⟩ := exists_builder lostManager deviceAddress
    paperAddress derivedAddress (some deviceAddress) (by decide) (by decide)
  refine ⟨builder, hpull, hreplaceable, hscheme, ofWallet_recoveryWallet, by decide, by decide,
    by decide, ?_⟩
  have hpulled := (pulled_of_pullData hpull rfl (Address.ofChain_spec _).1 answers_answering
    ofWallet_recoveryWallet hscheme).1
  rw [hpulled.recovers_iff recoveryKit_selectors recoveryMetadata_wellFormed hreplaceable hscheme]
  intro hrecoverable
  have hdistinct := hrecoverable.distinct
  simp [recoveryOwners] at hdistinct

/-- A first recovery with an authenticator. -/
theorem lostDevice_recovers :
    ∃ builder, pullData (answering recoveryKit recoveryMetadata safe lostManager)
        (.ofWallets Table.empty Table.empty)
        (recoveryWallet deviceAddress paperAddress derivedAddress (some authenticatorAddress)) 0
        true = .ok (some builder) ∧
      Recovers (answering recoveryKit recoveryMetadata safe lostManager) builder
        (recoveryOwners deviceAddress paperAddress derivedAddress (some authenticatorAddress))
        lostManager 0 := by
  obtain ⟨builder, hpull, hreplaceable, hscheme⟩ := exists_builder lostManager deviceAddress
    paperAddress derivedAddress (some authenticatorAddress) (by decide) (by decide)
  refine ⟨builder, hpull, fresh_recovers recoveryKit_selectors recoveryMetadata_wellFormed rfl
    (Address.ofChain_spec _).1 answers_answering ofWallet_recoveryWallet hpull hreplaceable hscheme
    ?_ ?_ ?_ ?_ ?_ ?_ ?_⟩
  · simp [recoveryOwners, lostManager]
  · simp [recoveryOwners, lostManager]
  · simp [recoveryOwners, lostManager, deviceAddress, lostAddress, paperAddress, derivedAddress]
  · simp [recoveryOwners, lostManager, authenticatorAddress, deviceAddress, lostAddress,
      paperAddress, derivedAddress]
  · simp [recoveryOwners, paperAddress, derivedAddress]
  · simp [recoveryOwners, authenticatorAddress, deviceAddress]
  · simp [recoveryOwners, deviceAddress, authenticatorAddress, OwnerManager.sentinel]

/-- If the device stands behind the authenticator, the retried recovery is refused,
although the contract has all the owners. -/
theorem retried_not_recovers :
    ∃ builder, pullData (answering recoveryKit recoveryMetadata safe retriedManager)
        (.ofWallets Table.empty Table.empty)
        (recoveryWallet deviceAddress paperAddress derivedAddress (some authenticatorAddress)) 0
        true = .ok (some builder) ∧
      builder.isSupportedSafeOwners = true ∧ builder.isSupportedScheme = true ∧
      (recoveryOwners deviceAddress paperAddress derivedAddress
        (some authenticatorAddress)).OfWallet
        (recoveryWallet deviceAddress paperAddress derivedAddress (some authenticatorAddress)) ∧
      deviceAddress ∈ retriedManager.owners ∧ authenticatorAddress ∈ retriedManager.owners ∧
      ¬ Recovers (answering recoveryKit recoveryMetadata safe retriedManager) builder
        (recoveryOwners deviceAddress paperAddress derivedAddress (some authenticatorAddress))
        retriedManager 0 := by
  obtain ⟨builder, hpull, hreplaceable, hscheme⟩ := exists_builder retriedManager deviceAddress
    paperAddress derivedAddress (some authenticatorAddress) (by decide) (by decide)
  refine ⟨builder, hpull, hreplaceable, hscheme, ofWallet_recoveryWallet, by decide, by decide, ?_⟩
  have hpulled := (pulled_of_pullData hpull rfl (Address.ofChain_spec _).1 answers_answering
    ofWallet_recoveryWallet hscheme).1
  rw [hpulled.recovers_iff recoveryKit_selectors recoveryMetadata_wellFormed hreplaceable hscheme]
  intro hrecoverable
  have hfirst := hrecoverable.device_first (by simp [recoveryOwners, retriedManager])
  simp only [recoveryOwners, Address.onChain_ofChain] at hfirst
  exact absurd hfirst (by decide)

/-- A retry in which the device is the first replaceable owner. -/
def halfwayManager : OwnerManager where
  owners := [deviceAddress, paperAddress, derivedAddress]
  threshold := 1
  nodup := by decide
  valid := by simp [deviceAddress, paperAddress, derivedAddress]

/-- That retry adds the authenticator. -/
theorem halfway_recovers :
    ∃ builder, pullData (answering recoveryKit recoveryMetadata safe halfwayManager)
        (.ofWallets Table.empty Table.empty)
        (recoveryWallet deviceAddress paperAddress derivedAddress (some authenticatorAddress)) 0
        true = .ok (some builder) ∧
      Recovers (answering recoveryKit recoveryMetadata safe halfwayManager) builder
        (recoveryOwners deviceAddress paperAddress derivedAddress (some authenticatorAddress))
        halfwayManager 0 := by
  obtain ⟨builder, hpull, hreplaceable, hscheme⟩ := exists_builder halfwayManager deviceAddress
    paperAddress derivedAddress (some authenticatorAddress) (by decide) (by decide)
  refine ⟨builder, hpull, (recovers_iff_recoverable recoveryKit_selectors
    recoveryMetadata_wellFormed rfl (Address.ofChain_spec _).1 answers_answering
    ofWallet_recoveryWallet hpull hreplaceable hscheme).mpr ⟨?_, ?_, ?_, ?_, ?_⟩⟩
  · simp [recoveryOwners, deviceAddress, paperAddress, derivedAddress, authenticatorAddress]
  · simp [recoveryOwners, deviceAddress, authenticatorAddress, OwnerManager.sentinel]
  · simp [recoveryOwners, halfwayManager]
  · simp [recoveryOwners, halfwayManager]
  · intro _
    simp only [recoveryOwners, Address.onChain_ofChain]
    decide

end Example

end RecoveryTransactionBuilder

end SafeWallet
